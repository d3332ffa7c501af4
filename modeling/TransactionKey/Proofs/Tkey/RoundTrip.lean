import TransactionKey.Proofs.Tkey

/-!
# Key records that are written and read again

The fields of a key record are texts and sizes that need not agree, and each text can be spelt in
several ways.  `Writable` says which records can be written at all, and `restated` what is read of
one that is: the algorithm in dotted form, the digits in lower case, and the size that the other data
has, whatever size the record gives for it.
-/

namespace TransactionKey.Tkey

/-- the sizes fit the texts, and the algorithm is a name -/
structure Writable (t : Tkey) : Prop where
  algorithm : (Name.ofText t.algorithm).Encodable
  key : Hex.Spells t.key t.keySize.toNat
  other : ∃ n ≤ 65535, Hex.Spells t.otherData n

/-- the record in the spelling in which it is read -/
def restated (t : Tkey) : Tkey :=
  { t with
    algorithm := (Name.ofText t.algorithm).toText
    key := Text.lowerAscii t.key
    otherSize := UInt16.ofNat (t.otherData.length / 2)
    otherData := Text.lowerAscii t.otherData }

variable {t : Tkey} {key other : Bytes}

theorem writable_iff : t.Writable ↔ ∃ key other, t.Holds key other := by
  constructor
  · rintro ⟨halgorithm, hkey, n, hn, hother⟩
    obtain ⟨key, hkeyText, hkeySize⟩ := Hex.decode_iff_spells.2 hkey
    obtain ⟨other, hotherText, rfl⟩ := Hex.decode_iff_spells.2 hother
    exact ⟨key, other, halgorithm, hkeyText, hkeySize, hotherText, hn⟩
  · rintro ⟨key, other, h⟩
    have hkey := Hex.decode_iff_spells.1 ⟨key, h.keyText, h.keySize⟩
    have hother := Hex.decode_iff_spells.1 ⟨other, h.otherText, rfl⟩
    exact ⟨h.algorithm, hkey, other.length, h.otherSize, hother⟩

theorem Holds.seen_eq (h : t.Holds key other) :
    t.seen key other = { t.restated with name := (Name.ofText t.name).toText } := by
  have hother := (Hex.decode_iff_spells.1 ⟨other, h.otherText, rfl⟩).size
  have hsize : t.otherData.length / 2 = other.length := by omega
  rw [seen, restated, Hex.decode_eq_ok.1 h.keyText, Hex.decode_eq_ok.1 h.otherText, hsize]

/-- **a key record can be written just if it is `Writable`, and what is written is read back as the
restated record, from its resource record with the owner name in dotted form too** -/
theorem toRdata_restated (t : Tkey) :
    ((∃ rdata, t.toRdata = .ok rdata) ↔ t.Writable) ∧
    (∀ rdata, t.toRdata = .ok rdata → ofRdata t.name rdata = .ok t.restated) ∧
    ∀ record, t.toRecord = .ok record →
      ofRecord record = .ok { t.restated with name := (Name.ofText t.name).toText } := by
  refine ⟨?_, ?_, ?_⟩
  · rw [writable_iff]
    constructor
    · rintro ⟨rdata, hwrite⟩
      obtain ⟨key, other, h, -⟩ := toRdata_eq_ok.1 hwrite
      exact ⟨key, other, h⟩
    · rintro ⟨key, other, h⟩
      exact ⟨t.data key other, toRdata_eq_ok.2 ⟨key, other, h, rfl⟩⟩
  · intro rdata hwrite
    obtain ⟨key, other, h, rfl⟩ := toRdata_eq_ok.1 hwrite
    rw [ofRdata_data h, h.seen_eq]
    rfl
  · intro record hwrite
    obtain ⟨key, other, h, -, rfl⟩ := toRecord_eq_ok.1 hwrite
    rw [ofRecord_record h, h.seen_eq]

/-- a record in a spelling of its own: capital digits, names without their dots, a wrong size -/
def spelt : Tkey where
  name := "Key..Example"
  algorithm := ".gss-TSIG"
  mode := 3
  inception := 1000
  expiration := 2000
  keySize := 2
  key := "aBCd"
  error := 0
  otherSize := 77
  otherData := "0F"

def speltData : Bytes :=
  Name.encode ["gss-TSIG"] ++
    [0, 0, 3, 232, 0, 0, 7, 208, 0, 3, 0, 0, 0, 2, 0xAB, 0xCD, 0, 1, 0x0F]

theorem toRdata_restated_spelt :
    spelt.toRdata = .ok speltData ∧
    ofRdata "Key..Example" speltData =
      .ok ⟨"Key..Example", "gss-TSIG.", 3, 1000, 2000, 2, "abcd", 0, 1, "0f"⟩ ∧
    ofRecord ⟨["Key", "Example", ""], .tkey, .any, 0, 29, speltData⟩ =
      .ok ⟨"Key.Example.", "gss-TSIG.", 3, 1000, 2000, 2, "abcd", 0, 1, "0f"⟩ := by
  have hwrite : spelt.toRdata = .ok speltData := by decide +kernel
  have hrecord : spelt.toRecord =
      .ok ⟨["Key", "Example", ""], .tkey, .any, 0, 29, speltData⟩ := by decide +kernel
  have hrestated : spelt.restated =
      ⟨"Key..Example", "gss-TSIG.", 3, 1000, 2000, 2, "abcd", 0, 1, "0f"⟩ := by decide +kernel
  have hname : (Name.ofText spelt.name).toText = "Key.Example." := by decide +kernel
  obtain ⟨-, hrdata, hresource⟩ := toRdata_restated spelt
  have hread := hrdata _ hwrite
  have hreadRecord := hresource _ hrecord
  rw [hrestated] at hread hreadRecord
  rw [hname] at hreadRecord
  exact ⟨hwrite, hread, hreadRecord⟩

end TransactionKey.Tkey
