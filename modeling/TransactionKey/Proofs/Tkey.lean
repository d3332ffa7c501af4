import TransactionKey.Tkey
import TransactionKey.Proofs.Hex
import TransactionKey.Proofs.ResourceRecord

/-!
# Key records on the wire

A key record that `Holds` a key and other data is written as `data`, and `seen` is what is read of
it: its names spelt in full, its texts in lower-case digits, the sizes those of the data.

* `toRdata_eq_ok`, `toRecord_eq_ok`   which key records can be written, and as what;
* `ofRecord_record`                   what is written is read back;
* `record_plain`                      the algorithm in the data stands in full.
-/

namespace TransactionKey.Tkey

/-- the record can be written with this key and other data -/
structure Holds (t : Tkey) (key other : Bytes) : Prop where
  algorithm : (Name.ofText t.algorithm).Encodable
  keyText : Hex.decode t.key = .ok key
  keySize : key.length = t.keySize.toNat
  otherText : Hex.decode t.otherData = .ok other
  otherSize : other.length ≤ 65535

/-- what follows the algorithm in the data of the record -/
def fields (t : Tkey) (key other : Bytes) : Bytes :=
  bigEndian 4 t.inception.toNat ++ (bigEndian 4 t.expiration.toNat ++ (bigEndian 2 t.mode.toNat ++
    (bigEndian 2 t.error.toNat ++ (bigEndian 2 t.keySize.toNat ++ (key ++
      (bigEndian 2 other.length ++ other))))))

def data (t : Tkey) (key other : Bytes) : Bytes :=
  (Name.ofText t.algorithm).encode ++ t.fields key other

/-- the record as it is read -/
def seen (t : Tkey) (key other : Bytes) : Tkey :=
  { t with
    name := (Name.ofText t.name).toText
    algorithm := (Name.ofText t.algorithm).toText
    key := Hex.encode key
    otherSize := UInt16.ofNat other.length
    otherData := Hex.encode other }

/-- the resource record with the data of the key record -/
def record (t : Tkey) (key other : Bytes) : ResourceRecord :=
  ⟨Name.ofText t.name, .tkey, .any, 0, UInt16.ofNat (t.data key other).length, t.data key other⟩

theorem data_length (t : Tkey) (key other : Bytes) : (t.data key other).length =
    (Name.ofText t.algorithm).wireLength + 16 + key.length + other.length := by
  simp only [data, fields, List.length_append, Name.encode_length, bigEndian_length]
  omega

/-! ## writing -/

section
variable {t : Tkey} {key other : Bytes}

theorem keyBytes_eq_ok : t.keyBytes = .ok key ↔ Hex.decode t.key = .ok key := by
  unfold keyBytes
  cases Hex.decode t.key <;> simp

theorem otherBytes_eq_ok : t.otherBytes = .ok other ↔ Hex.decode t.otherData = .ok other := by
  unfold otherBytes
  cases Hex.decode t.otherData <;> simp

theorem toRdata_eq_ok {bytes : Bytes} :
    t.toRdata = .ok bytes ↔ ∃ key other, t.Holds key other ∧ bytes = t.data key other := by
  simp only [toRdata, bind_eq_ok, guard_eq_ok, keyBytes_eq_ok, otherBytes_eq_ok,
    Name.toWire_eq_ok, pure_eq_ok, List.append_assoc]
  constructor
  · rintro ⟨key, hkey, hsize, other, hother, hroom, _, ⟨hname, rfl⟩, rfl⟩
    exact ⟨key, other, ⟨hname, hkey, Decidable.not_not.1 hsize, hother, Nat.not_lt.1 hroom⟩, rfl⟩
  · rintro ⟨key, other, h, rfl⟩
    exact ⟨key, h.keyText, Decidable.not_not.2 h.keySize, other, h.otherText,
      Nat.not_lt.2 h.otherSize, _, ⟨h.algorithm, rfl⟩, rfl⟩

theorem toRecord_eq_ok {r : ResourceRecord} :
    t.toRecord = .ok r ↔ ∃ key other, t.Holds key other ∧
      (t.data key other).length ≤ ResourceRecord.maxData ∧ r = t.record key other := by
  simp only [toRecord, bind_eq_ok, toRdata_eq_ok, ResourceRecord.ofText_eq_ok]
  constructor
  · rintro ⟨_, ⟨key, other, h, rfl⟩, hsize, rfl⟩
    exact ⟨key, other, h, hsize, rfl⟩
  · rintro ⟨key, other, h, hsize, rfl⟩
    exact ⟨_, ⟨key, other, h, rfl⟩, hsize, rfl⟩

theorem record_plain (t : Tkey) (key other : Bytes) (h : (Name.ofText t.algorithm).Encodable) :
    ResourceRecord.PlainNames .tkey (t.data key other) := by
  intro layout hlayout
  obtain rfl := Option.some.inj hlayout
  refine ⟨[], [Name.ofText t.algorithm], t.fields key other, ?_, rfl, rfl, ?_⟩
  · rw [List.flatMap_singleton, List.nil_append]
    rfl
  · intro name hn
    rw [List.mem_singleton.1 hn]
    exact ⟨h, Name.ofText_dotFree t.algorithm⟩

/-! ## reading back -/

theorem ofFields_fields (hsize : key.length = t.keySize.toNat) (hroom : other.length ≤ 65535)
    (name : String) (algorithm : Name) :
    ofFields name algorithm (t.fields key other) =
      .ok { t.seen key other with name, algorithm := algorithm.toText } := by
  have hinception := ofBigEndian_uint32 t.inception
  have hexpiration := ofBigEndian_uint32 t.expiration
  have hmode := ofBigEndian_uint16 t.mode
  have herror := ofBigEndian_uint16 t.error
  have hkey : ofBigEndian (bigEndian 2 t.keySize.toNat) = key.length :=
    (ofBigEndian_bigEndian_of_lt t.keySize.toNat_lt).trans hsize.symm
  have hother : ofBigEndian (bigEndian 2 other.length) = other.length :=
    ofBigEndian_bigEndian_of_lt (Nat.lt_succ_of_le hroom)
  have hall : Bytes.take? other.length other = some (other, []) := by
    have := Bytes.take?_append other []
    rwa [List.append_nil] at this
  have hkeySize : UInt16.ofNat key.length = t.keySize := by rw [hsize, UInt16.ofNat_toNat]
  simp only [bigEndian_two, bigEndian_four] at hinception hexpiration hmode herror hkey hother
  simp only [fields, bigEndian_two, bigEndian_four, List.cons_append, List.nil_append, ofFields,
    hinception, hexpiration, hmode, herror, hkey, Bytes.take?_append, hother, hall, hkeySize]
  rfl

theorem ofRdata_data (h : t.Holds key other) (name : String) :
    ofRdata name (t.data key other) = .ok { t.seen key other with name } := by
  have hread := Name.decodePlain_accepts h.algorithm (t.data key other) (t.fields key other)
  unfold ofRdata
  rw [data] at hread ⊢
  rw [hread]
  dsimp only
  rw [List.drop_left, ofFields_fields h.keySize h.otherSize, Name.toText_normal]
  rfl

theorem ofRecord_record (h : t.Holds key other) :
    ofRecord (t.record key other) = .ok (t.seen key other) :=
  (if_pos rfl).trans (ofRdata_data h _)

end

/-! ## records for key material -/

/-- the record that `make` gives -/
def holding (name algorithm : String) (mode : UInt16) (inception expiration : UInt32)
    (material : Bytes) : Tkey where
  name := name
  algorithm := algorithm
  mode := mode
  inception := inception
  expiration := expiration
  keySize := UInt16.ofNat material.length
  key := Hex.encode material
  error := 0
  otherSize := 0
  otherData := ""

theorem make_eq_ok {name algorithm : String} {mode : UInt16} {inception expiration : UInt32}
    {material : Bytes} {t : Tkey} :
    make name algorithm mode inception expiration material = .ok t ↔
      material.length ≤ 65535 ∧
        t = holding name algorithm mode inception expiration material := by
  unfold make
  dsimp only
  split
  · refine iff_of_false nofun fun h => ?_
    omega
  · rename_i hsize
    rw [and_iff_right (Nat.not_lt.1 hsize)]
    exact ⟨fun h => (Except.ok.inj h).symm, fun h => congrArg _ h.symm⟩

/-- such a record holds the material and nothing else -/
theorem holds_holding {name algorithm : String} {mode : UInt16} {inception expiration : UInt32}
    {material key other : Bytes} (hsize : material.length ≤ 65535) :
    (holding name algorithm mode inception expiration material).Holds key other ↔
      (Name.ofText algorithm).Encodable ∧ key = material ∧ other = [] := by
  constructor
  · intro h
    have hkey := h.keyText
    have hother := h.otherText
    rw [show (holding ..).key = Hex.encode material from rfl, Hex.decode_encode] at hkey
    rw [show (holding ..).otherData = Hex.encode [] from rfl, Hex.decode_encode] at hother
    exact ⟨h.algorithm, (Except.ok.inj hkey).symm, (Except.ok.inj hother).symm⟩
  · rintro ⟨hname, rfl, rfl⟩
    refine ⟨hname, Hex.decode_encode _, ?_, Hex.decode_encode [], Nat.zero_le _⟩
    exact (UInt16.toNat_ofNat_of_lt (Nat.lt_succ_of_le hsize)).symm

end TransactionKey.Tkey
