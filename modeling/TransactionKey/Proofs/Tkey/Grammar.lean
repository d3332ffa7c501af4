import TransactionKey.Proofs.Tkey

/-!
# The data of key records

`Content` is what the data of a key record can hold and `Content.bytes` how it holds that.  These are
the byte strings that are read as a key record (`ofRdata_iff`): every other one, one that is cut short
or one with a byte after the other data, is refused.  What was read is written again as it was if the
algorithm has a name that dotted text keeps and that is not too long.
-/

namespace TransactionKey.Tkey

/-- what the data of a key record holds: the labels of the algorithm name, and the other fields -/
structure Content where
  labels : List String
  inception : UInt32
  expiration : UInt32
  mode : UInt16
  error : UInt16
  key : Bytes
  other : Bytes
  isLabel : ∀ label ∈ labels, Name.IsLabel label
  keySize : key.length ≤ 65535
  otherSize : other.length ≤ 65535

namespace Content

def algorithm (c : Content) : Name := c.labels ++ [""]

/-- what follows the algorithm name: the key and the other data each after its size -/
def fields (c : Content) : Bytes :=
  bigEndian 4 c.inception.toNat ++ (bigEndian 4 c.expiration.toNat ++ (bigEndian 2 c.mode.toNat ++
    (bigEndian 2 c.error.toNat ++ (bigEndian 2 c.key.length ++ (c.key ++
      (bigEndian 2 c.other.length ++ c.other))))))

/-- the labels, each after its length, a zero byte, and the other fields -/
def bytes (c : Content) : Bytes := Name.spell c.labels ++ 0 :: c.fields

/-- the key record with these contents -/
def tkey (c : Content) (name : String) : Tkey where
  name := name
  algorithm := c.algorithm.toText
  mode := c.mode
  inception := c.inception
  expiration := c.expiration
  keySize := UInt16.ofNat c.key.length
  key := Hex.encode c.key
  error := c.error
  otherSize := UInt16.ofNat c.other.length
  otherData := Hex.encode c.other

theorem proper_algorithm (c : Content) : c.algorithm.proper = c.labels :=
  Name.proper_complete fun label hl => (c.isLabel label hl).1

theorem keySize_tkey (c : Content) (name : String) : c.key.length = (c.tkey name).keySize.toNat :=
  (UInt16.toNat_ofNat_of_lt (Nat.lt_succ_of_le c.keySize)).symm

theorem fields_eq (c : Content) (name : String) :
    c.fields = (c.tkey name).fields c.key c.other := by
  rw [Tkey.fields, ← c.keySize_tkey]
  rfl

theorem bytes_eq (c : Content) : c.bytes = c.algorithm.encode ++ c.fields := by
  rw [Name.encode_eq, proper_algorithm, List.append_assoc]
  rfl

end Content

variable {name : String} {t : Tkey}

/-! ## reading -/

theorem ofRdata_bytes (c : Content) (name : String) : ofRdata name c.bytes = .ok (c.tkey name) := by
  have hlabels : ∀ label ∈ c.algorithm.proper, Name.IsLabel label := by
    rw [c.proper_algorithm]
    exact c.isLabel
  rw [c.bytes_eq]
  unfold ofRdata
  rw [Name.decodePlain_accepts_labels hlabels]
  dsimp only
  rw [List.drop_left, c.fields_eq name, ofFields_fields (c.keySize_tkey name) c.otherSize,
    Name.toText_normal]
  rfl

/-- fields that are read are those of some contents -/
theorem ofFields_content {algorithm : Name} {rest : Bytes}
    (hlabels : ∀ label ∈ algorithm.proper, Name.IsLabel label)
    (h : ofFields name algorithm rest = .ok t) :
    ∃ c : Content, c.labels = algorithm.proper ∧ rest = c.fields ∧ t = c.tkey name := by
  unfold ofFields at h
  split at h
  case h_2 => cases h
  case h_1 i3 i2 i1 i0 e3 e2 e1 e0 m1 m0 r1 r0 k1 k0 body =>
  dsimp only at h
  split at h
  case h_2 => cases h
  case h_1 key o1 o0 body' hkey =>
  split at h
  case h_2 => cases h
  case h_3 => cases h
  case h_1 other hother =>
  obtain rfl := Except.ok.inj h
  obtain ⟨rfl, hk⟩ := Bytes.take?_eq_some hkey
  obtain ⟨rfl, ho⟩ := Bytes.take?_eq_some hother
  have hkeyLt : ofBigEndian [k1, k0] < 0x10000 := ofBigEndian_lt (w := 2) rfl
  have hotherLt : ofBigEndian [o1, o0] < 0x10000 := ofBigEndian_lt (w := 2) rfl
  let c : Content := {
    labels := algorithm.proper
    inception := UInt32.ofNat (ofBigEndian [i3, i2, i1, i0])
    expiration := UInt32.ofNat (ofBigEndian [e3, e2, e1, e0])
    mode := UInt16.ofNat (ofBigEndian [m1, m0])
    error := UInt16.ofNat (ofBigEndian [r1, r0])
    key, other
    isLabel := hlabels
    keySize := by omega
    otherSize := by omega }
  refine ⟨c, rfl, ?_, ?_⟩
  · have hkeySize : bigEndian 2 (ofBigEndian [k1, k0]) = [k1, k0] :=
      bigEndian_ofBigEndian [k1, k0]
    have hotherSize : bigEndian 2 (ofBigEndian [o1, o0]) = [o1, o0] :=
      bigEndian_ofBigEndian [o1, o0]
    simp only [Content.fields, c, hk, ho, hkeySize, hotherSize, bigEndian_uint16,
      bigEndian_uint32, List.cons_append, List.nil_append, List.append_nil]
  · have htext : algorithm.toText = c.algorithm.toText := (Name.toText_normal algorithm).symm
    simp only [Content.tkey, htext, c, hk, ho]

theorem ofRdata_content {rdata : Bytes} (h : ofRdata name rdata = .ok t) :
    ∃ c : Content, rdata = c.bytes ∧ t = c.tkey name := by
  unfold ofRdata at h
  split at h
  · cases h
  · rename_i algorithm n hname
    obtain ⟨hlabels, hencode⟩ := Name.decodePlain_eq_ok hname
    obtain ⟨c, halgorithm, hrest, rfl⟩ := ofFields_content hlabels h
    refine ⟨c, ?_, rfl⟩
    have hnormal : c.algorithm = algorithm.normal := by
      rw [Content.algorithm, halgorithm, Name.normal]
    rw [c.bytes_eq, hnormal, Name.encode_normal, hencode, ← hrest, List.take_append_drop]

/-! ## writing again -/

theorem Content.holds (c : Content) (name : String)
    (htext : Name.ofText c.algorithm.toText = c.algorithm) (hshort : c.algorithm.wireLength ≤ 255) :
    (c.tkey name).Holds c.key c.other where
  algorithm := by
    show Name.Encodable (Name.ofText c.algorithm.toText)
    rw [htext]
    refine ⟨?_, hshort⟩
    rw [c.proper_algorithm]
    exact fun label hl => (c.isLabel label hl).2
  keyText := Hex.decode_encode c.key
  keySize := c.keySize_tkey name
  otherText := Hex.decode_encode c.other
  otherSize := c.otherSize

theorem toRdata_tkey (c : Content) (name : String)
    (hdotFree : ∀ label ∈ c.labels, Name.DotFree label) (hshort : c.algorithm.wireLength ≤ 255) :
    (c.tkey name).toRdata = .ok c.bytes := by
  have htext : Name.ofText c.algorithm.toText = c.algorithm := by
    have hproper := c.proper_algorithm
    rw [Name.ofText_toText (hproper ▸ hdotFree), Name.normal, hproper]
    rfl
  refine toRdata_eq_ok.2 ⟨c.key, c.other, c.holds name htext hshort, ?_⟩
  have halgorithm : Name.ofText (c.tkey name).algorithm = c.algorithm := htext
  rw [c.bytes_eq, c.fields_eq name, data, halgorithm]

/-- **data is read as a key record just if it is the bytes of some contents, and as the record with
these; that is written as the same data if no label of the algorithm holds a dot and its name is not
too long** -/
theorem ofRdata_iff (name : String) (rdata : Bytes) :
    (∀ t, ofRdata name rdata = .ok t ↔ ∃ c : Content, rdata = c.bytes ∧ t = c.tkey name) ∧
    ∀ c : Content, rdata = c.bytes → (∀ label ∈ c.labels, Name.DotFree label) →
      c.algorithm.wireLength ≤ 255 → (c.tkey name).toRdata = .ok rdata := by
  refine ⟨fun t => ⟨ofRdata_content, ?_⟩, ?_⟩
  · intro h
    obtain ⟨c, rfl, rfl⟩ := h
    exact ofRdata_bytes c name
  · intro c hbytes hdotFree hshort
    rw [hbytes]
    exact toRdata_tkey c name hdotFree hshort

def gssContent : Content where
  labels := ["gss-tsig"]
  inception := 1000
  expiration := 2000
  mode := 3
  error := 0
  key := [0xAA, 0xBB]
  other := [0x01]
  isLabel := by
    intro label hl
    rw [List.mem_singleton.1 hl]
    exact ⟨by decide, by decide⟩
  keySize := by decide
  otherSize := by decide

def gssData : Bytes :=
  Name.encode ["gss-tsig"] ++
    [0, 0, 3, 232, 0, 0, 7, 208, 0, 3, 0, 0, 0, 2, 170, 187, 0, 1, 1]

theorem ofRdata_iff_gssData :
    gssData = gssContent.bytes ∧ ofRdata "k." gssData = .ok (gssContent.tkey "k.") ∧
      (∀ label ∈ gssContent.labels, Name.DotFree label) ∧
      gssContent.algorithm.wireLength ≤ 255 ∧ (gssContent.tkey "k.").toRdata = .ok gssData := by
  have hbytes : gssData = gssContent.bytes := by decide +kernel
  have hdotFree : ∀ label ∈ gssContent.labels, Name.DotFree label := by decide
  have hshort : gssContent.algorithm.wireLength ≤ 255 := by decide
  obtain ⟨hread, hwritten⟩ := ofRdata_iff "k." gssData
  exact ⟨hbytes, (hread _).2 ⟨gssContent, hbytes, rfl⟩, hdotFree, hshort,
    hwritten gssContent hbytes hdotFree hshort⟩

end TransactionKey.Tkey
