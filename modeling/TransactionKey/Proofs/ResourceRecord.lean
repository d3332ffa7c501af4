import TransactionKey.Question
import TransactionKey.ResourceRecord
import TransactionKey.Proofs.Except
import TransactionKey.Proofs.Name.Dotted

/-!
# Questions and records on the wire

A question or record that is `Encodable` is written by `encode`, and what is written is read back as
its `normal` form (`decode_accepts`): with a normal name, and with the length of its data as the
length field.  Data that embeds names must hold them in full (`PlainNames`), or reading would rewrite
them; `decode_append` says what is read of a record with any data, `decodeFields_eq_ok` that nothing
else is read, and `Settled` data is read as it stands.  How many bytes are taken up depends on these
bytes only (`decode_coextensive`).
-/

namespace TransactionKey

/-- a type as it is read from its code -/
def RecordType.Canonical (type : RecordType) : Prop := ofCode type.code = type

instance (type : RecordType) : Decidable type.Canonical := inferInstanceAs (Decidable (_ = _))

def RecordClass.Canonical (rclass : RecordClass) : Prop := ofCode rclass.code = rclass

instance (rclass : RecordClass) : Decidable rclass.Canonical :=
  inferInstanceAs (Decidable (_ = _))

namespace Question

structure Encodable (q : Question) : Prop where
  name : q.name.Encodable
  type : q.type.Canonical
  rclass : q.rclass.Canonical

def encode (q : Question) : Bytes :=
  q.name.encode ++ (bigEndian 2 q.type.code.toNat ++ bigEndian 2 q.rclass.code.toNat)

def normal (q : Question) : Question := { q with name := q.name.normal }

theorem toWire_eq_ok {q : Question} {bytes : Bytes} :
    q.toWire = .ok bytes ↔ q.name.Encodable ∧ bytes = q.encode := by
  simp only [toWire, bind_eq_ok, Name.toWire_eq_ok, pure_eq_ok, List.append_assoc]
  constructor
  · rintro ⟨_, ⟨he, rfl⟩, rfl⟩
    exact ⟨he, rfl⟩
  · rintro ⟨he, rfl⟩
    exact ⟨_, ⟨he, rfl⟩, rfl⟩

/-- the question as it is read -/
def seen (q : Question) : Question :=
  ⟨q.name.normal, .ofCode q.type.code, .ofCode q.rclass.code⟩

theorem decodeFixed_accepts (name : Name) (q : Question) :
    (decodeFixed name).Accepts (bigEndian 2 q.type.code.toNat ++ bigEndian 2 q.rclass.code.toNat)
      { q.seen with name } := by
  intro m rest
  show Except.ok (Question.mk name
    (.ofCode (UInt16.ofNat (ofBigEndian (bigEndian 2 q.type.code.toNat))))
    (.ofCode (UInt16.ofNat (ofBigEndian (bigEndian 2 q.rclass.code.toNat)))), 4) = _
  rw [ofBigEndian_uint16, ofBigEndian_uint16, List.length_append, bigEndian_length,
    bigEndian_length]
  rfl

theorem decode_accepts_seen {q : Question} (h : q.name.Encodable) :
    Decoder.Accepts decode q.encode q.seen :=
  (Name.decode_accepts h).bind (decodeFixed_accepts q.name.normal q)

theorem Encodable.seen_eq {q : Question} (h : q.Encodable) : q.seen = q.normal := by
  rw [seen, h.type, h.rclass]
  rfl

theorem decode_accepts {q : Question} (h : q.Encodable) :
    Decoder.Accepts decode q.encode q.normal := h.seen_eq ▸ decode_accepts_seen h.name

theorem decodeFixed_extent {name : Name} {m r : Bytes} {q : Question} {n : Nat}
    (h : decodeFixed name m r = .ok (q, n)) : n = 4 ∧ 4 ≤ r.length := by
  unfold decodeFixed at h
  split at h
  · obtain ⟨-, rfl⟩ := Prod.mk.inj (Except.ok.inj h)
    refine ⟨rfl, ?_⟩
    simp only [List.length_cons]
    omega
  · cases h

theorem decode_advances : Decoder.Advances decode :=
  Name.decode_advances.bind fun _ _ _ _ _ h => by
    obtain ⟨rfl, hle⟩ := decodeFixed_extent h
    exact hle

theorem decode_bounded : Decoder.Bounded decode := decode_advances.bounded

theorem decode_coextensive : Decoder.Coextensive decode decode :=
  Name.decode_coextensive.bind fun _ _ _ _ _ _ _ _ _ _ h h' _ => by
    rw [(decodeFixed_extent h).1, (decodeFixed_extent h').1]

end Question

namespace ResourceRecord

/-! ## writing -/

/-- data whose embedded names, if its type has any, stand in full: the fixed bytes, the names without
compression and without dots in their labels, and any other bytes -/
def PlainNames (type : RecordType) (rdata : Bytes) : Prop :=
  ∀ layout, type.layout? = some layout →
    ∃ (fixed : Bytes) (names : List Name) (tail : Bytes),
      rdata = fixed ++ (names.flatMap Name.encode ++ tail) ∧
      fixed.length = layout.fixed ∧ names.length = layout.names ∧
      ∀ name ∈ names, name.Encodable ∧ ∀ label ∈ name.proper, Name.DotFree label

theorem plainNames_bare {type : RecordType} (h : type.layout? = none) (rdata : Bytes) :
    PlainNames type rdata := by
  intro layout hlayout
  rw [h] at hlayout
  cases hlayout

/-- the same without a limit for whole names -/
def FullNames (type : RecordType) (rdata : Bytes) : Prop :=
  ∀ layout, type.layout? = some layout →
    ∃ (fixed : Bytes) (names : List Name) (tail : Bytes),
      rdata = fixed ++ (names.flatMap Name.encode ++ tail) ∧
      fixed.length = layout.fixed ∧ names.length = layout.names ∧
      ∀ name ∈ names, ∀ label ∈ name.proper, Name.IsLabel label ∧ Name.DotFree label

theorem PlainNames.full {type : RecordType} {rdata : Bytes} (h : PlainNames type rdata) :
    FullNames type rdata := by
  intro layout hlayout
  obtain ⟨fixed, names, tail, hdata, hfixed, hnames, hall⟩ := h layout hlayout
  exact ⟨fixed, names, tail, hdata, hfixed, hnames, fun name hn label hl =>
    ⟨(hall name hn).1.isLabel label hl, (hall name hn).2 label hl⟩⟩

/-- data that stays as it stands when its names are written out, if they are, whatever the message
and whatever follows -/
def Settled (type : RecordType) (rdata : Bytes) : Prop :=
  ∀ ⦃m rest data⦄, expand m type rdata.length (rdata ++ rest) = some data → data = rdata

/-- can be written, and read as the same type, class and data -/
structure Encodable (r : ResourceRecord) : Prop where
  name : r.name.Encodable
  type : r.type.Canonical
  rclass : r.rclass.Canonical
  size : r.rdata.length ≤ maxData
  plain : PlainNames r.type r.rdata

/-- what follows the owner name on the wire -/
def fields (r : ResourceRecord) : Bytes :=
  bigEndian 2 r.type.code.toNat ++ (bigEndian 2 r.rclass.code.toNat ++
    (bigEndian 4 r.ttl.toNat ++ (bigEndian 2 r.rdata.length ++ r.rdata)))

def encode (r : ResourceRecord) : Bytes := r.name.encode ++ r.fields

def normal (r : ResourceRecord) : ResourceRecord :=
  { r with name := r.name.normal, rdlength := UInt16.ofNat r.rdata.length }

theorem toWire_eq_ok {r : ResourceRecord} {bytes : Bytes} :
    r.toWire = .ok bytes ↔ r.name.Encodable ∧ bytes = r.encode := by
  simp only [toWire, bind_eq_ok, Name.toWire_eq_ok, pure_eq_ok, List.append_assoc]
  constructor
  · rintro ⟨_, ⟨he, rfl⟩, rfl⟩
    exact ⟨he, rfl⟩
  · rintro ⟨he, rfl⟩
    exact ⟨_, ⟨he, rfl⟩, rfl⟩

theorem ofText_eq_ok {owner : String} {type : RecordType} {rclass : RecordClass} {ttl : UInt32}
    {rdata : Bytes} {r : ResourceRecord} :
    ofText owner type rclass ttl rdata = .ok r ↔ rdata.length ≤ maxData ∧
      r = ⟨Name.ofText owner, type, rclass, ttl, UInt16.ofNat rdata.length, rdata⟩ := by
  unfold ofText
  dsimp only
  split
  · rename_i hlong
    exact iff_of_false nofun fun h => Nat.not_lt.2 h.1 hlong
  · rename_i hsize
    rw [and_iff_right (Nat.not_lt.1 hsize)]
    exact ⟨fun h => (Except.ok.inj h).symm, fun h => congrArg _ h.symm⟩

/-! ## reading back -/

/-- one name is written out, and then the others in the room that is left -/
theorem expandNames_succ_eq_some {m : Bytes} {count room : Nat} {rest data : Bytes} :
    expandNames m (count + 1) room rest = some data ↔
      ∃ name n others, Name.decode m rest = .ok (name, n) ∧ n ≤ room ∧ name.respelt.Encodable ∧
        expandNames m count (room - n) (rest.drop n) = some others ∧
        data = name.respelt.encode ++ others := by
  constructor
  · intro h
    unfold expandNames at h
    split at h
    · cases h
    · rename_i name n hname
      split at h
      · cases h
      · rename_i hroom
        split at h
        · cases h
        · rename_i wire hwire
          obtain ⟨others, hothers, rfl⟩ := Option.map_eq_some_iff.1 h
          obtain ⟨hencodable, rfl⟩ := Name.toWire_eq_ok.1 hwire
          exact ⟨name, n, others, hname, Nat.not_lt.1 hroom, hencodable, hothers, rfl⟩
  · intro h
    obtain ⟨name, n, others, hname, hroom, hencodable, hothers, rfl⟩ := h
    have hwire : (Name.ofText name.toText).toWire = .ok name.respelt.encode :=
      Name.toWire_eq_ok.2 ⟨hencodable, rfl⟩
    unfold expandNames
    simp only [hname, hwire, hothers, if_neg (Nat.not_lt.2 hroom), Option.map_some]

theorem expand_bare {type : RecordType} (h : type.layout? = none) (m : Bytes) (size : Nat)
    (rest : Bytes) : expand m type size rest = some (rest.take size) := by
  unfold expand
  rw [h]

section
variable {type : RecordType} {layout : NameLayout} {size : Nat}
  (hlayout : type.layout? = some layout)
include hlayout

theorem expand_short (h : size < layout.fixed) (m rest : Bytes) :
    expand m type size rest = none := by
  unfold expand
  rw [hlayout]
  exact if_pos h

theorem expand_layout (h : layout.fixed ≤ size) (m rest : Bytes) :
    expand m type size rest =
      (expandNames m layout.names (size - layout.fixed) (rest.drop layout.fixed)).map
        (rest.take layout.fixed ++ ·) := by
  unfold expand
  rw [hlayout]
  exact if_neg (Nat.not_lt.2 h)

end

theorem expandNames_full (m : Bytes) {names : List Name}
    (h : ∀ name ∈ names, ∀ label ∈ name.proper, Name.IsLabel label ∧ Name.DotFree label)
    {tail rest data : Bytes}
    (hdata : expandNames m names.length (names.flatMap Name.encode ++ tail).length
      (names.flatMap Name.encode ++ tail ++ rest) = some data) :
    data = names.flatMap Name.encode ++ tail := by
  induction names generalizing data with
  | nil => simpa [expandNames, eq_comm] using hdata
  | cons name names ih =>
    obtain ⟨hname, hnames⟩ := List.forall_mem_cons.1 h
    rw [List.flatMap_cons, List.append_assoc, List.append_assoc, List.length_cons] at hdata
    obtain ⟨first, n, others, hread, -, -, hothers, rfl⟩ := expandNames_succ_eq_some.1 hdata
    rw [Name.decode_accepts_labels (fun label hl => (hname label hl).1)] at hread
    obtain ⟨rfl, rfl⟩ := Prod.mk.inj (Except.ok.inj hread)
    have hrespelt : name.normal.respelt = name.normal := by
      rw [Name.respelt, Name.toText_normal, Name.ofText_toText fun label hl => (hname label hl).2]
    rw [List.drop_left, List.length_append, Nat.add_sub_cancel_left] at hothers
    rw [ih hnames hothers, hrespelt, Name.encode_normal, List.flatMap_cons, List.append_assoc]

theorem FullNames.settled {type : RecordType} {rdata : Bytes} (h : FullNames type rdata) :
    Settled type rdata := by
  intro m rest data hdata
  cases hlayout : type.layout? with
  | none =>
    rw [expand_bare hlayout, List.take_left] at hdata
    exact (Option.some.inj hdata).symm
  | some layout =>
    obtain ⟨fixed, names, tail, rfl, hfixed, hnames, hall⟩ := h layout hlayout
    have hroom : layout.fixed ≤ (fixed ++ (names.flatMap Name.encode ++ tail)).length := by
      rw [List.length_append]
      omega
    rw [expand_layout hlayout hroom, ← hfixed, ← hnames, List.append_assoc, List.drop_left,
      List.take_left, List.length_append, Nat.add_sub_cancel_left] at hdata
    obtain ⟨data', hnames', rfl⟩ := Option.map_eq_some_iff.1 hdata
    rw [expandNames_full m hall hnames']

theorem fields_length (r : ResourceRecord) : r.fields.length = 10 + r.rdata.length := by
  simp only [fields, List.length_append, bigEndian_length]
  omega

/-- the data as it is read, where it stands in a message and before a rest -/
def reading (r : ResourceRecord) (m rest : Bytes) : Bytes :=
  (expand m (.ofCode r.type.code) r.rdata.length (r.rdata ++ rest)).getD r.rdata

/-- the record as it is read, if its data is read as `data` -/
def seen (r : ResourceRecord) (data : Bytes) : ResourceRecord :=
  ⟨r.name.normal, .ofCode r.type.code, .ofCode r.rclass.code, r.ttl, UInt16.ofNat data.length, data⟩

section
variable {r : ResourceRecord}

theorem decodeFields_append (name : Name) (hsize : r.rdata.length ≤ maxData) (m rest : Bytes) :
    decodeFields name m (r.fields ++ rest) =
      if maxData < (r.reading m rest).length then
        .error (.badRdata (.tooLong (r.reading m rest).length))
      else .ok ({ r.seen (r.reading m rest) with name }, r.fields.length) := by
  have htype := ofBigEndian_uint16 r.type.code
  have hclass := ofBigEndian_uint16 r.rclass.code
  have httl := ofBigEndian_uint32 r.ttl
  have hlen : ofBigEndian (bigEndian 2 r.rdata.length) = r.rdata.length :=
    ofBigEndian_bigEndian_of_lt (Nat.lt_succ_of_le hsize)
  rw [fields_length, fields]
  simp only [bigEndian_two] at htype hclass hlen
  rw [bigEndian_four] at httl
  rw [bigEndian_two, bigEndian_two, bigEndian_two, bigEndian_four]
  simp only [List.cons_append, List.nil_append, decodeFields, htype, hclass, httl, hlen,
    Bytes.take?_append]
  rfl

/-- what the fields of a record are read from begins with the fields of one, which is read as it is -/
theorem decodeFields_eq_ok {name : Name} {m bytes : Bytes} {r : ResourceRecord} {n : Nat} :
    decodeFields name m bytes = .ok (r, n) ↔
      ∃ (w : ResourceRecord) (rest : Bytes), bytes = w.fields ++ rest ∧
        w.rdata.length ≤ maxData ∧ (w.reading m rest).length ≤ maxData ∧
        r = { w.seen (w.reading m rest) with name } ∧ n = w.fields.length := by
  constructor
  · intro h
    unfold decodeFields at h
    split at h
    case h_2 => cases h
    case h_1 t1 t0 c1 c0 l3 l2 l1 l0 n1 n0 body =>
    dsimp only at h
    split at h
    · cases h
    · rename_i raw rest htake
      obtain ⟨rfl, hraw⟩ := Bytes.take?_eq_some htake
      split at h
      · cases h
      · rename_i hsize
        obtain ⟨rfl, rfl⟩ := Prod.mk.inj (Except.ok.inj h)
        let w : ResourceRecord := {
          type := .ofCode (UInt16.ofNat (ofBigEndian [t1, t0]))
          rclass := .ofCode (UInt16.ofNat (ofBigEndian [c1, c0]))
          ttl := UInt32.ofNat (ofBigEndian [l3, l2, l1, l0])
          rdata := raw }
        have hspell : bigEndian 2 raw.length = [n1, n0] := by
          rw [hraw]
          exact bigEndian_ofBigEndian [n1, n0]
        have hroom : raw.length < 0x10000 := hraw ▸ ofBigEndian_lt (w := 2) rfl
        have hreading : w.reading m rest =
            (expand m w.type (ofBigEndian [n1, n0]) (raw ++ rest)).getD raw := by
          rw [reading, RecordType.code_ofCode, ← hraw]
        refine ⟨w, rest, ?_, Nat.le_of_lt_succ hroom, ?_, ?_, ?_⟩
        · simp only [fields, w, RecordType.code_ofCode, RecordClass.code_ofCode,
            bigEndian_uint16, bigEndian_uint32, hspell, List.cons_append, List.nil_append]
        · rw [hreading]
          exact Nat.not_lt.1 hsize
        · rw [hreading, seen, RecordType.code_ofCode, RecordClass.code_ofCode]
        · rw [fields_length, ← hraw]
  · intro h
    obtain ⟨w, rest, rfl, hsize, hroom, rfl, rfl⟩ := h
    rw [decodeFields_append name hsize, if_neg (Nat.not_lt.2 hroom)]

theorem decode_append (hname : r.name.Encodable) (hsize : r.rdata.length ≤ maxData)
    (m rest : Bytes) :
    decode m (r.encode ++ rest) =
      if maxData < (r.reading m rest).length then
        .error (.badRdata (.tooLong (r.reading m rest).length))
      else .ok (r.seen (r.reading m rest), r.encode.length) := by
  have hread := Name.decode_accepts hname m (r.fields ++ rest)
  rw [encode, List.append_assoc, decode, Decoder.bind, hread]
  dsimp only
  rw [List.drop_left, decodeFields_append _ hsize, List.length_append]
  by_cases hlong : maxData < (r.reading m rest).length
  · rw [if_pos hlong, if_pos hlong]
  · rw [if_neg hlong, if_neg hlong]
    rfl

theorem Settled.reading_eq (h : Settled r.type r.rdata) (htype : r.type.Canonical)
    (m rest : Bytes) : r.reading m rest = r.rdata := by
  unfold reading
  rw [htype]
  cases hdata : expand m r.type r.rdata.length (r.rdata ++ rest) with
  | none => rfl
  | some data => exact h hdata

theorem seen_rdata (htype : r.type.Canonical) (hclass : r.rclass.Canonical) :
    r.seen r.rdata = r.normal := by
  rw [seen, htype, hclass]
  rfl

theorem decode_accepts (h : r.Encodable) : Decoder.Accepts decode r.encode r.normal := by
  intro m rest
  rw [decode_append h.name h.size, h.plain.full.settled.reading_eq h.type,
    if_neg (Nat.not_lt.2 h.size), seen_rdata h.type h.rclass]

/-- the data may be read so that it is too long to be held -/
def Outgrown (r : ResourceRecord) (e : WireError) : Prop :=
  ∃ m rest, maxData < (r.reading m rest).length ∧
    e = .badRdata (.tooLong (r.reading m rest).length)

theorem decode_reads (hname : r.name.Encodable) (hsize : r.rdata.length ≤ maxData) :
    Decoder.Reads decode r.encode (fun r' => ∃ m rest, r' = r.seen (r.reading m rest))
      r.Outgrown := by
  intro m rest
  rw [decode_append hname hsize]
  by_cases hlong : maxData < (r.reading m rest).length
  · rw [if_pos hlong]
    exact .inr ⟨_, rfl, m, rest, hlong, rfl⟩
  · rw [if_neg hlong]
    exact .inl ⟨_, rfl, m, rest, rfl⟩

end

/-! ## extents -/

/-- the fields take up ten bytes and the data, whose length the last two of the ten spell -/
theorem decodeFields_extent {name : Name} {m bytes : Bytes} {r : ResourceRecord} {n : Nat}
    (h : decodeFields name m bytes = .ok (r, n)) :
    n = 10 + ofBigEndian ((bytes.take 10).drop 8) ∧ n ≤ bytes.length := by
  obtain ⟨w, rest, rfl, hsize, -, -, rfl⟩ := decodeFields_eq_ok.1 h
  have hfield : ((w.fields ++ rest).take 10).drop 8 = bigEndian 2 w.rdata.length := rfl
  rw [hfield, ofBigEndian_bigEndian_of_lt (Nat.lt_succ_of_le hsize), List.length_append,
    fields_length]
  exact ⟨rfl, Nat.le_add_right _ _⟩

theorem decodeFields_coextensive (name name' : Name) :
    Decoder.Coextensive (decodeFields name) (decodeFields name') := by
  intro m m' bytes bytes' r r' n n' h h' same
  obtain ⟨hn, -⟩ := decodeFields_extent h
  obtain ⟨hn', -⟩ := decodeFields_extent h'
  have front : bytes'.take 10 = bytes.take 10 := by
    have := congrArg (List.take 10) same
    rwa [List.take_take, List.take_take, Nat.min_eq_left (by omega)] at this
  rw [hn', front, ← hn]

theorem decode_advances : Decoder.Advances decode :=
  Name.decode_advances.bind fun _ _ _ _ _ h => (decodeFields_extent h).2

theorem decode_bounded : Decoder.Bounded decode := decode_advances.bounded

theorem decode_coextensive : Decoder.Coextensive decode decode :=
  Name.decode_coextensive.bind decodeFields_coextensive

end ResourceRecord

end TransactionKey
