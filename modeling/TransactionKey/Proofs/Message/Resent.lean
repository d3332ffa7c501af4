import TransactionKey.Proofs.Message.Places

/-!
# Sending on a message that was read

A name that is read has labels that can be written, but the whole name has no limit until it is written:
pointers may lead to more labels than a name can hold.

* `Name.check_eq_error`   such a name is refused for its length only;
* `Fills.names`           the names of questions and owners are read in the message;
* `decode_resent`         a message that was read can be written just if none of them is too long.
-/

namespace TransactionKey

namespace Name

theorem check_eq_error {name : Name} {e : WireError}
    (h : ∀ label ∈ name.proper, label.utf8ByteSize ≤ 63) :
    name.check = .error e ↔ 255 < name.wireLength ∧ e = .nameTooLong := by
  have hfind : (name.proper.find? fun label => 63 < label.utf8ByteSize) = none := by
    rw [List.find?_eq_none]
    intro label hl
    simpa using h label hl
  unfold check
  rw [hfind]
  dsimp only
  by_cases hlong : 255 < name.wireLength
  · rw [if_pos hlong, Except.error.injEq, eq_comm, and_iff_right hlong]
  · rw [if_neg hlong]
    exact iff_of_false nofun fun h => hlong h.1

theorem toWire_eq_error {name : Name} {e : WireError} :
    name.toWire = .error e ↔ name.check = .error e := by
  rw [toWire, bind_pure_eq_error]

/-- an item that begins with a name is read where the name is -/
theorem readAt_of_bind {α : Type} {f : Name → Decoder α} {nameOf : α → Name}
    (hf : ∀ name, (f name).Returns fun item => nameOf item = name) {message : Bytes}
    {place past : Nat} {item : α} (h : (decode.bind f).readAt message place = .ok (item, past)) :
    ∃ next, decode.readAt message place = .ok (nameOf item, next) := by
  obtain ⟨name, next, hname, hitem⟩ := Decoder.readAt_bind.1 h
  obtain ⟨n, hitem, -⟩ := Decoder.readAt_eq_ok.1 hitem
  obtain rfl := hf name hitem
  exact ⟨next, hname⟩

end Name

namespace Question

theorem toWire_eq_error {q : Question} {e : WireError} :
    q.toWire = .error e ↔ q.name.check = .error e := by
  rw [toWire, bind_pure_eq_error, Name.toWire_eq_error]

theorem decodeFixed_name (name : Name) : (decodeFixed name).Returns (·.name = name) := by
  intro m bytes q n h
  unfold decodeFixed at h
  split at h
  · obtain ⟨rfl, -⟩ := Prod.mk.inj (Except.ok.inj h)
    rfl
  · cases h

end Question

namespace ResourceRecord

theorem toWire_eq_error {r : ResourceRecord} {e : WireError} :
    r.toWire = .error e ↔ r.name.check = .error e := by
  rw [toWire, bind_pure_eq_error, Name.toWire_eq_error]

theorem decodeFields_name (name : Name) : (decodeFields name).Returns (·.name = name) := by
  intro m bytes r n h
  obtain ⟨w, rest, -, -, -, rfl, -⟩ := decodeFields_eq_ok.1 h
  rfl

end ResourceRecord

namespace Message

/-- the names of the questions and the owners of the records -/
def names (m : Message) : List Name :=
  m.questions.map Question.name ++ m.records.map ResourceRecord.name

section
variable {bytes : Bytes} {m : Message}

theorem forall_names {P : Name → Prop} :
    (∀ name ∈ m.names, P name) ↔ (∀ q ∈ m.questions, P q.name) ∧ ∀ r ∈ m.records, P r.name := by
  unfold names
  rw [List.forall_mem_append, List.forall_mem_map, List.forall_mem_map]

/-! ## what is read -/

theorem Fills.names (h : m.Fills bytes) :
    ∀ name ∈ m.names, ∃ place past, Name.decode.readAt bytes place = .ok (name, past) := by
  obtain ⟨past, hquestions, hrecords⟩ := h.places
  refine forall_names.2 ⟨?_, ?_⟩
  · intro q hq
    obtain ⟨start, stop, hread⟩ := hquestions.mem hq
    exact ⟨start, Name.readAt_of_bind Question.decodeFixed_name hread⟩
  · intro r hr
    obtain ⟨start, stop, hread⟩ := hrecords.mem hr
    exact ⟨start, Name.readAt_of_bind ResourceRecord.decodeFields_name hread⟩

theorem Fills.fits (h : m.Fills bytes) : m.header.Fits := by
  have hread := h.header
  rw [Decoder.readAt_zero] at hread
  exact Header.decode_fits hread

theorem Fills.countable (h : m.Fills bytes) : m.Countable where
  questions := h.questions ▸ Nat.le_of_lt_succ m.header.qdcount.toNat_lt
  answers := h.answers ▸ Nat.le_of_lt_succ m.header.ancount.toNat_lt
  authorities := h.authorities ▸ Nat.le_of_lt_succ m.header.nscount.toNat_lt
  additionals := h.additionals ▸ Nat.le_of_lt_succ m.header.arcount.toNat_lt

/-! ## writing it again -/

/-- only a name can keep a message from being written if its header and its sections do not -/
theorem toWire_eq_error {e : WireError} (hheader : m.header.Fits) (hsections : m.Countable)
    (h : m.toWire = .error e) : ∃ name ∈ m.names, name.check = .error e := by
  have hcounted : m.countedHeader = .ok m.counted := countedHeader_eq_ok.2 ⟨hsections, rfl⟩
  have hwire : m.counted.toWire = .ok m.counted.encode := Header.toWire_eq_ok.2 ⟨hheader, rfl⟩
  -- one case for each step: the counts, the header, the questions, the records
  rcases bind_eq_error.1 h with h | ⟨header, hok, h⟩
  · rw [hcounted] at h
    cases h
  obtain rfl := Except.ok.inj (hcounted.symm.trans hok)
  rcases bind_eq_error.1 h with h | ⟨front, -, h⟩
  · rw [hwire] at h
    cases h
  rcases bind_eq_error.1 h with hquestions | ⟨questions, -, h⟩
  · obtain ⟨q, hq, he⟩ := exists_of_mapM_error hquestions
    exact ⟨q.name, List.mem_append_left _ (List.mem_map_of_mem hq), Question.toWire_eq_error.1 he⟩
  · obtain ⟨r, hr, he⟩ := exists_of_mapM_error (bind_pure_eq_error.1 h)
    exact ⟨r.name, List.mem_append_right _ (List.mem_map_of_mem hr),
      ResourceRecord.toWire_eq_error.1 he⟩

/-- **a name that is read can be written just if it does not exceed 255 bytes, for its labels can; and
a message that is read can be written just if none of its names exceeds them** -/
theorem decode_resent (bytes : Bytes) :
    (∀ place name past, Name.decode.readAt bytes place = .ok (name, past) →
      (name.wireLength ≤ 255 → name.check = .ok ()) ∧
      (255 < name.wireLength → name.check = .error .nameTooLong)) ∧
    ∀ m, decode bytes = .ok m →
      ((∀ name ∈ m.names, name.wireLength ≤ 255) → m.toWire = .ok m.encode) ∧
      ((∃ name ∈ m.names, 255 < name.wireLength) → m.toWire = .error .nameTooLong) := by
  have hlabels {place past : Nat} {name : Name}
      (hread : Name.decode.readAt bytes place = .ok (name, past)) :
      ∀ label ∈ name.proper, label.utf8ByteSize ≤ 63 :=
    fun label hl => (Name.labels_of_readAt hread label hl).2
  refine ⟨?_, ?_⟩
  · intro place name past hread
    refine ⟨?_, ?_⟩
    · intro hshort
      exact Name.check_eq_ok.2 ⟨hlabels hread, hshort⟩
    · intro hlong
      exact (Name.check_eq_error (hlabels hread)).2 ⟨hlong, rfl⟩
  · intro m hdecode
    have hfills : m.Fills bytes := decode_eq_ok.1 hdecode
    refine ⟨?_, ?_⟩
    · intro hshort
      have hencodable : ∀ name ∈ m.names, name.Encodable := by
        intro name hname
        obtain ⟨place, past, hread⟩ := hfills.names name hname
        exact ⟨hlabels hread, hshort name hname⟩
      obtain ⟨hquestions, hrecords⟩ := forall_names.1 hencodable
      exact toWire_eq_ok.2 ⟨⟨hfills.fits, hfills.countable, hquestions, hrecords⟩, rfl⟩
    · intro hlong
      obtain ⟨name, hname, hlong⟩ := hlong
      cases hwire : m.toWire with
      | error e =>
        obtain ⟨culprit, hculprit, he⟩ := toWire_eq_error hfills.fits hfills.countable hwire
        obtain ⟨place, past, hread⟩ := hfills.names culprit hculprit
        rw [((Name.check_eq_error (hlabels hread)).1 he).2]
      | ok out =>
        obtain ⟨hwritable, -⟩ := toWire_eq_ok.1 hwire
        have hencodable := forall_names.2 ⟨hwritable.questions, hwritable.records⟩ name hname
        exact absurd hencodable.2 (Nat.not_le.2 hlong)

end

/-! ## examples -/

/-- the owner of the last record but one is read through two pointers, and all names can be written -/
theorem decode_resent_mailboxReply :
    Name.decode.readAt mailboxReply 46 = .ok (["mail", "example", ""], 48) ∧
      Name.check ["mail", "example", ""] = .ok () ∧
      decode mailboxReply = .ok mailbox ∧ mailbox.toWire = .ok mailbox.encode := by
  have hread : Name.decode.readAt mailboxReply 46 = .ok (["mail", "example", ""], 48) := by
    decide +kernel
  have hdecode : decode mailboxReply = .ok mailbox := by decide +kernel
  obtain ⟨hnames, hmessages⟩ := decode_resent mailboxReply
  exact ⟨hread, (hnames _ _ _ hread).1 (by decide), hdecode,
    (hmessages _ hdecode).1 (by decide +kernel)⟩

def longLabel : String := String.ofList (List.replicate 63 'a')

/-- an answer to a question whose name has three long labels; its owner is a fourth one and a pointer
to them -/
def longOwner : Bytes :=
  [0, 7, 128, 0, 0, 1, 0, 1, 0, 0, 0, 0] ++ Name.encode [longLabel, longLabel, longLabel] ++
    [0, 1, 0, 1] ++ 63 :: Text.utf8 longLabel ++ [192, 12, 0, 1, 0, 1, 0, 0, 1, 44, 0, 4, 192, 0, 2, 1]

def longAnswer : Message where
  header := { id := 7, qr := true, qdcount := 1, ancount := 1 }
  questions := [⟨[longLabel, longLabel, longLabel, ""], .a, .internet⟩]
  answers := [⟨[longLabel, longLabel, longLabel, longLabel, ""], .a, .internet, 300, 4,
    [192, 0, 2, 1]⟩]

/-- the owner is read, and cannot be written again -/
theorem decode_longOwner :
    Name.decode.readAt longOwner 209 =
        .ok ([longLabel, longLabel, longLabel, longLabel, ""], 275) ∧
      Name.check [longLabel, longLabel, longLabel, longLabel, ""] = .error .nameTooLong ∧
      decode longOwner = .ok longAnswer ∧ longAnswer.toWire = .error .nameTooLong := by
  refine ⟨?_, ?_, ?_, ?_⟩ <;> decide +kernel

end Message

end TransactionKey
