import TransactionKey.Message
import TransactionKey.Proofs.Except
import TransactionKey.Proofs.Header
import TransactionKey.Proofs.ResourceRecord

/-!
# Messages on the wire

* `toWire_eq_ok`             a message can be written just if it is `Writable`;
* `encode_reads`             what is read of a message that can be written, section by section;
* `decode_encode`            what an `Encodable` message writes is read back as its normal form;
* `lastAdditionalOffset_push`   a record that was added last begins after everything else.
-/

namespace TransactionKey.Message

def counted (m : Message) : Header :=
  { m.header with
    qdcount := UInt16.ofNat m.questions.length
    ancount := UInt16.ofNat m.answers.length
    nscount := UInt16.ofNat m.authorities.length
    arcount := UInt16.ofNat m.additionals.length }

def records (m : Message) : List ResourceRecord := m.answers ++ m.authorities ++ m.additionals

/-- no section has more entries than its count can say -/
structure Countable (m : Message) : Prop where
  questions : m.questions.length ≤ 65535
  answers : m.answers.length ≤ 65535
  authorities : m.authorities.length ≤ 65535
  additionals : m.additionals.length ≤ 65535

/-- can be written -/
structure Writable (m : Message) : Prop where
  header : m.header.Fits
  sections : m.Countable
  questions : ∀ q ∈ m.questions, q.name.Encodable
  records : ∀ r ∈ m.records, r.name.Encodable

/-- can be written, and read as the same message up to the forms of names -/
structure Encodable (m : Message) : Prop where
  header : m.header.Fits
  sections : m.Countable
  questions : ∀ q ∈ m.questions, q.Encodable
  records : ∀ r ∈ m.records, r.Encodable

def body (m : Message) : Bytes :=
  m.questions.flatMap Question.encode ++ m.records.flatMap ResourceRecord.encode

def encode (m : Message) : Bytes := m.counted.encode ++ m.body

/-- the message with one more additional record -/
def push (m : Message) (r : ResourceRecord) : Message :=
  { m with additionals := m.additionals ++ [r] }

def normal (m : Message) : Message where
  header := m.counted
  questions := m.questions.map Question.normal
  answers := m.answers.map ResourceRecord.normal
  authorities := m.authorities.map ResourceRecord.normal
  additionals := m.additionals.map ResourceRecord.normal

theorem Encodable.writable {m : Message} (h : m.Encodable) : m.Writable where
  header := h.header
  sections := h.sections
  questions := fun q hq => (h.questions q hq).name
  records := fun r hr => (h.records r hr).name

/-! ## writing -/

theorem sectionCount_eq_ok {n : Nat} {count : UInt16} :
    sectionCount n = .ok count ↔ n ≤ 65535 ∧ count = UInt16.ofNat n := by
  unfold sectionCount
  split
  · refine iff_of_false (by simp) fun h => ?_
    omega
  · rename_i h
    simp [Nat.not_lt.1 h, eq_comm]

theorem countedHeader_eq_ok {m : Message} {header : Header} :
    m.countedHeader = .ok header ↔ m.Countable ∧ header = m.counted := by
  simp only [countedHeader, bind_eq_ok, sectionCount_eq_ok, pure_eq_ok]
  constructor
  · rintro ⟨_, ⟨hq, rfl⟩, _, ⟨ha, rfl⟩, _, ⟨hn, rfl⟩, _, ⟨hr, rfl⟩, rfl⟩
    exact ⟨⟨hq, ha, hn, hr⟩, rfl⟩
  · rintro ⟨⟨hq, ha, hn, hr⟩, rfl⟩
    exact ⟨_, ⟨hq, rfl⟩, _, ⟨ha, rfl⟩, _, ⟨hn, rfl⟩, _, ⟨hr, rfl⟩, rfl⟩

theorem toWire_eq_ok {m : Message} {bytes : Bytes} :
    m.toWire = .ok bytes ↔ m.Writable ∧ bytes = m.encode := by
  have hquestions := mapM_eq_ok (f := Question.toWire) (fun _ _ => Question.toWire_eq_ok)
    m.questions
  have hrecords := mapM_eq_ok (f := ResourceRecord.toWire)
    (fun _ _ => ResourceRecord.toWire_eq_ok) m.records
  simp only [toWire, bind_eq_ok, countedHeader_eq_ok, Header.toWire_eq_ok, pure_eq_ok]
  constructor
  · rintro ⟨_, ⟨hs, rfl⟩, _, ⟨hf, rfl⟩, _, hqs, _, hrs, rfl⟩
    obtain ⟨hq, rfl⟩ := (hquestions _).1 hqs
    obtain ⟨hr, rfl⟩ := (hrecords _).1 hrs
    refine ⟨⟨hf, hs, hq, hr⟩, ?_⟩
    rw [encode, body, List.append_assoc, List.flatMap_def, List.flatMap_def]
  · rintro ⟨⟨hf, hs, hq, hr⟩, rfl⟩
    refine ⟨_, ⟨hs, rfl⟩, _, ⟨hf, rfl⟩, _, (hquestions _).2 ⟨hq, rfl⟩, _,
      (hrecords _).2 ⟨hr, rfl⟩, ?_⟩
    rw [encode, body, List.append_assoc, List.flatMap_def, List.flatMap_def]

/-! ## one more record -/

theorem records_push (m : Message) (r : ResourceRecord) : (m.push r).records = m.records ++ [r] :=
  (List.append_assoc ..).symm

theorem body_push (m : Message) (r : ResourceRecord) : (m.push r).body = m.body ++ r.encode := by
  rw [body, records_push, List.flatMap_append, List.flatMap_singleton, ← List.append_assoc]
  rfl

theorem encode_push (m : Message) (r : ResourceRecord) :
    (m.push r).encode = (m.push r).counted.encode ++ m.body ++ r.encode := by
  rw [encode, body_push, List.append_assoc]

theorem encode_length_push (m : Message) (r : ResourceRecord) :
    m.encode.length = ((m.push r).counted.encode ++ m.body).length := by
  rw [encode, List.length_append, List.length_append, Header.encode_length, Header.encode_length]

theorem take_encode_push (m : Message) (r : ResourceRecord) (trailing : Bytes) :
    ((m.push r).encode ++ trailing).take m.encode.length = (m.push r).counted.encode ++ m.body := by
  rw [encode_push, encode_length_push m r, List.append_assoc _ r.encode, List.take_left]

theorem drop_encode_push (m : Message) (r : ResourceRecord) (trailing : Bytes) :
    ((m.push r).encode ++ trailing).drop m.encode.length = r.encode ++ trailing := by
  rw [encode_push, encode_length_push m r, List.append_assoc _ r.encode, List.drop_left]

theorem length_additionals_push (m : Message) (r : ResourceRecord) :
    (m.push r).additionals.length = m.additionals.length + 1 := List.length_append

/-- what stands before a record that was added last does not depend on it -/
theorem take_encode_push_congr (m : Message) (r r' : ResourceRecord) (trailing trailing' : Bytes) :
    ((m.push r).encode ++ trailing).take m.encode.length =
      ((m.push r').encode ++ trailing').take m.encode.length := by
  have hcounted : (m.push r).counted = (m.push r').counted := by
    unfold counted
    rw [length_additionals_push, length_additionals_push]
    rfl
  rw [take_encode_push, take_encode_push, hcounted]

theorem Countable.of_push {m : Message} {r : ResourceRecord} (h : (m.push r).Countable) :
    m.Countable ∧ m.additionals.length < 65535 := by
  have hadded := h.additionals
  rw [length_additionals_push] at hadded
  exact ⟨⟨h.questions, h.answers, h.authorities, by omega⟩, hadded⟩

theorem Countable.push {m : Message} (h : m.Countable) (r : ResourceRecord)
    (room : m.additionals.length < 65535) : (m.push r).Countable := by
  refine ⟨h.questions, h.answers, h.authorities, ?_⟩
  rw [length_additionals_push]
  exact room

theorem forall_records_push {m : Message} {P : ResourceRecord → Prop} (h : ∀ x ∈ m.records, P x)
    {r : ResourceRecord} (hr : P r) : ∀ x ∈ (m.push r).records, P x := by
  rw [records_push]
  intro x hx
  rcases List.mem_append.1 hx with hx | hx
  · exact h x hx
  · rw [List.mem_singleton.1 hx]
    exact hr

theorem Writable.push {m : Message} (h : m.Writable) {r : ResourceRecord}
    (hr : r.name.Encodable) (room : m.additionals.length < 65535) : (m.push r).Writable :=
  ⟨h.header, h.sections.push r room, h.questions, forall_records_push h.records hr⟩

theorem Encodable.push {m : Message} (h : m.Encodable) {r : ResourceRecord} (hr : r.Encodable)
    (room : m.additionals.length < 65535) : (m.push r).Encodable :=
  ⟨h.header, h.sections.push r room, h.questions, forall_records_push h.records hr⟩

/-! ## reading back -/

theorem count_toNat {n : Nat} (h : n ≤ 65535) : (UInt16.ofNat n).toNat = n :=
  UInt16.toNat_ofNat_of_lt (Nat.lt_succ_of_le h)

theorem questions_accepts {qs : List Question} (h : ∀ q ∈ qs, q.Encodable) :
    (Decoder.many Question.decode qs.length).Accepts (qs.flatMap Question.encode)
      (qs.map Question.normal) :=
  Decoder.Accepts.many _ _ _ fun q hq => Question.decode_accepts (h q hq)

theorem records_accepts {rs : List ResourceRecord} (h : ∀ r ∈ rs, r.Encodable) :
    (Decoder.many ResourceRecord.decode rs.length).Accepts (rs.flatMap ResourceRecord.encode)
      (rs.map ResourceRecord.normal) :=
  Decoder.Accepts.many _ _ _ fun r hr => ResourceRecord.decode_accepts (h r hr)

theorem counted_fits {m : Message} (h : m.header.Fits) : m.counted.Fits := h

/-- a message as it is read, with records that are related to those that were written -/
structure SeenAs (R : ResourceRecord → ResourceRecord → Prop) (m m' : Message) : Prop where
  header : m'.header = m.counted
  questions : m'.questions = m.questions.map Question.seen
  answers : List.Forall₂ R m.answers m'.answers
  authorities : List.Forall₂ R m.authorities m'.authorities
  additionals : List.Forall₂ R m.additionals m'.additionals

section
variable {m : Message} {R : ResourceRecord → ResourceRecord → Prop} {E : WireError → Prop}

theorem decodeSections_reads (h : m.Writable)
    (hr : ∀ r ∈ m.records, ResourceRecord.decode.Reads r.encode (R r) E) :
    (decodeSections m.counted).Reads m.body (m.SeenAs R) E := by
  have hrec : ∀ r ∈ m.answers ++ m.authorities ++ m.additionals,
      ResourceRecord.decode.Reads r.encode (R r) E := hr
  simp only [List.forall_mem_append] at hrec
  obtain ⟨⟨ha, hn⟩, hx⟩ := hrec
  have hquestions : (Decoder.many Question.decode m.questions.length).Accepts
      (m.questions.flatMap Question.encode) (m.questions.map Question.seen) :=
    Decoder.Accepts.many _ _ _ fun q hq => Question.decode_accepts_seen (h.questions q hq)
  have hbody : m.body = m.questions.flatMap Question.encode ++
      (m.answers.flatMap ResourceRecord.encode ++ (m.authorities.flatMap ResourceRecord.encode ++
        (m.additionals.flatMap ResourceRecord.encode ++ []))) := by
    simp [body, records]
  rw [hbody]
  unfold decodeSections counted
  dsimp only
  rw [count_toNat h.sections.questions, count_toNat h.sections.answers,
    count_toNat h.sections.authorities, count_toNat h.sections.additionals]
  refine (hquestions.reads rfl).bind fun qs hqs => ?_
  refine (Decoder.Reads.many _ _ ha).bind fun answers hanswers => ?_
  refine (Decoder.Reads.many _ _ hn).bind fun authorities hauthorities => ?_
  refine (Decoder.Reads.many _ _ hx).bind fun additionals hadditionals => ?_
  exact (Decoder.Accepts.pure _).reads ⟨rfl, hqs.symm, hanswers, hauthorities, hadditionals⟩

theorem encode_reads (h : m.Writable)
    (hr : ∀ r ∈ m.records, ResourceRecord.decode.Reads r.encode (R r) E) :
    (Header.decode.bind decodeSections).Reads m.encode (m.SeenAs R) E :=
  ((Header.decode_accepts (counted_fits h.header)).reads rfl).bind fun header hheader => by
    rw [← hheader]
    exact decodeSections_reads h hr

theorem decode_of_reads {bytes : Bytes} {P : Message → Prop}
    (h : (Header.decode.bind decodeSections).Reads bytes P E) :
    (∃ m, decode bytes = .ok m ∧ P m) ∨ ∃ e, decode bytes = .error e ∧ E e := by
  have hread := h bytes []
  rw [List.append_nil] at hread
  rcases hread with ⟨m, hm, hP⟩ | ⟨e, he, hE⟩
  · exact .inl ⟨m, by simp only [decode, hm, List.drop_length], hP⟩
  · exact .inr ⟨e, by simp only [decode, he], hE⟩

theorem decode_append_of_reads {bytes tail : Bytes} {P : Message → Prop}
    (h : (Header.decode.bind decodeSections).Reads bytes P E) (htail : tail ≠ []) :
    decode (bytes ++ tail) = .error (.trailing tail.length) ∨
      ∃ e, decode (bytes ++ tail) = .error e ∧ E e := by
  rcases h (bytes ++ tail) tail with ⟨m, hm, -⟩ | ⟨e, he, hE⟩
  · obtain ⟨b, rest, rfl⟩ := List.exists_cons_of_ne_nil htail
    exact .inl (by simp only [decode, hm, List.drop_left])
  · exact .inr ⟨e, by simp only [decode, he], hE⟩

/-- records that are read as functions of what was written leave no choice for the message -/
theorem SeenAs.eq_map {m' : Message} {f : ResourceRecord → ResourceRecord}
    (h : m.SeenAs (f · = ·) m') :
    m' = ⟨m.counted, m.questions.map Question.seen, m.answers.map f, m.authorities.map f,
      m.additionals.map f⟩ := by
  have hsame (rs rs' : List ResourceRecord) (hrs : List.Forall₂ (f · = ·) rs rs') :
      rs.map f = rs' := by
    rwa [← List.forall₂_map_left_iff, List.forall₂_eq_eq_eq] at hrs
  rw [hsame _ _ h.answers, hsame _ _ h.authorities, hsame _ _ h.additionals, ← h.header,
    ← h.questions]

end

theorem decode_encode {m : Message} (h : m.Encodable) : decode m.encode = .ok m.normal := by
  have hreads := encode_reads (E := fun _ => False) h.writable fun r hr =>
    (ResourceRecord.decode_accepts (h.records r hr)).reads (P := (r.normal = ·)) rfl
  rcases decode_of_reads hreads with ⟨m', hm', hseen⟩ | ⟨e, -, hfalse⟩
  · have hquestions : m.questions.map Question.seen = m.questions.map Question.normal :=
      List.map_congr_left fun q hmem => (h.questions q hmem).seen_eq
    rw [hm', hseen.eq_map, hquestions, normal]
  · exact hfalse.elim

/-! ## the last additional record -/

/-- reads what stands between the header and the last additional record -/
def walk (h : Header) : Decoder (List ResourceRecord) :=
  (Decoder.many Question.decode h.qdcount.toNat).bind fun _ =>
    Decoder.many ResourceRecord.decode (precedingRecords h)

theorem lastAdditionalOffset_eq_ok {bytes : Bytes} {offset : Nat} :
    lastAdditionalOffset bytes = .ok (some offset) ↔
      ∃ h n rs k, Header.decode bytes bytes = .ok (h, n) ∧ h.arcount ≠ 0 ∧
        walk h bytes (bytes.drop n) = .ok (rs, k) ∧ offset = n + k := by
  unfold lastAdditionalOffset
  cases hd : Header.decode bytes bytes with
  | error e => simp
  | ok item =>
    obtain ⟨h, n⟩ := item
    dsimp only
    constructor
    · intro heq
      split at heq
      · cases heq
      · rename_i hne
        split at heq
        · cases heq
        · rename_i rs k hw
          exact ⟨h, n, rs, k, rfl, hne, hw, (Option.some.inj (Except.ok.inj heq)).symm⟩
    · rintro ⟨h', n', rs, k, hh, hne, hw, rfl⟩
      obtain ⟨rfl, rfl⟩ := Prod.mk.inj (Except.ok.inj hh)
      unfold walk at hw
      rw [if_neg hne, hw]

theorem walk_bounded (h : Header) : (walk h).Bounded :=
  (Question.decode_bounded.many _).bind fun _ => ResourceRecord.decode_bounded.many _

theorem walk_coextensive (h : Header) : Decoder.Coextensive (walk h) (walk h) :=
  (Question.decode_coextensive.many _).bind fun _ _ => ResourceRecord.decode_coextensive.many _

/-- the walk stops before a record that was added last -/
theorem walk_accepts {m : Message} {r : ResourceRecord} (h : (m.push r).Encodable) :
    (walk (m.push r).counted).Accepts m.body (m.records.map ResourceRecord.normal) := by
  have hadded := length_additionals_push m r
  have hpreceding : precedingRecords (m.push r).counted = m.records.length := by
    unfold precedingRecords counted
    dsimp only
    rw [count_toNat h.sections.answers, count_toNat h.sections.authorities,
      count_toNat h.sections.additionals, hadded]
    simp only [records, push, List.length_append]
    omega
  have hrecords : ∀ x ∈ m.records, x.Encodable := fun x hx =>
    h.records x (records_push m r ▸ List.mem_append_left _ hx)
  have hquestions : (m.push r).counted.qdcount.toNat = m.questions.length :=
    count_toNat h.sections.questions
  unfold walk
  rw [hpreceding, hquestions]
  exact (questions_accepts h.questions).bind (records_accepts hrecords)

/-- a record that was added last is found, whatever follows the message -/
theorem lastAdditionalOffset_push {m : Message} {r : ResourceRecord} (h : (m.push r).Encodable)
    (trailing : Bytes) :
    lastAdditionalOffset ((m.push r).encode ++ trailing) = .ok (some m.encode.length) := by
  have hadded := length_additionals_push m r
  refine lastAdditionalOffset_eq_ok.2
    ⟨(m.push r).counted, Header.size, m.records.map ResourceRecord.normal, m.body.length,
      ?_, ?_, ?_, by rw [encode, List.length_append, Header.encode_length]⟩
  · rw [encode, List.append_assoc, Header.decode_accepts (counted_fits h.header),
      Header.encode_length]
  · intro hzero
    have := count_toNat h.sections.additionals
    rw [show UInt16.ofNat _ = (0 : UInt16) from hzero] at this
    simp only [UInt16.toNat_zero] at this
    omega
  · rw [encode, List.append_assoc, ← Header.encode_length (m.push r).counted, List.drop_left,
      body_push, List.append_assoc]
    exact walk_accepts h _ _

end TransactionKey.Message
