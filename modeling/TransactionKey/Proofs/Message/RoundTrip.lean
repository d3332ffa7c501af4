import TransactionKey.Proofs.Message

/-!
# Reading back a message

`decode_toWire` says that a well-formed message can be written and that what is written is read as
the same message, with the counts of its sections in the header.  A message is well-formed if it is
`Encodable`, its names are complete and its records state the length of their data.
-/

namespace TransactionKey

def Name.Complete (name : Name) : Prop :=
  ∃ labels, (∀ label ∈ labels, label ≠ "") ∧ name = labels ++ [""]

theorem Name.Complete.normal_eq {name : Name} (h : name.Complete) : name.normal = name := by
  obtain ⟨labels, hall, rfl⟩ := h
  rw [normal, proper_complete hall]

namespace Message

/-- a message that reads the same once it is written, but for the counts in its header -/
structure WellFormed (m : Message) : Prop extends m.Encodable where
  questionNames : ∀ q ∈ m.questions, q.name.Complete
  recordNames : ∀ r ∈ m.records, r.name.Complete
  lengths : ∀ r ∈ m.records, r.rdlength.toNat = r.rdata.length

theorem normal_question {q : Question} (h : q.name.Complete) : q.normal = q := by
  rw [Question.normal, h.normal_eq]

theorem normal_record {r : ResourceRecord} (h : r.name.Complete)
    (hlen : r.rdlength.toNat = r.rdata.length) : r.normal = r := by
  rw [ResourceRecord.normal, h.normal_eq, ← hlen, UInt16.ofNat_toNat]

theorem WellFormed.normal_eq {m : Message} (h : m.WellFormed) :
    m.normal = { m with header := m.counted } := by
  have hrecord : ∀ r ∈ m.answers ++ m.authorities ++ m.additionals, r.normal = r :=
    fun r hr => normal_record (h.recordNames r hr) (h.lengths r hr)
  simp only [List.forall_mem_append] at hrecord
  obtain ⟨⟨ha, hn⟩, hr⟩ := hrecord
  have hquestion : ∀ q ∈ m.questions, q.normal = q :=
    fun q hq => normal_question (h.questionNames q hq)
  rw [normal, List.map_congr_left hquestion, List.map_congr_left ha, List.map_congr_left hn,
    List.map_congr_left hr]
  simp only [List.map_id']

/-- **a well-formed message can be written, and is read back with nothing lost, repeated or moved** -/
theorem decode_toWire {m : Message} (h : m.WellFormed) :
    ∃ bytes, m.toWire = .ok bytes ∧ decode bytes = .ok { m with header := m.counted } :=
  ⟨m.encode, toWire_eq_ok.2 ⟨h.toEncodable.writable, rfl⟩,
    h.normal_eq ▸ decode_encode h.toEncodable⟩

/-! ## an example -/

/-- a reply with wrong counts in its header, data that embeds one name and two names, and an owner
name with a dot and a letter beyond ASCII in its labels -/
def mailReply : Message where
  header := { id := 0x1234, qr := true, opcode := 4, ra := true, z := 5, rcode := 3, qdcount := 9 }
  questions := [⟨["example", ""], .mx, .internet⟩]
  answers := [⟨["example", ""], .mx, .internet, 300, 8, [0, 10, 4, 109, 97, 105, 108, 0]⟩]
  authorities := [⟨[""], .soa, .other 7, 0, 8, [1, 110, 0, 1, 112, 0, 255, 192]⟩]
  additionals := [⟨["a.b", "é", ""], .other 65280, .any, 1, 2, [192, 12]⟩]

theorem mailReply_wellFormed : mailReply.WellFormed where
  header := by decide
  sections := ⟨by decide, by decide, by decide, by decide⟩
  questions := by
    intro q hq
    rw [List.mem_singleton.1 hq]
    exact ⟨by decide, by decide, by decide⟩
  records := by
    intro r hr
    simp only [records, mailReply, List.cons_append, List.nil_append, List.mem_cons,
      List.not_mem_nil, or_false] at hr
    rcases hr with rfl | rfl | rfl
    · refine ⟨by decide, by decide, by decide, by decide, fun layout hl => ?_⟩
      obtain rfl := Option.some.inj hl
      exact ⟨[0, 10], [["mail", ""]], [], by decide, rfl, rfl, by decide⟩
    · refine ⟨by decide, by decide, by decide, by decide, fun layout hl => ?_⟩
      obtain rfl := Option.some.inj hl
      exact ⟨[], [["n", ""], ["p", ""]], [255, 192], by decide, rfl, rfl, by decide⟩
    · refine ⟨by decide, by decide, by decide, by decide, fun layout hl => ?_⟩
      cases hl
  questionNames := by
    intro q hq
    rw [List.mem_singleton.1 hq]
    exact ⟨["example"], by decide, rfl⟩
  recordNames := by
    intro r hr
    simp only [records, mailReply, List.cons_append, List.nil_append, List.mem_cons,
      List.not_mem_nil, or_false] at hr
    rcases hr with rfl | rfl | rfl
    · exact ⟨["example"], by decide, rfl⟩
    · exact ⟨[], by decide, rfl⟩
    · exact ⟨["a.b", "é"], by decide, rfl⟩
  lengths := by decide

theorem decode_toWire_mailReply :
    mailReply.WellFormed ∧ ∃ bytes, mailReply.toWire = .ok bytes ∧
      decode bytes = .ok { mailReply with header := mailReply.counted } :=
  ⟨mailReply_wellFormed, decode_toWire mailReply_wellFormed⟩

end Message

end TransactionKey
