import TransactionKey.Proofs.Decoder.Placed
import TransactionKey.Proofs.Message

/-!
# Where the parts of a message stand

A message that is read `Fills` its bytes: the header, the questions and the records stand one after
the other, as many as the header counts, and nothing is left.  That is all that reading checks
(`decode_eq_ok`).

`lastAdditionalOffset` walks over the same bytes in one run of the records and does not look at the
last one; `lastAdditionalOffset_decode` says that the two agree on where that record stands and on why
a message is refused before it.
-/

namespace TransactionKey.Message

/-- the header, the questions and the records stand one after the other, as many as the header
counts, and take up all bytes -/
structure Fills (m : Message) (bytes : Bytes) : Prop where
  header : Header.decode.readAt bytes 0 = .ok (m.header, Header.size)
  questions : m.questions.length = m.header.qdcount.toNat
  answers : m.answers.length = m.header.ancount.toNat
  authorities : m.authorities.length = m.header.nscount.toNat
  additionals : m.additionals.length = m.header.arcount.toNat
  places : ∃ past, Question.decode.Placed bytes Header.size m.questions past ∧
    ResourceRecord.decode.Placed bytes past m.records bytes.length

section
variable {bytes : Bytes} {m : Message} {h : Header} {offset past : Nat} {fault : WireError}

/-! ## reading as places -/

theorem decodeSections_readAt :
    (decodeSections h).readAt bytes offset = .ok (m, past) ↔
      m.header = h ∧ m.questions.length = h.qdcount.toNat ∧
        m.answers.length = h.ancount.toNat ∧ m.authorities.length = h.nscount.toNat ∧
        m.additionals.length = h.arcount.toNat ∧
        ∃ next, Question.decode.Placed bytes offset m.questions next ∧
          ResourceRecord.decode.Placed bytes next m.records past := by
  have hlast (questions : List Question) (answers authorities additionals : List ResourceRecord) :
      (fun _ _ => .ok (⟨h, questions, answers, authorities, additionals⟩, 0) : Decoder Message) =
        Decoder.pure ⟨h, questions, answers, authorities, additionals⟩ := rfl
  simp only [decodeSections, hlast, Decoder.readAt_bind, Decoder.many_readAt, Decoder.readAt_pure]
  constructor
  · intro hread
    obtain ⟨questions, p, ⟨hqd, hq⟩, answers, q, ⟨han, ha⟩, authorities, r, ⟨hns, hn⟩,
      additionals, s, ⟨har, hx⟩, rfl, rfl⟩ := hread
    exact ⟨rfl, hqd, han, hns, har, p, hq, (ha.append hn).append hx⟩
  · intro hplaces
    obtain ⟨rfl, hqd, han, hns, har, p, hq, hrecords⟩ := hplaces
    obtain ⟨r, hfront, hx⟩ := hrecords.split
    obtain ⟨q, ha, hn⟩ := hfront.split
    exact ⟨_, p, ⟨hqd, hq⟩, _, q, ⟨han, ha⟩, _, r, ⟨hns, hn⟩, _, past, ⟨har, hx⟩, rfl, rfl⟩

theorem decodeSections_bounded (h : Header) : (decodeSections h).Bounded :=
  (Question.decode_bounded.many _).bind fun _ => (ResourceRecord.decode_bounded.many _).bind fun _ =>
    (ResourceRecord.decode_bounded.many _).bind fun _ =>
      (ResourceRecord.decode_bounded.many _).bind fun _ => Decoder.Bounded.pure _

theorem header_readAt {n : Nat} (hread : Header.decode.readAt bytes 0 = .ok (h, n)) :
    n = Header.size := by
  rw [Decoder.readAt_zero] at hread
  exact (Header.decode_eq_ok hread).1

/-- what is left after the sections is told by where they end -/
theorem decode_eq :
    decode bytes = (Header.decode.bind decodeSections).readAt bytes 0 >>= fun item =>
      if item.2 ≠ bytes.length then .error (.trailing (bytes.length - item.2))
      else .ok item.1 := by
  rw [Decoder.readAt_zero]
  unfold decode
  cases hread : Header.decode.bind decodeSections bytes bytes with
  | error e => rfl
  | ok item =>
    obtain ⟨m, taken⟩ := item
    have hle : taken ≤ bytes.length :=
      Header.decode_advances.bounded.bind decodeSections_bounded hread
    show _ = if taken ≠ bytes.length then Except.error (WireError.trailing (bytes.length - taken))
      else .ok m
    dsimp only
    rcases Bytes.drop_cases hle with ⟨hall, hnone⟩ | ⟨hsome, b, rest, hrest, hlength⟩
    · rw [hnone, if_neg (not_not.2 hall)]
    · rw [hrest, if_pos hsome, ← hlength]

theorem decode_readAt :
    decode bytes = .ok m ↔ ∃ h, Header.decode.readAt bytes 0 = .ok (h, Header.size) ∧
      (decodeSections h).readAt bytes Header.size = .ok (m, bytes.length) := by
  rw [decode_eq, TransactionKey.bind_eq_ok]
  constructor
  · intro hread
    obtain ⟨⟨m', past⟩, hread, hlast⟩ := hread
    obtain ⟨h, n, hheader, hsections⟩ := Decoder.readAt_bind.1 hread
    obtain rfl := header_readAt hheader
    dsimp only at hlast
    by_cases hall : past = bytes.length
    · rw [if_neg (not_not.2 hall)] at hlast
      obtain rfl := Except.ok.inj hlast
      exact ⟨h, hheader, hall ▸ hsections⟩
    · rw [if_pos hall] at hlast
      cases hlast
  · intro hread
    obtain ⟨h, hheader, hsections⟩ := hread
    exact ⟨_, Decoder.readAt_bind.2 ⟨h, Header.size, hheader, hsections⟩,
      if_neg (not_not.2 rfl)⟩

theorem decode_of_error (herror : (Header.decode.bind decodeSections).readAt bytes 0 = .error fault) :
    decode bytes = .error fault := by
  rw [Decoder.readAt_zero] at herror
  unfold decode
  rw [herror]

/-- reading checks that the message fills the bytes, and nothing else -/
theorem decode_eq_ok : decode bytes = .ok m ↔ m.Fills bytes := by
  rw [decode_readAt]
  simp only [decodeSections_readAt]
  constructor
  · intro hread
    obtain ⟨h, hheader, rfl, hqd, han, hns, har, hplaces⟩ := hread
    exact ⟨hheader, hqd, han, hns, har, hplaces⟩
  · intro hfills
    exact ⟨m.header, hfills.header, rfl, hfills.questions, hfills.answers, hfills.authorities,
      hfills.additionals, hfills.places⟩

/-! ## the walk to the last record -/

theorem lastAdditionalOffset_eq (hheader : Header.decode.readAt bytes 0 = .ok (h, Header.size)) :
    lastAdditionalOffset bytes =
      if h.arcount = 0 then .ok none
      else ((walk h).readAt bytes Header.size).map fun item => some item.2 := by
  rw [Decoder.readAt_zero] at hheader
  unfold lastAdditionalOffset Decoder.readAt
  rw [hheader]
  dsimp only
  by_cases hnone : h.arcount = 0
  · rw [if_pos hnone, if_pos hnone]
  · rw [if_neg hnone, if_neg hnone]
    unfold walk
    cases ((Decoder.many Question.decode h.qdcount.toNat).bind fun _ =>
      Decoder.many ResourceRecord.decode (precedingRecords h)) bytes (bytes.drop Header.size) <;> rfl

theorem lastAdditionalOffset_eq_bind :
    lastAdditionalOffset bytes = Header.decode.readAt bytes 0 >>= fun item =>
      if item.1.arcount = 0 then .ok none
      else (walk item.1).readAt bytes item.2 >>= fun last => .ok (some last.2) := by
  cases hheader : Header.decode.readAt bytes 0 with
  | error e =>
    rw [Decoder.readAt_zero] at hheader
    unfold lastAdditionalOffset
    rw [hheader]
    rfl
  | ok item =>
    obtain ⟨h, n⟩ := item
    obtain rfl := header_readAt hheader
    rw [lastAdditionalOffset_eq hheader]
    show _ = if h.arcount = 0 then Except.ok none else _
    by_cases hnone : h.arcount = 0
    · rw [if_pos hnone, if_pos hnone]
    · rw [if_neg hnone, if_neg hnone]
      cases (walk h).readAt bytes Header.size <;> rfl

/-- everything but the last record is where the walk goes, and the record ends where the message
does -/
theorem Fills.last {rs : List ResourceRecord} {r : ResourceRecord} (hfills : m.Fills bytes)
    (hlast : m.additionals = rs ++ [r]) :
    ∃ past offset, Question.decode.Placed bytes Header.size m.questions past ∧
      ResourceRecord.decode.Placed bytes past (m.answers ++ m.authorities ++ rs) offset ∧
      ResourceRecord.decode.readAt bytes offset = .ok (r, bytes.length) ∧
      (walk m.header).readAt bytes Header.size = .ok (m.answers ++ m.authorities ++ rs, offset) := by
  obtain ⟨past, hquestions, hrecords⟩ := hfills.places
  have hsplit : m.records = m.answers ++ m.authorities ++ rs ++ [r] := by
    rw [records, hlast, List.append_assoc _ rs]
  rw [hsplit] at hrecords
  obtain ⟨offset, hfront, hback⟩ := hrecords.split
  have hread : ResourceRecord.decode.readAt bytes offset = .ok (r, bytes.length) := by
    cases hback with
    | cons hread hrest =>
      cases hrest
      exact hread
  have hpreceding : (m.answers ++ m.authorities ++ rs).length = precedingRecords m.header := by
    have hadditionals := hfills.additionals
    rw [hlast, List.length_append, List.length_singleton] at hadditionals
    rw [precedingRecords, ← hfills.answers, ← hfills.authorities, ← hadditionals,
      List.length_append, List.length_append]
    omega
  refine ⟨past, offset, hquestions, hfront, hread, ?_⟩
  rw [walk, Decoder.readAt_bind]
  exact ⟨m.questions, past, Decoder.many_readAt.2 ⟨hfills.questions, hquestions⟩,
    Decoder.many_readAt.2 ⟨hpreceding, hfront⟩⟩

theorem Fills.lastAdditionalOffset_nil (hfills : m.Fills bytes) (hnil : m.additionals = []) :
    lastAdditionalOffset bytes = .ok none := by
  have hadditionals := hfills.additionals
  rw [hnil, List.length_nil] at hadditionals
  rw [lastAdditionalOffset_eq hfills.header]
  exact if_pos (UInt16.toNat_inj.1 hadditionals.symm)

theorem Fills.lastAdditionalOffset_concat {rs : List ResourceRecord} {r : ResourceRecord}
    (hfills : m.Fills bytes) (hlast : m.additionals = rs ++ [r]) :
    ∃ past offset, lastAdditionalOffset bytes = .ok (some offset) ∧
      ResourceRecord.decode.readAt bytes offset = .ok (r, bytes.length) ∧
      Question.decode.Placed bytes Header.size m.questions past ∧
      ResourceRecord.decode.Placed bytes past (m.answers ++ m.authorities ++ rs) offset := by
  obtain ⟨past, offset, hquestions, hfront, hrecord, hwalk⟩ := hfills.last hlast
  have hsome : m.header.arcount ≠ 0 := by
    intro hzero
    have hadditionals := hfills.additionals
    rw [hzero, hlast, List.length_append] at hadditionals
    exact absurd hadditionals (Nat.succ_ne_zero _)
  rw [lastAdditionalOffset_eq hfills.header, if_neg hsome, hwalk]
  exact ⟨past, offset, rfl, hrecord, hquestions, hfront⟩

/-- the last additional record of a message that is read ends where the message does -/
theorem lastAdditionalOffset_readAt (hread : decode bytes = .ok m)
    (hoffset : lastAdditionalOffset bytes = .ok (some offset)) :
    ∃ r, ResourceRecord.decode.readAt bytes offset = .ok (r, bytes.length) := by
  have hfills : m.Fills bytes := decode_eq_ok.1 hread
  rcases List.eq_nil_or_concat' m.additionals with hnil | ⟨rs, r, hlast⟩
  · rw [hfills.lastAdditionalOffset_nil hnil] at hoffset
    cases hoffset
  · obtain ⟨past, offset', hlast', hrecord, -⟩ := hfills.lastAdditionalOffset_concat hlast
    obtain rfl := Option.some.inj (Except.ok.inj (hlast'.symm.trans hoffset))
    exact ⟨r, hrecord⟩

/-- what the walk stumbles over, the reading of the sections does too -/
theorem decodeSections_of_walk (hsome : h.arcount ≠ 0)
    (hwalk : (walk h).readAt bytes offset = .error fault) :
    (decodeSections h).readAt bytes offset = .error fault := by
  have hpositive : 0 < h.arcount.toNat :=
    Nat.pos_of_ne_zero fun hzero => hsome (UInt16.toNat_inj.1 hzero)
  rw [walk, Decoder.readAt_bind_error] at hwalk
  rw [decodeSections, Decoder.readAt_bind_error]
  rcases hwalk with hquestions | ⟨questions, past, hquestions, hrun⟩
  · exact .inl hquestions
  · refine .inr ⟨questions, past, hquestions, ?_⟩
    obtain ⟨items, next, hlength, hplaced, hfault⟩ := Decoder.many_readAt_error.1 hrun
    -- the three runs take the items off one after the other
    refine hplaced.many_bind_error hfault fun answers items₁ start₁ han hplaced₁ => ?_
    refine hplaced₁.many_bind_error hfault fun authorities items₂ start₂ hns hplaced₂ => ?_
    refine hplaced₂.many_bind_error hfault fun additionals items₃ start₃ har hplaced₃ => ?_
    rw [precedingRecords] at hlength
    omega

end

/-- **the walk over the records agrees with the reading of the message**: it finds the last additional
record, which is all that is left after everything else, and it fails for no other reason -/
theorem lastAdditionalOffset_decode (bytes : Bytes) :
    (∀ m, decode bytes = .ok m →
      (m.additionals = [] → lastAdditionalOffset bytes = .ok none) ∧
      ∀ rs r, m.additionals = rs ++ [r] → ∃ past offset,
        lastAdditionalOffset bytes = .ok (some offset) ∧
        ResourceRecord.decode.readAt bytes offset = .ok (r, bytes.length) ∧
        Question.decode.Placed bytes Header.size m.questions past ∧
        ResourceRecord.decode.Placed bytes past (m.answers ++ m.authorities ++ rs) offset) ∧
    ∀ fault, lastAdditionalOffset bytes = .error fault → decode bytes = .error fault := by
  constructor
  · intro m hread
    have hfills : m.Fills bytes := decode_eq_ok.1 hread
    exact ⟨hfills.lastAdditionalOffset_nil, fun rs r => hfills.lastAdditionalOffset_concat⟩
  · intro fault herror
    apply decode_of_error
    rw [Decoder.readAt_bind_error]
    cases hheader : Header.decode.readAt bytes 0 with
    | error e =>
      have hsame : lastAdditionalOffset bytes = .error e := by
        rw [Decoder.readAt_zero] at hheader
        unfold lastAdditionalOffset
        rw [hheader]
      rw [hsame] at herror
      obtain rfl := Except.error.inj herror
      exact .inl rfl
    | ok item =>
      obtain ⟨h, n⟩ := item
      obtain rfl := header_readAt hheader
      rw [lastAdditionalOffset_eq hheader] at herror
      by_cases hnone : h.arcount = 0
      · rw [if_pos hnone] at herror
        cases herror
      · rw [if_neg hnone] at herror
        cases hwalk : (walk h).readAt bytes Header.size with
        | error e =>
          rw [hwalk] at herror
          obtain rfl : e = fault := Except.error.inj herror
          exact .inr ⟨h, Header.size, rfl, decodeSections_of_walk hnone hwalk⟩
        | ok item =>
          rw [hwalk] at herror
          cases herror

/-! ## an example -/

/-- a reply with two additional records, the first of which is named by pointers into the data of the
answer and from there to the question -/
def mailboxReply : Bytes :=
  [0, 7, 128, 0, 0, 1, 0, 1, 0, 0, 0, 2, 7, 101, 120, 97, 109, 112, 108, 101, 0, 0, 15, 0, 1,
    192, 12, 0, 15, 0, 1, 0, 0, 1, 44, 0, 9, 0, 10, 4, 109, 97, 105, 108, 192, 12,
    192, 39, 0, 1, 0, 1, 0, 0, 1, 44, 0, 4, 192, 0, 2, 1,
    0, 0, 41, 16, 0, 0, 0, 0, 0, 0, 0]

def mailbox : Message where
  header := { id := 7, qr := true, qdcount := 1, ancount := 1, arcount := 2 }
  questions := [⟨["example", ""], .mx, .internet⟩]
  answers := [⟨["example", ""], .mx, .internet, 300, 16,
    [0, 10, 4, 109, 97, 105, 108, 7, 101, 120, 97, 109, 112, 108, 101, 0]⟩]
  additionals := [⟨["mail", "example", ""], .a, .internet, 300, 4, [192, 0, 2, 1]⟩,
    ⟨[""], .opt, .other 4096, 0, 0, []⟩]

/-- the last record of the reply is found, and the reply without its last two records is refused -/
theorem lastAdditionalOffset_decode_mailboxReply :
    (decode mailboxReply = .ok mailbox ∧ ∃ past offset,
      lastAdditionalOffset mailboxReply = .ok (some offset) ∧
      ResourceRecord.decode.readAt mailboxReply offset =
        .ok (⟨[""], .opt, .other 4096, 0, 0, []⟩, mailboxReply.length) ∧
      Question.decode.Placed mailboxReply Header.size mailbox.questions past ∧
      ResourceRecord.decode.Placed mailboxReply past
        (mailbox.answers ++ [] ++ [⟨["mail", "example", ""], .a, .internet, 300, 4, [192, 0, 2, 1]⟩])
        offset) ∧
    lastAdditionalOffset (mailboxReply.take 46) = .error .badLabel ∧
      decode (mailboxReply.take 46) = .error .badLabel := by
  have hread : decode mailboxReply = .ok mailbox := by decide +kernel
  have hshort : lastAdditionalOffset (mailboxReply.take 46) = .error .badLabel := by decide +kernel
  exact ⟨⟨hread, ((lastAdditionalOffset_decode _).1 _ hread).2 _ _ rfl⟩, hshort,
    (lastAdditionalOffset_decode _).2 _ hshort⟩

end TransactionKey.Message
