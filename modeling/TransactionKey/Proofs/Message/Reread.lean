import TransactionKey.Proofs.Message.Places
import TransactionKey.Proofs.ResourceRecord.Expansion

/-!
# Reading a message again

A message that was read can be written and read again.  `decode_rewritten` says that this gives the
message that was read first, as long as no data was kept with a compression pointer in it; such data
may be read otherwise, because what it points to has moved.  Data whose names were written out when
the message was read holds no pointer, so such data was left as it stood in the message.
-/

namespace TransactionKey

theorem Question.decodeFixed_returns {name : Name} (hname : name.Complete) :
    (decodeFixed name).Returns InForm := by
  intro m bytes q n h
  unfold decodeFixed at h
  split at h
  · obtain ⟨rfl, -⟩ := Prod.mk.inj (Except.ok.inj h)
    exact ⟨hname, congrArg _ (RecordType.code_ofCode _), congrArg _ (RecordClass.code_ofCode _)⟩
  · cases h

theorem Question.decode_returns : Decoder.Returns decode InForm :=
  Name.decode_returns.bind fun _ ⟨labels, hlabels, hname⟩ =>
    decodeFixed_returns ⟨labels, fun label hl => (hlabels label hl).1, hname⟩

namespace Message

/-- in the form in which messages are read, with the counts of its sections -/
structure Received (m : Message) : Prop where
  counts : m.counted = m.header
  questions : ∀ q ∈ m.questions, q.InForm
  records : ∀ r ∈ m.records, r.Received

theorem decodeSections_returns (header : Header) : (decodeSections header).Returns Received := by
  have hrecords := ResourceRecord.decode_returns.many
  unfold decodeSections
  refine (Question.decode_returns.many _).bind fun questions ⟨hqd, hquestions⟩ => ?_
  refine (hrecords _).bind fun answers ⟨han, hanswers⟩ => ?_
  refine (hrecords _).bind fun authorities ⟨hns, hauthorities⟩ => ?_
  refine (hrecords _).bind fun additionals ⟨har, hadditionals⟩ => ?_
  refine Decoder.Returns.pure ⟨?_, hquestions, ?_⟩
  · simp only [counted, hqd, han, hns, har, UInt16.ofNat_toNat]
  · simp only [records, List.forall_mem_append]
    exact ⟨⟨hanswers, hauthorities⟩, hadditionals⟩

theorem decode_received {bytes : Bytes} {m : Message} (h : decode bytes = .ok m) : m.Received := by
  unfold decode at h
  split at h
  · cases h
  · rename_i m' taken hread
    obtain ⟨header, n, k, -, hsections, -⟩ := Decoder.bind_eq_ok.1 hread
    split at h
    · obtain rfl := Except.ok.inj h
      exact decodeSections_returns header hsections
    · cases h

/-- the same message but for the data of records that held pointers -/
structure RereadAs (m m' : Message) : Prop where
  header : m'.header = m.header
  questions : m'.questions = m.questions
  answers : List.Forall₂ ResourceRecord.RereadAs m.answers m'.answers
  authorities : List.Forall₂ ResourceRecord.RereadAs m.authorities m'.authorities
  additionals : List.Forall₂ ResourceRecord.RereadAs m.additionals m'.additionals

/-- **a message that was read and written is read again as it was**, unless data was kept with
compression pointers in it: then that data may change, or be refused because written out it is too
long; such data is only in records whose names could not be written out where they stood -/
theorem decode_rewritten {bytes bytes' : Bytes} {m : Message} (h : decode bytes = .ok m)
    (hw : m.toWire = .ok bytes') :
    (∃ first, Question.decode.Placed bytes Header.size m.questions first ∧
      ResourceRecord.decode.Placed bytes first m.records bytes.length ∧
      ∀ r place past, ResourceRecord.decode.readAt bytes place = .ok (r, past) →
        r.pointing = true → ∃ start, ResourceRecord.DataAt bytes place r.type start past ∧
          r.Unexpanded bytes start past) ∧
    ((∀ r ∈ m.records, r.pointing = false) → decode bytes' = .ok m) ∧
      ((∃ m', decode bytes' = .ok m' ∧ m.RereadAs m') ∨
        ∃ e, decode bytes' = .error e ∧ ∃ r ∈ m.records, r.Swollen e) := by
  have hm := decode_received h
  obtain ⟨hwritable, rfl⟩ := toWire_eq_ok.1 hw
  have hquestions : ∀ q ∈ m.questions, q.Kept := fun q hq =>
    ⟨hm.questions q hq, hwritable.questions q hq⟩
  refine ⟨?_, ?_, ?_⟩
  · obtain ⟨first, hfirst, hrecords⟩ := (decode_eq_ok.1 h).places
    exact ⟨first, hfirst, hrecords, fun r place past => ResourceRecord.unexpanded_of_pointing⟩
  · intro hpoints
    have hrecords : ∀ r ∈ m.records, r.Kept := fun r hr =>
      (hm.records r hr).kept (hpoints r hr) (hwritable.records r hr)
    rw [decode_kept hwritable hquestions hrecords, hm.counts]
  · have hreads := encode_reads (E := fun e => ∃ r ∈ m.records, r.Swollen e) hwritable fun r hr =>
      ((hm.records r hr).reads (hwritable.records r hr)).mono (fun _ h => h)
        fun e he => ⟨r, hr, he⟩
    rcases decode_of_reads hreads with ⟨m', hm', hseen⟩ | ⟨e, he, hswollen⟩
    · exact .inl ⟨m', hm', hseen.header.trans hm.counts,
        hseen.questions.trans (map_seen_kept hquestions), hseen.answers, hseen.authorities,
        hseen.additionals⟩
    · exact .inr ⟨e, he, hswollen⟩

/-! ## examples -/

/-- a reply whose answer names the question twice by pointers -/
def compressedReply : Bytes :=
  [0, 7, 128, 0, 0, 1, 0, 1, 0, 0, 0, 0, 7, 101, 120, 97, 109, 112, 108, 101, 0, 0, 15, 0, 1,
    192, 12, 0, 15, 0, 1, 0, 0, 1, 44, 0, 9, 0, 10, 4, 109, 97, 105, 108, 192, 12]

def mailAnswer : Message where
  header := { id := 7, qr := true, qdcount := 1, ancount := 1 }
  questions := [⟨["example", ""], .mx, .internet⟩]
  answers := [⟨["example", ""], .mx, .internet, 300, 16,
    [0, 10, 4, 109, 97, 105, 108, 7, 101, 120, 97, 109, 112, 108, 101, 0]⟩]

/-- a message with an alias whose name is a pointer to the middle of the data after it, which is no
label; without compression the second owner name is shorter by a byte, and the pointer leads to the
end of that data, which is the root -/
def movedPointer : Bytes :=
  [0, 0, 0, 0, 0, 0, 0, 2, 0, 0, 0, 0, 0, 0, 5, 0, 1, 0, 0, 0, 0, 0, 2, 192, 37,
    192, 12, 0, 1, 0, 1, 0, 0, 0, 0, 0, 2, 128, 0]

/-- the message as it is read, if the data of the alias is this -/
def aliasAnswer (data : Bytes) : Message where
  header := { ancount := 2 }
  answers := [⟨[""], .cname, .internet, 0, UInt16.ofNat data.length, data⟩,
    ⟨[""], .a, .internet, 0, 2, [128, 0]⟩]

/-- the reply is read again as it was; the alias of the other message holds a pointer and was kept as it
stood there -/
theorem decode_rewritten_mailAnswer :
    let r : ResourceRecord := ⟨[""], .cname, .internet, 0, 2, [192, 37]⟩
    (decode compressedReply = .ok mailAnswer ∧ mailAnswer.toWire = .ok mailAnswer.encode ∧
      decode mailAnswer.encode = .ok mailAnswer) ∧
    decode movedPointer = .ok (aliasAnswer [192, 37]) ∧
      (aliasAnswer [192, 37]).toWire = .ok (aliasAnswer [192, 37]).encode ∧
      ResourceRecord.decode.readAt movedPointer 12 = .ok (r, 25) ∧ r.pointing = true ∧
      ∃ start, ResourceRecord.DataAt movedPointer 12 .cname start 25 ∧
        r.Unexpanded movedPointer start 25 := by
  intro r
  have hread : decode compressedReply = .ok mailAnswer := by decide +kernel
  have hwire : mailAnswer.toWire = .ok mailAnswer.encode := rfl
  have hmoved : decode movedPointer = .ok (aliasAnswer [192, 37]) := by decide +kernel
  have hmovedWire : (aliasAnswer [192, 37]).toWire = .ok (aliasAnswer [192, 37]).encode := rfl
  have hr : ResourceRecord.decode.readAt movedPointer 12 = .ok (r, 25) := by decide +kernel
  have hpointing : r.pointing = true := by decide +kernel
  obtain ⟨-, hsame, -⟩ := decode_rewritten hread hwire
  obtain ⟨⟨first, -, -, hunexpanded⟩, -⟩ := decode_rewritten hmoved hmovedWire
  exact ⟨⟨hread, hwire, hsame (by decide +kernel)⟩, hmoved, hmovedWire, hr, hpointing,
    hunexpanded _ _ _ hr hpointing⟩

theorem decode_movedPointer :
    decode movedPointer = .ok (aliasAnswer [192, 37]) ∧
      (aliasAnswer [192, 37]).toWire = .ok (aliasAnswer [192, 37]).encode ∧
      decode (aliasAnswer [192, 37]).encode = .ok (aliasAnswer [0]) ∧
      aliasAnswer [0] ≠ aliasAnswer [192, 37] := by
  refine ⟨?_, ?_, ?_, ?_⟩ <;> decide +kernel

end Message

end TransactionKey
