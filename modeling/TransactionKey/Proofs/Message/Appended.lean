import TransactionKey.Proofs.Message.Places

/-!
# Messages with more bytes after them

No bytes can be added after a message, or taken from its end, so that it is still read
(`decode_prefixFree`).  Bytes after a message may well be seen while it is read: a name that points
beyond the end finds something there, and the data of a record may then be written out where it was
kept before.  But every item still ends at its place, because its own bytes say where that is:

* `Name.decode_extend`                a name that was read is read the same;
* `ResourceRecord.decode_outlasts`    a record takes up the same bytes, or its data became too long.
-/

namespace TransactionKey

namespace Name

theorem run_extend {labels : List String} {taken : Nat} {r : Bytes} {result : Run}
    (h : run labels taken r = .ok result) (tail : Bytes) :
    run labels taken (r ++ tail) = .ok result := by
  obtain ⟨more, stop, rest, hall, hstop, rfl, rfl⟩ := run_eq_ok.1 h
  exact run_eq_ok.2 ⟨more, stop, rest ++ tail, hall, hstop, List.append_assoc .., rfl⟩

theorem run_drop_extend {labels : List String} {taken place : Nat} {m : Bytes} {result : Run}
    (h : run labels taken (m.drop place) = .ok result) (tail : Bytes) :
    run labels taken ((m ++ tail).drop place) = .ok result := by
  have hwithin : place ≤ m.length := by
    by_contra hbeyond
    have hnone : m.drop place = [] := List.drop_eq_nil_of_le (Nat.le_of_not_le hbeyond)
    rw [hnone, run] at h
    cases h
  rw [List.drop_append_of_le_length hwithin]
  exact run_extend h tail

theorem follow_extend {m : Bytes} {labels found : List String} {place pointers : Nat}
    (h : follow m labels place pointers = .ok found) (tail : Bytes) :
    follow (m ++ tail) labels place pointers = .ok found := by
  induction pointers generalizing labels place with
  | zero => cases h
  | succ pointers ih =>
    unfold follow at h ⊢
    cases hrun : run labels 0 (m.drop place) with
    | error e => simp [hrun] at h
    | ok result =>
      rw [run_drop_extend hrun tail]
      rw [hrun] at h
      obtain ⟨more, taken, next⟩ := result
      cases next with
      | none => exact h
      | some next => exact ih h

/-- a name that was read is read the same when more bytes follow -/
theorem decode_extend {m r : Bytes} {name : Name} {n : Nat} (h : decode m r = .ok (name, n))
    (tail : Bytes) : decode (m ++ tail) (r ++ tail) = .ok (name, n) := by
  unfold decode at h ⊢
  cases hrun : run [] 0 r with
  | error e => simp [hrun] at h
  | ok result =>
    rw [run_extend hrun tail]
    rw [hrun] at h
    obtain ⟨labels, taken, next⟩ := result
    cases next with
    | none => exact h
    | some place =>
      dsimp only at h ⊢
      cases hfollow : follow m labels place maxPointers with
      | error e => simp [hfollow] at h
      | ok found =>
        rw [follow_extend hfollow tail]
        rw [hfollow] at h
        exact h

end Name

/-- the data of a record is written out to more than can be held -/
def ResourceRecord.TooLong (fault : WireError) : Prop :=
  ∃ n, maxData < n ∧ fault = .badRdata (.tooLong n)

theorem Question.decodeFixed_extend {name : Name} {m r : Bytes} {q : Question} {n : Nat}
    (h : decodeFixed name m r = .ok (q, n)) (tail : Bytes) :
    decodeFixed name (m ++ tail) (r ++ tail) = .ok (q, n) := by
  unfold decodeFixed at h
  split at h
  · exact h
  · cases h

theorem Question.decode_outlasts (E : WireError → Prop) : Decoder.Outlasts decode decode E := by
  intro m r q n tail h
  obtain ⟨name, k, l, hname, hfixed, rfl⟩ := Decoder.bind_eq_ok.1 h
  have hdrop : (r ++ tail).drop k = r.drop k ++ tail :=
    List.drop_append_of_le_length (Name.decode_bounded hname)
  refine .inl ⟨q, Decoder.bind_eq_ok.2 ⟨name, k, l, Name.decode_extend hname tail, ?_, rfl⟩⟩
  rw [hdrop]
  exact decodeFixed_extend hfixed tail

namespace ResourceRecord

theorem decodeFields_outlasts (name name' : Name) :
    Decoder.Outlasts (decodeFields name) (decodeFields name') TooLong := by
  intro m bytes r n tail h
  obtain ⟨w, rest, rfl, hsize, -, -, rfl⟩ := decodeFields_eq_ok.1 h
  -- the length field says how many bytes are taken up, whatever they are read as
  rw [List.append_assoc, decodeFields_append name' hsize]
  by_cases hlong : maxData < (w.reading (m ++ tail) (rest ++ tail)).length
  · rw [if_pos hlong]
    exact .inr ⟨_, rfl, _, hlong, rfl⟩
  · rw [if_neg hlong]
    exact .inl ⟨_, rfl⟩

theorem decode_outlasts : Decoder.Outlasts decode decode TooLong := by
  have hname : Decoder.Outlasts Name.decode Name.decode TooLong := fun _ _ name _ tail h =>
    .inl ⟨name, Name.decode_extend h tail⟩
  exact hname.bind Name.decode_bounded decodeFields_outlasts

end ResourceRecord

namespace Message

theorem decodeSections_outlasts (h : Header) :
    Decoder.Outlasts (decodeSections h) (decodeSections h) ResourceRecord.TooLong := by
  have hrecords := ResourceRecord.decode_outlasts.many ResourceRecord.decode_bounded
  have hbounded := ResourceRecord.decode_bounded.many
  refine ((Question.decode_outlasts _).many Question.decode_bounded _).bind
    (Question.decode_bounded.many _) fun questions questions' => ?_
  refine (hrecords _).bind (hbounded _) fun answers answers' => ?_
  refine (hrecords _).bind (hbounded _) fun authorities authorities' => ?_
  refine (hrecords _).bind (hbounded _) fun additionals additionals' => ?_
  exact Decoder.Outlasts.pure _ _

theorem header_extend {bytes : Bytes} {h : Header} {n : Nat}
    (hread : Header.decode bytes bytes = .ok (h, n)) (tail : Bytes) :
    Header.decode (bytes ++ tail) (bytes ++ tail) = .ok (h, n) := by
  unfold Header.decode at hread ⊢
  split at hread
  · exact hread
  · cases hread

theorem decode_extended {bytes tail : Bytes} {m : Message} (h : decode bytes = .ok m)
    (htail : tail ≠ []) :
    decode (bytes ++ tail) = .error (.trailing tail.length) ∨
      ∃ fault, decode (bytes ++ tail) = .error fault ∧ ResourceRecord.TooLong fault := by
  obtain ⟨header, hheader, hsections⟩ := decode_readAt.1 h
  rw [Decoder.readAt_zero] at hheader
  obtain ⟨k, hsections, hlength⟩ := Decoder.readAt_eq_ok.1 hsections
  have hsize : Header.size ≤ bytes.length := (Header.decode_eq_ok hheader).2
  have hdrop : (bytes ++ tail).drop Header.size = bytes.drop Header.size ++ tail :=
    List.drop_append_of_le_length hsize
  have hheader' := header_extend hheader tail
  rcases decodeSections_outlasts header tail hsections with ⟨m', hread⟩ | ⟨fault, hfault, hlong⟩
  · -- the same bytes are taken up, and `tail` is left
    left
    have hbind : Header.decode.bind decodeSections (bytes ++ tail) (bytes ++ tail) =
        .ok (m', bytes.length) :=
      Decoder.bind_eq_ok.2 ⟨header, Header.size, k, hheader', hdrop ▸ hread, hlength⟩
    obtain ⟨b, rest, rfl⟩ := List.exists_cons_of_ne_nil htail
    unfold decode
    rw [hbind]
    simp only [List.drop_left]
  · right
    refine ⟨fault, decode_of_error ?_, hlong⟩
    rw [Decoder.readAt_zero]
    unfold Decoder.bind
    simp only [hheader', hdrop, hfault]

/-- **what is read as a message is not read with anything after it, nor when it is cut short**: the
bytes after it are reported, unless data that can be written out for their sake is too long -/
theorem decode_prefixFree {bytes : Bytes} {m : Message} (h : decode bytes = .ok m) :
    (∀ tail, tail ≠ [] →
      decode (bytes ++ tail) = .error (.trailing tail.length) ∨
        ∃ n, ResourceRecord.maxData < n ∧
          decode (bytes ++ tail) = .error (.badRdata (.tooLong n))) ∧
    ∀ front, front <+: bytes → front ≠ bytes → ∃ fault, decode front = .error fault := by
  constructor
  · intro tail htail
    rcases decode_extended h htail with htrailing | ⟨fault, hfault, n, hlong, rfl⟩
    · exact .inl htrailing
    · exact .inr ⟨n, hlong, hfault⟩
  · intro front hfront hne
    cases hread : decode front with
    | error fault => exact ⟨fault, rfl⟩
    | ok m' =>
      -- the rest of the message would be bytes after what was read
      obtain ⟨tail, rfl⟩ := hfront
      have htail : tail ≠ [] := by
        rintro rfl
        exact hne (List.append_nil front).symm
      rcases decode_extended hread htail with htrailing | ⟨fault, hfault, -⟩
      · rw [h] at htrailing
        cases htrailing
      · rw [h] at hfault
        cases hfault

theorem decode_prefixFree_mailboxReply :
    decode mailboxReply = .ok mailbox ∧
      (∀ tail, tail ≠ [] →
        decode (mailboxReply ++ tail) = .error (.trailing tail.length) ∨
          ∃ n, ResourceRecord.maxData < n ∧
            decode (mailboxReply ++ tail) = .error (.badRdata (.tooLong n))) ∧
      ∃ fault, decode (mailboxReply.take 72) = .error fault := by
  have hread : decode mailboxReply = .ok mailbox := by decide +kernel
  obtain ⟨hmore, hless⟩ := decode_prefixFree hread
  exact ⟨hread, hmore, hless _ (List.take_prefix 72 mailboxReply) (by decide)⟩

end Message

end TransactionKey
