import TransactionKey.Proofs.Tkey
import TransactionKey.Reply

/-!
# What a reply is judged by

`Reply.judge` walks the answers once.  Here its verdict is stated by the two kinds of answers, each
in its order: the key records, of which there must be one, and the others, which are handed on.

* `sift_eq`             what the walk finds among any answers;
* `judge_iff_verdict`   the verdict on any message.
-/

namespace TransactionKey

theorem ResponseCode.isSuccess_ofValue {value : UInt16} :
    (ofValue value).isSuccess ↔ value = 0 := by
  unfold isSuccess
  rw [beq_iff_eq]
  constructor
  · intro h
    rw [← value_ofValue value, h]
    rfl
  · rintro rfl
    rfl

namespace Reply

/-- the key records among answers -/
def keysIn (answers : List ResourceRecord) : List ResourceRecord :=
  answers.filter fun answer => answer.type = .tkey

/-- the answers that are no key records -/
def othersIn (answers : List ResourceRecord) : List ResourceRecord :=
  answers.filter fun answer => answer.type ≠ .tkey

/-! ## the walk over the answers -/

section
variable {answer : ResourceRecord} (answers : List ResourceRecord)

theorem keysIn_key (h : answer.type = .tkey) :
    keysIn (answer :: answers) = answer :: keysIn answers :=
  List.filter_cons_of_pos (decide_eq_true h)

theorem keysIn_other (h : answer.type ≠ .tkey) : keysIn (answer :: answers) = keysIn answers :=
  List.filter_cons_of_neg (by simpa using h)

theorem othersIn_key (h : answer.type = .tkey) : othersIn (answer :: answers) = othersIn answers :=
  List.filter_cons_of_neg (by simpa using h)

theorem othersIn_other (h : answer.type ≠ .tkey) :
    othersIn (answer :: answers) = answer :: othersIn answers :=
  List.filter_cons_of_pos (decide_eq_true h)

end

/-- whatever was found before, the walk fails just if that makes two key records -/
theorem sift_eq (found : Option ResourceRecord) (others answers : List ResourceRecord) :
    sift found others answers =
      if 2 ≤ (found.toList ++ keysIn answers).length then .error .manyKeys
      else .ok ((found.toList ++ keysIn answers).head?, others.reverse ++ othersIn answers) := by
  induction answers generalizing found others with
  | nil => cases found <;> simp [sift, keysIn, othersIn]
  | cons answer answers ih =>
    by_cases hkey : answer.type = .tkey
    · rw [keysIn_key answers hkey, othersIn_key answers hkey]
      -- only this answer can end the walk: it is the second key record if one was found before
      cases found with
      | none =>
        have hstep : sift none others (answer :: answers) = sift (some answer) others answers :=
          if_pos hkey
        rw [hstep, ih]
        rfl
      | some first =>
        have hstep : sift (some first) others (answer :: answers) = .error .manyKeys := if_pos hkey
        have htwo : 2 ≤ ((some first).toList ++ answer :: keysIn answers).length := by
          simp only [Option.toList_some, List.singleton_append, List.length_cons]
          omega
        rw [hstep, if_pos htwo]
    · have hstep : sift found others (answer :: answers) = sift found (answer :: others) answers :=
        if_neg hkey
      rw [hstep, ih, keysIn_other answers hkey, othersIn_other answers hkey, List.reverse_cons,
        List.append_assoc, List.singleton_append]

/-! ## the verdict -/

/-- what a reply with this response code, these key records and these other answers amounts to -/
inductive Verdict (rcode : UInt8) (keys others : List ResourceRecord) :
    Except ReplyError Reply → Prop where
  | failed (hcode : rcode ≠ 0) :
    Verdict rcode keys others (.error (.server (.ofValue rcode.toUInt16)))
  | many (hcode : rcode = 0) (hkeys : 2 ≤ keys.length) :
    Verdict rcode keys others (.error .manyKeys)
  | none (hcode : rcode = 0) (hkeys : keys = []) : Verdict rcode keys others (.error .noKey)
  | malformed (hcode : rcode = 0) {record : ResourceRecord} (hkeys : keys = [record])
    {e : WireError} (hread : Tkey.ofRecord record = .error e) :
    Verdict rcode keys others (.error (.malformedKey e.message))
  | refused (hcode : rcode = 0) {record : ResourceRecord} (hkeys : keys = [record])
    {tkey : Tkey} (hread : Tkey.ofRecord record = .ok tkey) (herror : tkey.error ≠ 0) :
    Verdict rcode keys others (.error (.refused (.ofValue tkey.error)))
  | granted (hcode : rcode = 0) {record : ResourceRecord} (hkeys : keys = [record])
    {tkey : Tkey} (hread : Tkey.ofRecord record = .ok tkey) (herror : tkey.error = 0) :
    Verdict rcode keys others (.ok ⟨tkey, others⟩)

section
variable {m : Message}

theorem isSuccess_responseCode : m.responseCode.isSuccess ↔ m.header.rcode = 0 := by
  rw [Message.responseCode, ResponseCode.isSuccess_ofValue, ← UInt16.toNat_inj,
    UInt8.toNat_toUInt16, ← UInt8.toNat_inj]
  rfl

theorem judge_failed (h : m.header.rcode ≠ 0) : judge m = .error (.server m.responseCode) :=
  if_neg (mt isSuccess_responseCode.1 h)

theorem sift_many (h : 2 ≤ (keysIn m.answers).length) :
    sift none [] m.answers = .error .manyKeys :=
  (sift_eq none [] m.answers).trans (if_pos h)

theorem sift_few (h : ¬ 2 ≤ (keysIn m.answers).length) :
    sift none [] m.answers = .ok ((keysIn m.answers).head?, othersIn m.answers) :=
  (sift_eq none [] m.answers).trans (if_neg h)

theorem judge_single (hcode : m.header.rcode = 0) {record : ResourceRecord}
    (hkeys : keysIn m.answers = [record]) :
    judge m = match Tkey.ofRecord record with
      | .error e => .error (.malformedKey e.message)
      | .ok tkey =>
        if tkey.errorCode.isSuccess then .ok ⟨tkey, othersIn m.answers⟩
        else .error (.refused tkey.errorCode) := by
  have hone : ¬ 2 ≤ (keysIn m.answers).length := by simp [hkeys]
  rw [judge, if_pos (isSuccess_responseCode.2 hcode), sift_few hone, hkeys]
  rfl

theorem judge_eq_of_verdict {v : Except ReplyError Reply}
    (h : Verdict m.header.rcode (keysIn m.answers) (othersIn m.answers) v) : judge m = v := by
  cases h with
  | failed hcode => exact judge_failed hcode
  | many hcode hkeys =>
    rw [judge, if_pos (isSuccess_responseCode.2 hcode), sift_many hkeys]
  | none hcode hkeys =>
    rw [judge, if_pos (isSuccess_responseCode.2 hcode), sift_few (by simp [hkeys]), hkeys]
    rfl
  | malformed hcode hkeys hread =>
    rw [judge_single hcode hkeys, hread]
  | refused hcode hkeys hread herror =>
    rw [judge_single hcode hkeys, hread]
    exact if_neg (mt ResponseCode.isSuccess_ofValue.1 herror)
  | granted hcode hkeys hread herror =>
    rw [judge_single hcode hkeys, hread]
    exact if_pos (ResponseCode.isSuccess_ofValue.2 herror)

end

/-- every reply comes to some verdict -/
theorem exists_verdict (rcode : UInt8) (keys others : List ResourceRecord) :
    ∃ v, Verdict rcode keys others v := by
  by_cases hcode : rcode = 0
  · match keys with
    | [] => exact ⟨_, .none hcode rfl⟩
    | _ :: _ :: _ => exact ⟨_, .many hcode (Nat.le_add_left 2 _)⟩
    | [record] =>
      cases hread : Tkey.ofRecord record with
      | error e => exact ⟨_, .malformed hcode rfl hread⟩
      | ok tkey =>
        by_cases herror : tkey.error = 0
        · exact ⟨_, .granted hcode rfl hread herror⟩
        · exact ⟨_, .refused hcode rfl hread herror⟩
  · exact ⟨_, .failed hcode⟩

theorem verdict_judge (m : Message) :
    Verdict m.header.rcode (keysIn m.answers) (othersIn m.answers) (judge m) := by
  obtain ⟨v, hv⟩ := exists_verdict m.header.rcode (keysIn m.answers) (othersIn m.answers)
  rwa [judge_eq_of_verdict hv]

/-- **a reply is judged by its response code, its key records and its other answers, and by nothing
else: not by how the answers are interleaved and not by its other sections** -/
theorem judge_iff_verdict (m : Message) :
    (∀ v, judge m = v ↔ Verdict m.header.rcode (keysIn m.answers) (othersIn m.answers) v) ∧
    ∀ m' : Message, m'.header.rcode = m.header.rcode → keysIn m'.answers = keysIn m.answers →
      othersIn m'.answers = othersIn m.answers → judge m' = judge m := by
  obtain ⟨v, hv⟩ := exists_verdict m.header.rcode (keysIn m.answers) (othersIn m.answers)
  have hjudge : judge m = v := judge_eq_of_verdict hv
  refine ⟨fun v' => ⟨?_, judge_eq_of_verdict⟩, ?_⟩
  · rintro rfl
    rwa [hjudge]
  · intro m' hcode hkeys hothers
    rw [hjudge]
    exact judge_eq_of_verdict (by rwa [hcode, hkeys, hothers])

def keyAnswer : ResourceRecord where
  name := ["k", ""]
  type := .tkey
  rclass := .any
  rdlength := 29
  rdata := Name.encode ["gss-tsig"] ++
    [0, 0, 3, 232, 0, 0, 7, 208, 0, 3, 0, 0, 0, 2, 0xAB, 0xCD, 0, 1, 0x0F]

def addressAnswer : ResourceRecord := ⟨["k", ""], .a, .internet, 60, 4, [192, 0, 2, 1]⟩

def textAnswer : ResourceRecord := ⟨["k", ""], .txt, .internet, 60, 2, [1, 97]⟩

/-- a key record between other answers -/
def grantReply : Message where
  answers := [addressAnswer, keyAnswer, textAnswer]

/-- the same answers in another order, and more key records in other sections -/
def mixedReply : Message where
  answers := [keyAnswer, addressAnswer, textAnswer]
  authorities := [keyAnswer]
  additionals := [keyAnswer, addressAnswer]

theorem judge_iff_verdict_grantReply :
    judge grantReply = .ok ⟨⟨"k.", "gss-tsig.", 3, 1000, 2000, 2, "abcd", 0, 1, "0f"⟩,
      [addressAnswer, textAnswer]⟩ ∧
    judge mixedReply = judge grantReply := by
  have hread : Tkey.ofRecord keyAnswer =
      .ok ⟨"k.", "gss-tsig.", 3, 1000, 2000, 2, "abcd", 0, 1, "0f"⟩ := by decide +kernel
  obtain ⟨hverdict, hsame⟩ := judge_iff_verdict grantReply
  exact ⟨(hverdict _).2 (.granted rfl rfl hread rfl), hsame mixedReply rfl rfl rfl⟩

end Reply

end TransactionKey
