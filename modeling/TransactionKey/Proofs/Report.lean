import TransactionKey.Proofs.Reply
import TransactionKey.Proofs.Text.Lines
import TransactionKey.Proofs.Tkey.Grammar
import TransactionKey.Report

/-!
# The lines of a report

All of a report but the names is made of fixed words and digits.  The names are shown as their labels
stand, and a label may be any text: a line feed in one breaks the line that shows it, and what follows
can look like another item.

* `feeds_lines`    the line feeds in the items of a report are those of the names;
* `lines_judged`   the lines of the report on a reply.
-/

namespace TransactionKey

open Text (feeds feeds_append)

/-! ## words and digits -/

@[simp]
theorem Hex.feeds_encode (bs : Bytes) : feeds (encode bs) = 0 := by
  have hdigit {n : Nat} (h : n < 16) : digit n ≠ '\n' := by
    have all : ∀ k : Fin 16, digit k.val ≠ '\n' := by decide
    exact all ⟨n, h⟩
  rw [Text.feeds_eq_zero, encode, String.toList_ofList, digits]
  intro hmem
  obtain ⟨b, -, hb⟩ := List.mem_flatMap.1 hmem
  have hlt := b.toNat_lt
  rcases List.mem_pair.1 hb with hhigh | hlow
  · exact hdigit (by omega) hhigh.symm
  · exact hdigit (by omega) hlow.symm

@[simp]
theorem RecordType.feeds_text (type : RecordType) : feeds type.text = 0 := by
  cases type with
  | other code => simp +ground [text]
  | _ => rfl

@[simp]
theorem RecordClass.feeds_text (rclass : RecordClass) : feeds rclass.text = 0 := by
  cases rclass with
  | other code => simp +ground [text]
  | _ => rfl

@[simp]
theorem Tkey.feeds_modeText (t : Tkey) : feeds t.modeText = 0 := by
  rw [modeText]
  split
  · rename_i mode _
    cases mode <;> rfl
  · exact Text.feeds_uint16 t.mode

/-! ## names -/

namespace Name

theorem feeds_proper (name : Name) : (name.proper.map feeds).sum = (name.map feeds).sum := by
  induction name with
  | nil => rfl
  | cons label name ih =>
    rw [proper] at ih ⊢
    by_cases hempty : label = ""
    · rw [List.filter_cons_of_neg (by simpa using hempty), ih, hempty]
      exact (Nat.zero_add _).symm
    · rw [List.filter_cons_of_pos (by simpa using hempty), List.map_cons, List.sum_cons, ih]
      rfl

/-- the dots of the dotted form add no line feeds to the labels -/
theorem feeds_toText (name : Name) : feeds name.toText = (name.map feeds).sum := by
  have hdot (label : String) : feeds (label ++ ".") = feeds label := feeds_append label "."
  rw [← feeds_proper, toText]
  split
  · rename_i hroot
    rw [hroot]
    rfl
  · rw [Text.feeds_join, List.map_map]
    exact congrArg List.sum (List.map_congr_left fun label _ => hdot label)

end Name

/-! ## items -/

theorem Tkey.length_lines (t : Tkey) :
    t.lines.length = 6 + if 0 < t.otherSize then 1 else 0 := by
  rw [lines, List.length_append]
  split <;> rfl

theorem Tkey.feeds_lines (content : Content) (name : String) :
    ((content.tkey name).lines.map feeds).sum = feeds name + (content.labels.map feeds).sum := by
  have hroot : ([""].map feeds).sum = 0 := rfl
  have halgorithm : feeds (content.tkey name).algorithm = (content.labels.map feeds).sum := by
    rw [Content.tkey, Name.feeds_toText, Content.algorithm, List.map_append, List.sum_append, hroot,
      Nat.add_zero]
  rw [← halgorithm, lines, List.map_append, List.sum_append]
  split <;> simp +ground [Content.tkey]

/-- a key record that is read holds the name at the head of its data -/
theorem Tkey.ofRecord_content {key : ResourceRecord} {t : Tkey} (h : ofRecord key = .ok t) :
    ∃ algorithm n, ∃ content : Content, Name.decodePlain key.rdata key.rdata = .ok (algorithm, n) ∧
      content.labels = algorithm.proper ∧ t = content.tkey key.owner := by
  unfold ofRecord ofRdata at h
  split at h
  case isFalse => cases h
  split at h
  case h_1 => cases h
  rename_i algorithm n hname
  obtain ⟨hlabels, -⟩ := Name.decodePlain_eq_ok hname
  obtain ⟨content, hcontent, -, rfl⟩ := ofFields_content hlabels h
  exact ⟨algorithm, n, content, hname, hcontent, rfl⟩

@[simp]
theorem ResourceRecord.feeds_text (r : ResourceRecord) : feeds r.text = (r.name.map feeds).sum := by
  rw [← Name.feeds_toText]
  simp +ground [text, owner]

namespace Reply

theorem length_lines (r : Reply) :
    r.lines.length = 6 + (if 0 < r.tkey.otherSize then 1 else 0) + r.others.length := by
  rw [lines, List.length_append, Tkey.length_lines, List.length_map]

/-- the labels of the names that a report shows, given the record of the key and the name of its
algorithm -/
def shown (key : ResourceRecord) (algorithm : Name) (others : List ResourceRecord) : List String :=
  key.name ++ algorithm ++ others.flatMap ResourceRecord.name

theorem feeds_lines (content : Tkey.Content) (key : ResourceRecord) {algorithm : Name}
    (hlabels : content.labels = algorithm.proper) (others : List ResourceRecord) :
    ((lines ⟨content.tkey key.owner, others⟩).map feeds).sum =
      ((shown key algorithm others).map feeds).sum := by
  have hother (r : ResourceRecord) : feeds s!"Additional: {r.text}" = (r.name.map feeds).sum := by
    simp +ground
  have hothers : ((others.map fun r => s!"Additional: {r.text}").map feeds).sum =
      ((others.flatMap ResourceRecord.name).map feeds).sum := by
    induction others with
    | nil => rfl
    | cons r others ih =>
      simp only [List.map_cons, List.sum_cons, List.flatMap_cons, List.map_append, List.sum_append,
        hother, ih]
  rw [lines, List.map_append, List.sum_append, Tkey.feeds_lines, hlabels, Name.feeds_proper,
    hothers, ResourceRecord.owner, Name.feeds_toText, shown]
  simp only [List.map_append, List.sum_append]

/-- what is granted is the contents of the one key record, and the other answers -/
theorem granted_content {m : Message} {r : Reply} (h : judge m = .ok r) :
    ∃ key algorithm n, ∃ content : Tkey.Content, keysIn m.answers = [key] ∧
      Name.decodePlain key.rdata key.rdata = .ok (algorithm, n) ∧
      content.labels = algorithm.proper ∧ r = ⟨content.tkey key.owner, othersIn m.answers⟩ := by
  have hverdict := verdict_judge m
  rw [h] at hverdict
  cases hverdict with
  | granted hcode hkeys hread herror =>
    obtain ⟨algorithm, n, content, hname, hlabels, rfl⟩ := Tkey.ofRecord_content hread
    exact ⟨_, algorithm, n, content, hkeys, hname, hlabels, rfl⟩

/-- **the lines of the report on a reply are its items and one more for each line feed in a label
that it shows; so they are the items just if these labels hold none** -/
theorem lines_judged {m : Message} {r : Reply} (h : judge m = .ok r) :
    ∃ key algorithm n, keysIn m.answers = [key] ∧
      Name.decodePlain key.rdata key.rdata = .ok (algorithm, n) ∧
      (Text.lines r.text).length = 6 + (if 0 < r.tkey.otherSize then 1 else 0) +
        (othersIn m.answers).length + ((shown key algorithm (othersIn m.answers)).map feeds).sum ∧
      (Text.lines r.text = r.lines ↔
        ∀ label ∈ shown key algorithm (othersIn m.answers), '\n' ∉ label.toList) := by
  obtain ⟨key, algorithm, n, content, hkeys, hname, hlabels, rfl⟩ := granted_content h
  refine ⟨key, algorithm, n, hkeys, hname, ?_, ?_⟩
  · rw [Text.length_lines, text, Text.feeds_join_ended, length_lines, feeds_lines content key hlabels]
  · rw [text, Text.lines_join_iff, feeds_lines content key hlabels,
      List.sum_eq_zero_iff_forall_eq_nat, List.forall_mem_map]
    simp only [Text.feeds_eq_zero]

def granted : Reply := ⟨⟨"k.", "gss-tsig.", 3, 1000, 2000, 2, "abcd", 0, 1, "0f"⟩,
  [addressAnswer, textAnswer]⟩

theorem lines_judged_grantReply :
    judge grantReply = .ok granted ∧ Text.lines granted.text = granted.lines := by
  have hjudge : judge grantReply = .ok granted := by decide +kernel
  obtain ⟨key, algorithm, n, hkeys, hname, -, hlines⟩ := lines_judged hjudge
  have hkey : keysIn grantReply.answers = [keyAnswer] := by decide
  obtain rfl : keyAnswer = key := List.singleton_inj.1 (hkey.symm.trans hkeys)
  have hplain : Name.decodePlain keyAnswer.rdata keyAnswer.rdata = .ok (["gss-tsig", ""], 10) := by
    decide +kernel
  obtain ⟨rfl, -⟩ := Prod.mk.inj (Except.ok.inj (hplain.symm.trans hname))
  exact ⟨hjudge, hlines.2 (by decide)⟩

/-- a reply with a line feed in the owner name of its key record -/
def forgedReply : Bytes :=
  [0x12, 0x34, 0x84, 0x00, 0, 0, 0, 1, 0, 0, 0, 0] ++ Name.encode ["k", "\nAdditional: x"] ++
    [0, 249, 0, 255, 0, 0, 0, 0, 0, 28] ++ Name.encode ["gss-tsig"] ++
    [0, 0, 0, 10, 0, 0, 0, 20, 0, 3, 0, 0, 0, 2, 0xAB, 0xCD, 0, 0]

/-- the report on it has a line for a record that the reply does not have -/
theorem text_forgedReply : ∃ m r, Message.decode forgedReply = .ok m ∧ judge m = .ok r ∧
    r.tkey.otherSize = 0 ∧ r.others = [] ∧ Text.lines r.text =
      ["Key name:   k.", "Additional: x.", "Algorithm:  gss-tsig.", "Mode:       gss-api (3)",
        "Inception:  10", "Expiration: 20", "Key (2 bytes): abcd"] := by
  let m : Message := {
    header := { id := 0x1234, qr := true, aa := true, ancount := 1 }
    answers := [{
      name := ["k", "\nAdditional: x", ""], type := .tkey, rclass := .any, rdlength := 28
      rdata := Name.encode ["gss-tsig"] ++
        [0, 0, 0, 10, 0, 0, 0, 20, 0, 3, 0, 0, 0, 2, 0xAB, 0xCD, 0, 0] }] }
  let r : Reply :=
    ⟨⟨"k.\nAdditional: x.", "gss-tsig.", 3, 10, 20, 2, "abcd", 0, 0, ""⟩, []⟩
  refine ⟨m, r, ?_, ?_, rfl, rfl, ?_⟩
  · decide +kernel
  · decide +kernel
  · decide +kernel

end Reply

end TransactionKey
