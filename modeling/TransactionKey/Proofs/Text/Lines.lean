import Mathlib.Algebra.GroupWithZero.Nat

/-!
# Lines of text

`feeds s` counts the line feeds in a text and `lines s` are the lines that they end.  A text that is put
together from items, each with a line feed after it, has these items as its lines just if none of them
holds a line feed itself (`lines_join_iff`).
-/

namespace TransactionKey.Text

/-- the number of line feeds in a text -/
def feeds (s : String) : Nat := s.toList.count '\n'

/-- the lines of a text; what follows the last line feed is none -/
def lines (s : String) : List String := (s.toList.splitOn '\n').dropLast.map String.ofList

/-! ## counting line feeds -/

theorem feeds_eq_zero {s : String} : feeds s = 0 ↔ '\n' ∉ s.toList := List.count_eq_zero

@[simp]
theorem feeds_append (s t : String) : feeds (s ++ t) = feeds s + feeds t := by
  rw [feeds, String.toList_append, List.count_append]
  rfl

theorem feeds_join (l : List String) : feeds (String.join l) = (l.map feeds).sum := by
  rw [feeds, String.toList_join, List.count_flatMap]
  rfl

@[simp]
theorem feeds_toString (s : String) : feeds (toString s) = feeds s := rfl

/-- digits are no line feeds -/
@[simp]
theorem feeds_repr (n : Nat) : feeds n.repr = 0 := by
  rw [feeds_eq_zero, ← Nat.toString_eq_repr, Nat.toString_eq_ofList_toDigits,
    String.toList_ofList]
  intro hmem
  have hdigit := Nat.isDigit_of_mem_toDigits (by decide) (by decide) hmem
  contradiction

@[simp]
theorem feeds_uint16 (n : UInt16) : feeds (toString n) = 0 := feeds_repr n.toNat

@[simp]
theorem feeds_uint32 (n : UInt32) : feeds (toString n) = 0 := feeds_repr n.toNat

theorem feeds_join_ended (items : List String) :
    feeds (String.join (items.map (· ++ "\n"))) = items.length + (items.map feeds).sum := by
  rw [feeds_join]
  induction items with
  | nil => rfl
  | cons item items ih =>
    have hended : feeds (item ++ "\n") = feeds item + 1 := feeds_append item "\n"
    simp only [List.map_cons, List.sum_cons, List.length_cons, hended, ih]
    omega

/-! ## lines -/

theorem length_splitOn (c : Char) (cs : List Char) : (cs.splitOn c).length = cs.count c + 1 := by
  induction cs with
  | nil => rfl
  | cons d cs ih =>
    rw [List.splitOn_cons_eq_if_modifyHead, List.count_cons]
    split
    · rw [List.length_cons, ih]
    · rw [List.length_modifyHead, ih]

theorem length_lines (s : String) : (lines s).length = feeds s := by
  rw [lines, List.length_map, List.length_dropLast, length_splitOn]
  rfl

theorem lines_cons {s : String} (h : feeds s = 0) (t : String) :
    lines (s ++ "\n" ++ t) = s :: lines t := by
  have hsplit : (s ++ "\n" ++ t).toList.splitOn '\n' = s.toList :: t.toList.splitOn '\n' := by
    rw [String.toList_append, String.toList_append, List.append_assoc]
    refine (List.splitOn_append_cons_self s.toList t.toList).trans ?_
    rw [List.splitOn_eq_singleton (feeds_eq_zero.1 h)]
    rfl
  rw [lines, hsplit, List.dropLast_cons_of_ne_nil (List.splitOn_ne_nil _ _), List.map_cons,
    String.ofList_toList]
  rfl

theorem lines_join_ended {items : List String} (h : ∀ item ∈ items, feeds item = 0) :
    lines (String.join (items.map (· ++ "\n"))) = items := by
  induction items with
  | nil => rfl
  | cons item items ih =>
    obtain ⟨hitem, hitems⟩ := List.forall_mem_cons.1 h
    rw [List.map_cons, String.join_cons, lines_cons hitem, ih hitems]

/-- a line feed within an item makes for a line too many -/
theorem lines_join_iff (items : List String) :
    lines (String.join (items.map (· ++ "\n"))) = items ↔ (items.map feeds).sum = 0 := by
  constructor
  · intro h
    have hlength := length_lines (String.join (items.map (· ++ "\n")))
    rw [h, feeds_join_ended] at hlength
    omega
  · intro h
    refine lines_join_ended fun item hitem => ?_
    exact List.sum_eq_zero_iff_forall_eq_nat.1 h _ (List.mem_map_of_mem hitem)

end TransactionKey.Text
