import TransactionKey.Proofs.Name.Spelling
import TransactionKey.Proofs.Text.Lowercase

/-!
# Names that lower-case texts spell

A text in lower case has the same dots as the text itself, and it spells a name in canonical form.  That
is the canonical form of the name of the text just if no letter beyond ASCII was lowered
(`canonicalWire_eq_lowercase`).
-/

namespace TransactionKey.Name

theorem parts_append {part : List Char} (h : '.' ∉ part) (cs : List Char) :
    parts (part ++ cs) = (part ++ (fields cs).1) :: (fields cs).2 := by
  induction part with
  | nil => rfl
  | cons c part ih =>
    rw [List.mem_cons, not_or] at h
    obtain ⟨hfirst, hothers⟩ := List.cons.inj (ih h.2)
    rw [List.cons_append, parts_cons (Ne.symm h.1), hfirst, hothers]
    rfl

/-- a text keeps its empty parts when it is lowered -/
theorem gaps_lowered (before cs : List Char) :
    (parts (Text.lowered before cs)).map List.isEmpty = (parts cs).map List.isEmpty := by
  induction cs generalizing before with
  | nil => rfl
  | cons c cs ih =>
    rw [Text.lowered]
    by_cases hc : c = '.'
    · rw [hc, Text.lowerIn_dot, List.singleton_append, parts_dot, parts_dot, List.map_cons, ih]
      rfl
    · have hdots : '.' ∉ Text.lowerIn before c cs := fun hdot =>
        hc ((Text.lowerIn_settled hdot).2 rfl)
      obtain ⟨-, hothers⟩ := List.cons.inj (ih (c :: before))
      rw [parts_append hdots, parts_cons hc, List.map_cons, List.map_cons, hothers]
      cases hform : Text.lowerIn before c cs with
      | nil => exact absurd hform (Text.lowerIn_ne_nil before c cs)
      | cons d ds => rfl

theorem gaps_lowercase (text : String) : gaps (Text.lowercase text) = gaps text := by
  rw [gaps, Text.toList_lowercase, gaps_lowered, gaps]

theorem canonical_ofText_lowercase (text : String) :
    (ofText (Text.lowercase text)).canonical = ofText (Text.lowercase text) := by
  rw [← ofText_lowerAscii, Text.lowerAscii_lowercase]

theorem canonical_eq_lowercase {text : String} :
    (ofText text).canonical = ofText (Text.lowercase text) ↔
      ∀ c ∈ text.toList, Text.LowersInAscii c := by
  rw [← Text.lowercase_eq_lowerAscii, text_eq_iff, gaps_lowercase, gaps_lowerAscii,
    and_iff_left rfl, ofText_lowerAscii, eq_comm]

theorem canonicalWire_ofText_lowercase (text : String) :
    (ofText (Text.lowercase text)).canonicalWire = (ofText (Text.lowercase text)).toWire := by
  rw [canonicalWire, canonical_ofText_lowercase, toWire]

theorem canonicalWire_eq_lowercase {text : String} (h : (ofText text).Encodable) :
    (ofText text).canonicalWire = (ofText (Text.lowercase text)).toWire ↔
      ∀ c ∈ text.toList, Text.LowersInAscii c := by
  rw [← canonicalWire_ofText_lowercase, canonicalWire_eq_iff h, canonical_ofText_lowercase,
    canonical_eq_lowercase]

end TransactionKey.Name
