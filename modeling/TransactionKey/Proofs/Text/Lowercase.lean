import TransactionKey.Proofs.Text.Lower
import TransactionKey.Text.Lowercase

/-!
# Texts in lower case

`lowercase` lowers the letters of all scripts and `lowerAscii` those of ASCII only.

* `toList_lowercase`          the lower-case form, a character after the other;
* `lowerIn_settled`           a lowered character is no capital of ASCII, and no dot if it was none;
* `lowerAscii_lowercase`      a text in lower case has no ASCII capitals;
* `lowercase_eq_lowerAscii`   the two agree on the texts whose other letters are all small.
-/

namespace TransactionKey.Text

/-! ## characters -/

theorem toLower_eq_self {c : Char} (h : c.toNat < 65 ∨ 90 < c.toNat) : c.toLower = c := by
  refine dif_neg fun hcapital => ?_
  obtain ⟨hlow, hhigh, -⟩ := toLower_capital hcapital
  have hnat : c.toNat = c.val.toNat := rfl
  omega

theorem toLower_toLower (c : Char) : c.toLower.toLower = c.toLower := by
  by_cases h : c.val ≥ 'A'.val ∧ c.val ≤ 'Z'.val
  · obtain ⟨hlow, hhigh, hsum⟩ := toLower_capital h
    have hnat : c.toLower.toNat = c.val.toNat + 32 := hsum
    exact toLower_eq_self (by omega)
  · have hsame : c.toLower = c := dif_neg h
    rw [hsame, hsame]

theorem toNat_ofNat (n : Nat) : (Char.ofNat n).toNat = if n.isValidChar then n else 0 := by
  by_cases h : n.isValidChar
  · rw [Char.ofNat, dif_pos h, if_pos h]
    rfl
  · rw [Char.ofNat, dif_neg h, if_neg h]
    rfl

theorem target_lowerings : ∀ r ∈ lowerings, 90 < r.target := by decide +kernel

/-- no mapping leads into the capitals of ASCII or below them -/
theorem lowerChar_beyond {c : Char} (h : 128 ≤ c.toNat) :
    (lowerChar c).toNat = 0 ∨ 90 < (lowerChar c).toNat := by
  rw [lowerChar, if_neg (Nat.not_lt.2 h)]
  cases hfind : lowerings.findSome? fun r => r.apply? c.toNat with
  | none => exact .inr (Nat.lt_of_lt_of_le (by decide) h)
  | some n =>
    obtain ⟨r, hr, happly⟩ := List.exists_of_findSome?_eq_some hfind
    have htarget := target_lowerings r hr
    unfold Lowering.apply? at happly
    split at happly
    · obtain rfl := Option.some.inj happly
      show (Char.ofNat _).toNat = 0 ∨ 90 < (Char.ofNat _).toNat
      rw [toNat_ofNat]
      split <;> omega
    · cases happly

theorem lowerChar_toLower (c : Char) : (lowerChar c).toLower = lowerChar c := by
  by_cases h : c.toNat < 128
  · rw [lowerChar, if_pos h]
    exact toLower_toLower c
  · have hbeyond := lowerChar_beyond (Nat.not_lt.1 h)
    exact toLower_eq_self (by omega)

theorem lowerChar_eq_dot {c : Char} (h : lowerChar c = '.') : c = '.' := by
  by_cases hascii : c.toNat < 128
  · rw [lowerChar, if_pos hascii] at h
    exact (toLower_eq_dot c).1 h
  · have hbeyond := lowerChar_beyond (Nat.not_lt.1 hascii)
    rw [h, show ('.').toNat = 46 from rfl] at hbeyond
    omega

/-! ## texts -/

/-- the lower-case form of a text that follows `before` -/
def lowered (before : List Char) : List Char → List Char
  | [] => []
  | c :: cs => lowerIn before c cs ++ lowered (c :: before) cs

theorem lowerFrom_eq (before done cs : List Char) :
    lowerFrom before done cs = done.reverse ++ lowered before cs := by
  induction cs generalizing before done with
  | nil => exact (List.append_nil _).symm
  | cons c cs ih =>
    rw [lowerFrom, ih, List.reverse_append, List.reverse_reverse, List.append_assoc, lowered]

theorem toList_lowercase (s : String) : (lowercase s).toList = lowered [] s.toList := by
  rw [lowercase, String.toList_ofList, lowerFrom_eq]
  rfl

/-- a lowered character is no capital of ASCII, and no dot unless it was one -/
theorem lowerIn_settled {before after : List Char} {c d : Char} (h : d ∈ lowerIn before c after) :
    d.toLower = d ∧ (d = '.' → c = '.') := by
  unfold lowerIn at h
  split at h
  · rcases List.mem_singleton.1 h with rfl
    split <;> exact ⟨by decide, nofun⟩
  · split at h
    · rcases List.mem_cons.1 h with rfl | h
      · exact ⟨by decide, nofun⟩
      · rcases List.mem_singleton.1 h with rfl
        exact ⟨by decide, nofun⟩
    · rcases List.mem_singleton.1 h with rfl
      exact ⟨lowerChar_toLower c, lowerChar_eq_dot⟩

theorem lowerIn_dot (before after : List Char) : lowerIn before '.' after = ['.'] := rfl

theorem lowerIn_ne_nil (before : List Char) (c : Char) (after : List Char) :
    lowerIn before c after ≠ [] := by
  unfold lowerIn
  split
  · exact List.cons_ne_nil _ _
  · split <;> exact List.cons_ne_nil _ _

theorem lowered_toLower (before cs : List Char) :
    (lowered before cs).map Char.toLower = lowered before cs := by
  induction cs generalizing before with
  | nil => rfl
  | cons c cs ih =>
    have hc : (lowerIn before c cs).map Char.toLower = lowerIn before c cs :=
      (List.map_congr_left fun d hd => (lowerIn_settled hd).1).trans (List.map_id _)
    rw [lowered, List.map_append, hc, ih]

theorem lowerAscii_lowercase (s : String) : lowerAscii (lowercase s) = lowercase s := by
  rw [← String.toList_inj, lowerAscii, String.toList_map, toList_lowercase, lowered_toLower]

/-! ## where the two agree -/

/-- a character that is lowered as an ASCII letter is, or not at all -/
def LowersInAscii (c : Char) : Prop := 128 ≤ c.toNat → c ≠ 'İ' ∧ lowerChar c = c

instance (c : Char) : Decidable (LowersInAscii c) := inferInstanceAs (Decidable (_ → _))

section
variable {before after : List Char} {c : Char}

theorem LowersInAscii.lowerIn_eq (h : LowersInAscii c) : lowerIn before c after = [c.toLower] := by
  by_cases hascii : c.toNat < 128
  · have hsigma : c ≠ 'Σ' := by
      rintro rfl
      exact absurd hascii (by decide)
    have hdotted : c ≠ 'İ' := by
      rintro rfl
      exact absurd hascii (by decide)
    rw [lowerIn, if_neg hsigma, if_neg hdotted, lowerChar, if_pos hascii]
  · obtain ⟨hdotted, hsame⟩ := h (Nat.not_lt.1 hascii)
    have hsigma : c ≠ 'Σ' := by
      rintro rfl
      exact absurd hsame (by decide +kernel)
    rw [lowerIn, if_neg hsigma, if_neg hdotted, hsame, toLower_eq_self (by omega)]

/-- the first character of the lower-case form tells the others from these -/
theorem LowersInAscii.of_head {ds : List Char} (h : lowerIn before c after = c.toLower :: ds) :
    LowersInAscii c := by
  intro hbeyond
  have hself : c.toLower = c := toLower_eq_self (by omega)
  rw [hself] at h
  unfold lowerIn at h
  split at h
  · rename_i hsigma
    rw [hsigma] at h
    obtain ⟨hhead, -⟩ := List.cons.inj h
    split at hhead <;> exact absurd hhead (by decide)
  · split at h
    · rename_i hdotted
      rw [hdotted] at h
      exact absurd (List.cons.inj h).1 (by decide)
    · rename_i hdotted
      exact ⟨hdotted, (List.cons.inj h).1⟩

theorem lowered_eq_map_toLower {cs : List Char} :
    lowered before cs = cs.map Char.toLower ↔ ∀ c ∈ cs, LowersInAscii c := by
  induction cs generalizing before with
  | nil => exact iff_of_true rfl (List.forall_mem_nil _)
  | cons c cs ih =>
    rw [lowered, List.map_cons, List.forall_mem_cons]
    constructor
    · intro h
      cases hform : lowerIn before c cs with
      | nil => exact absurd hform (lowerIn_ne_nil before c cs)
      | cons d ds =>
        rw [hform, List.cons_append] at h
        obtain ⟨rfl, -⟩ := List.cons.inj h
        have hc := LowersInAscii.of_head hform
        rw [hc.lowerIn_eq] at hform
        obtain ⟨-, rfl⟩ := List.cons.inj hform
        exact ⟨hc, ih.1 (List.cons.inj h).2⟩
    · intro h
      rw [h.1.lowerIn_eq, ih.2 h.2]
      rfl

end

theorem lowercase_eq_lowerAscii {s : String} :
    lowercase s = lowerAscii s ↔ ∀ c ∈ s.toList, LowersInAscii c := by
  rw [← String.toList_inj, toList_lowercase, lowerAscii, String.toList_map, lowered_eq_map_toLower]

end TransactionKey.Text
