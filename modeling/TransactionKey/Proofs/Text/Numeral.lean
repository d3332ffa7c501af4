import Mathlib.Tactic.SplitIfs
import TransactionKey.Text.Numeral

/-!
# Decimal numbers in text

What the readers of `Text.Numeral` accept, without them: a text spells a number if it consists of
decimal digits that have this value (`unsigned?_eq_some_iff`), and it is read as a number of sixteen
or sixty-four bits if it spells one of that size.
-/

namespace TransactionKey.Text

/-- one or more of the digits `0` to `9` with the value `n`, perhaps after a plus sign -/
def Spells (s : String) (n : Nat) : Prop :=
  ∃ digits : List Char, digits ≠ [] ∧ (∀ c ∈ digits, c.isDigit) ∧
    (s.toList = digits ∨ s.toList = '+' :: digits) ∧ n = Nat.ofDigitChars 10 digits 0

theorem digit?_of_isDigit {c : Char} (h : c.isDigit) : digit? 10 c = some (c.toNat - 48) := by
  have hrange : 48 ≤ c.toNat ∧ c.toNat ≤ 57 := Char.isDigit_iff_toNat.1 h
  have hsmall : c.toNat - 48 < 10 := by omega
  rw [digit?, if_pos hrange, Option.filter_some, if_pos (decide_eq_true hsmall)]

theorem digit?_of_not_isDigit {c : Char} (h : ¬ c.isDigit) : digit? 10 c = none := by
  have hrange : ¬ (48 ≤ c.toNat ∧ c.toNat ≤ 57) := mt Char.isDigit_iff_toNat.2 h
  -- the letters are digits of a larger base
  rw [digit?, if_neg hrange, Option.filter_eq_none_iff]
  intro d hd
  split_ifs at hd
  all_goals
    obtain rfl := Option.some.inj hd
    simp only [decide_eq_true_eq]
    omega

/-- the digits that are read go on with the digits of `n` -/
theorem digitsFrom_ten {n m : Nat} {cs : List Char} :
    digitsFrom 10 n cs = some m ↔ (∀ c ∈ cs, c.isDigit) ∧ m = Nat.ofDigitChars 10 cs n := by
  induction cs generalizing n with
  | nil =>
    rw [digitsFrom, Option.some_inj, Nat.ofDigitChars_nil]
    exact ⟨fun h => ⟨nofun, h.symm⟩, fun h => h.2.symm⟩
  | cons c cs ih =>
    rw [digitsFrom, List.forall_mem_cons]
    by_cases hc : c.isDigit
    · rw [digit?_of_isDigit hc, and_iff_right hc, Nat.ofDigitChars_cons, Nat.mul_comm 10 n]
      exact ih
    · rw [digit?_of_not_isDigit hc]
      exact iff_of_false nofun fun h => hc h.1.1

theorem digits?_ten {n : Nat} {cs : List Char} :
    digits? 10 cs = some n ↔
      cs ≠ [] ∧ (∀ c ∈ cs, c.isDigit) ∧ n = Nat.ofDigitChars 10 cs 0 := by
  cases cs with
  | nil => exact iff_of_false nofun fun h => h.1 rfl
  | cons c cs =>
    rw [and_iff_right (List.cons_ne_nil c cs)]
    exact digitsFrom_ten

theorem unsigned?_eq_some_iff {limit n : Nat} {s : String} :
    unsigned? limit s = some n ↔ Spells s n ∧ n ≤ limit := by
  rw [unsigned?, Option.filter_eq_some_iff, decide_eq_true_eq, digits?_ten]
  refine and_congr_left fun _ => ⟨?_, ?_⟩
  · rintro ⟨hne, hdigits, hvalue⟩
    refine ⟨_, hne, hdigits, ?_, hvalue⟩
    split
    · exact .inr ‹_›
    · exact .inl rfl
  · rintro ⟨digits, hne, hdigits, htext | htext, hvalue⟩
    · have hunsigned : ∀ cs, digits ≠ '+' :: cs := by
        rintro cs rfl
        have := hdigits '+' (List.mem_cons_self ..)
        contradiction
      rw [htext]
      split
      · exact absurd rfl (hunsigned _)
      · exact ⟨hne, hdigits, hvalue⟩
    · rw [htext]
      exact ⟨hne, hdigits, hvalue⟩

/-- a fixed-width number is read from a text that spells it, whatever the width -/
theorem map_unsigned?_eq_some_iff {α : Type} {ofNat : Nat → α} {toNat : α → Nat} {limit : Nat}
    (hlimit : ∀ a, toNat a ≤ limit) (hofNat : ∀ n ≤ limit, toNat (ofNat n) = n)
    (htoNat : ∀ a, ofNat (toNat a) = a) {a : α} {s : String} :
    (unsigned? limit s).map ofNat = some a ↔ Spells s (toNat a) := by
  rw [Option.map_eq_some_iff]
  constructor
  · rintro ⟨n, hn, rfl⟩
    obtain ⟨hspells, hfits⟩ := unsigned?_eq_some_iff.1 hn
    rwa [hofNat n hfits]
  · intro h
    exact ⟨toNat a, unsigned?_eq_some_iff.2 ⟨h, hlimit a⟩, htoNat a⟩

theorem unsigned16?_eq_some_iff {n : UInt16} {s : String} :
    unsigned16? s = some n ↔ Spells s n.toNat :=
  map_unsigned?_eq_some_iff (fun n => Nat.le_of_lt_succ n.toNat_lt)
    (fun _ h => UInt16.toNat_ofNat_of_lt' (Nat.lt_succ_of_le h)) fun _ => UInt16.ofNat_toNat

theorem unsigned64?_eq_some_iff {n : UInt64} {s : String} :
    unsigned64? s = some n ↔ Spells s n.toNat :=
  map_unsigned?_eq_some_iff (fun n => Nat.le_of_lt_succ n.toNat_lt)
    (fun _ h => UInt64.toNat_ofNat_of_lt' (Nat.lt_succ_of_le h)) fun _ => UInt64.ofNat_toNat

end TransactionKey.Text
