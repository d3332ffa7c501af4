/-!
# Byte strings and big-endian numbers

Messages, record data, keys and digests are lists of bytes.  Numbers on the wire are big-endian:

* `bigEndian w n`   the last `w` base-256 digits of `n`;
* `ofBigEndian bs`  the number that `bs` spells;
* `take? n bs`      the first `n` bytes and the rest, if there are that many.

`ofBigEndian_bigEndian` and `bigEndian_ofBigEndian` say that the two forms determine each other.
-/

namespace TransactionKey

abbrev Bytes := List UInt8

/-- the last `w` base-256 digits of `n`, most significant first -/
def bigEndian : Nat → Nat → Bytes
  | 0, _ => []
  | w + 1, n => bigEndian w (n / 256) ++ [UInt8.ofNat n]

/-- the number spelt by base-256 digits -/
def ofBigEndian (bs : Bytes) : Nat :=
  bs.foldl (fun n b => n * 256 + b.toNat) 0

namespace Bytes

/-- the first `n` bytes and what follows them -/
def take? (n : Nat) (bs : Bytes) : Option (Bytes × Bytes) :=
  let head := bs.take n
  if head.length = n then some (head, bs.drop n) else none

end Bytes

/-! ## laws -/

theorem bigEndian_length (w n : Nat) : (bigEndian w n).length = w := by
  induction w generalizing n with
  | zero => rfl
  | succ w ih => simp [bigEndian, ih]

theorem ofBigEndian_concat (bs : Bytes) (b : UInt8) :
    ofBigEndian (bs ++ [b]) = ofBigEndian bs * 256 + b.toNat := by
  simp [ofBigEndian]

theorem ofBigEndian_bigEndian (w n : Nat) :
    ofBigEndian (bigEndian w n) = n % Nat.pow 256 w := by
  induction w generalizing n with
  | zero => exact (Nat.mod_one n).symm
  | succ w ih =>
    rw [bigEndian, ofBigEndian_concat, ih, UInt8.toNat_ofNat']
    have split := Nat.mod_mul (x := n) (a := 256) (b := Nat.pow 256 w)
    rw [show Nat.pow 256 (w + 1) = 256 * Nat.pow 256 w from Nat.mul_comm .., split]
    omega

theorem bigEndian_ofBigEndian (bs : Bytes) : bigEndian bs.length (ofBigEndian bs) = bs := by
  induction hn : bs.length generalizing bs with
  | zero => exact (List.eq_nil_of_length_eq_zero hn).symm
  | succ n ih =>
    obtain ⟨front, b, rfl⟩ : ∃ front b, bs = front ++ [b] :=
      ⟨bs.dropLast, bs.getLast (by rintro rfl; simp at hn), (List.dropLast_concat_getLast _).symm⟩
    have hb : b.toNat < 256 := b.toNat_lt
    have front_length : front.length = n := by simpa using hn
    rw [ofBigEndian_concat, bigEndian,
      show (ofBigEndian front * 256 + b.toNat) / 256 = ofBigEndian front by omega,
      ih front front_length]
    congr 2
    apply UInt8.toNat_inj.1
    rw [UInt8.toNat_ofNat']
    omega

theorem bigEndian_two (n : Nat) : bigEndian 2 n = [UInt8.ofNat (n / 256), UInt8.ofNat n] := rfl

theorem bigEndian_four (n : Nat) :
    bigEndian 4 n = [UInt8.ofNat (n / 256 / 256 / 256), UInt8.ofNat (n / 256 / 256),
      UInt8.ofNat (n / 256), UInt8.ofNat n] := rfl

theorem bigEndian_six (n : Nat) :
    bigEndian 6 n = [UInt8.ofNat (n / 256 / 256 / 256 / 256 / 256),
      UInt8.ofNat (n / 256 / 256 / 256 / 256), UInt8.ofNat (n / 256 / 256 / 256),
      UInt8.ofNat (n / 256 / 256), UInt8.ofNat (n / 256), UInt8.ofNat n] := rfl

theorem ofBigEndian_lt {w : Nat} {bs : Bytes} (h : bs.length = w) :
    ofBigEndian bs < Nat.pow 256 w := by
  have hread := ofBigEndian_bigEndian bs.length (ofBigEndian bs)
  rw [bigEndian_ofBigEndian, h] at hread
  rw [hread]
  exact Nat.mod_lt _ (Nat.pow_pos (by decide))

theorem ofBigEndian_bigEndian_of_lt {w n : Nat} (h : n < Nat.pow 256 w) :
    ofBigEndian (bigEndian w n) = n := by rw [ofBigEndian_bigEndian, Nat.mod_eq_of_lt h]

theorem bigEndian_mod (w n : Nat) : bigEndian w (n % Nat.pow 256 w) = bigEndian w n := by
  have hread := bigEndian_ofBigEndian (bigEndian w n)
  rwa [bigEndian_length, ofBigEndian_bigEndian] at hread

theorem bigEndian_inj {w m n : Nat} (hm : m < Nat.pow 256 w) (hn : n < Nat.pow 256 w)
    (h : bigEndian w m = bigEndian w n) : m = n := by
  rw [← ofBigEndian_bigEndian_of_lt hm, h, ofBigEndian_bigEndian_of_lt hn]

/-- a number of sixteen bits is spelt by two bytes -/
theorem ofBigEndian_uint16 (x : UInt16) :
    UInt16.ofNat (ofBigEndian (bigEndian 2 x.toNat)) = x := by
  rw [ofBigEndian_bigEndian_of_lt x.toNat_lt, UInt16.ofNat_toNat]

/-- a number of thirty-two bits is spelt by four bytes -/
theorem ofBigEndian_uint32 (x : UInt32) :
    UInt32.ofNat (ofBigEndian (bigEndian 4 x.toNat)) = x := by
  rw [ofBigEndian_bigEndian_of_lt x.toNat_lt, UInt32.ofNat_toNat]

theorem bigEndian_uint16 (b1 b0 : UInt8) :
    bigEndian 2 (UInt16.ofNat (ofBigEndian [b1, b0])).toNat = [b1, b0] := by
  rw [UInt16.toNat_ofNat', bigEndian_mod 2]
  exact bigEndian_ofBigEndian [b1, b0]

theorem bigEndian_uint32 (b3 b2 b1 b0 : UInt8) :
    bigEndian 4 (UInt32.ofNat (ofBigEndian [b3, b2, b1, b0])).toNat = [b3, b2, b1, b0] := by
  rw [UInt32.toNat_ofNat', bigEndian_mod 4]
  exact bigEndian_ofBigEndian [b3, b2, b1, b0]

theorem Bytes.take?_append (a rest : Bytes) : Bytes.take? a.length (a ++ rest) = some (a, rest) := by
  simp [Bytes.take?]

theorem Bytes.take?_eq_some {n : Nat} {bs a rest : Bytes} (h : Bytes.take? n bs = some (a, rest)) :
    bs = a ++ rest ∧ a.length = n := by
  simp only [Bytes.take?] at h
  split at h
  · rename_i hlen
    obtain ⟨rfl, rfl⟩ := Prod.mk.inj (Option.some.inj h)
    exact ⟨(List.take_append_drop n bs).symm, hlen⟩
  · cases h

theorem Bytes.take?_append_right {n : Nat} {bs a rest : Bytes} (h : take? n bs = some (a, rest))
    (more : Bytes) : take? n (bs ++ more) = some (a, rest ++ more) := by
  obtain ⟨rfl, rfl⟩ := take?_eq_some h
  rw [List.append_assoc, take?_append]

theorem Bytes.take?_eq_none {n : Nat} {bs : Bytes} : take? n bs = none ↔ bs.length < n := by
  rw [take?, List.length_take, ite_eq_right_iff]
  simp only [reduceCtorEq, imp_false]
  omega

/-- what is left at an offset is nothing, or as much as the difference says -/
theorem Bytes.drop_cases {bs : Bytes} {offset : Nat} (h : offset ≤ bs.length) :
    offset = bs.length ∧ bs.drop offset = [] ∨
      offset ≠ bs.length ∧ ∃ b rest, bs.drop offset = b :: rest ∧
        (b :: rest).length = bs.length - offset := by
  cases hdrop : bs.drop offset with
  | nil => exact .inl ⟨Nat.le_antisymm h (List.drop_eq_nil_iff.1 hdrop), rfl⟩
  | cons b rest =>
    refine .inr ⟨?_, b, rest, rfl, ?_⟩
    · rintro rfl
      rw [List.drop_length] at hdrop
      cases hdrop
    · rw [← hdrop, List.length_drop]

end TransactionKey
