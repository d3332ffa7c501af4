import TransactionKey.Hex
import TransactionKey.Proofs.Text.Lower

/-!
# Hexadecimal text

* `decode_eq_ok`    a text is decoded to the bytes that its lower-case form writes;
* `decode_encode`   so what `encode` writes is decoded to the same bytes;
* `decode_iff_spells`   which texts are decoded: those of two digits for each byte.
-/

namespace TransactionKey.Hex

/-- the byte of a lower-case digit -/
def digitByte (n : Nat) : UInt8 := UInt8.ofNat (digit n).val.toNat

theorem digit_ascii {n : Nat} (h : n < 16) : (digit n).val.toNat ≤ 127 := by
  have all : ∀ k : Fin 16, (digit k.val).val.toNat ≤ 127 := by decide
  exact all ⟨n, h⟩

theorem value?_digitByte {n : Nat} (h : n < 16) : value? (digitByte n) = some n := by
  have all : ∀ k : Fin 16, value? (digitByte k.val) = some k.val := by decide
  exact all ⟨n, h⟩

/-- the two digits of a byte -/
def spell (b : UInt8) : Bytes := [digitByte (b.toNat / 16), digitByte (b.toNat % 16)]

theorem utf8_encode (bs : Bytes) : Text.utf8 (encode bs) = bs.flatMap spell := by
  rw [Text.utf8_eq_flatMap, encode, String.toList_ofList, digits, List.flatMap_assoc]
  refine congrArg (bs.flatMap ·) (funext fun b => ?_)
  have hb := b.toNat_lt
  rw [List.flatMap_cons, List.flatMap_singleton, Text.utf8EncodeChar_ascii (digit_ascii (by omega)),
    Text.utf8EncodeChar_ascii (digit_ascii (by omega))]
  rfl

theorem spell_length (bs : Bytes) : (bs.flatMap spell).length = 2 * bs.length := by
  induction bs with
  | nil => rfl
  | cons b bs ih =>
    rw [List.flatMap_cons, List.length_append, ih, List.length_cons]
    show 2 + 2 * bs.length = _
    omega

theorem value?_lowerByte (b : UInt8) : value? (Text.lowerByte b) = value? b := by
  have all : ∀ k : Fin 256,
      value? (Text.lowerByte (UInt8.ofNat k.val)) = value? (UInt8.ofNat k.val) := by
    decide +kernel
  have := all ⟨b.toNat, b.toNat_lt⟩
  rwa [UInt8.ofNat_toNat] at this

/-- the byte of a digit in either case -/
theorem value?_eq_some {b : UInt8} {v : Nat} :
    value? b = some v ↔ v < 16 ∧ Text.lowerByte b = digitByte v := by
  constructor
  · intro h
    have all : ∀ k : Fin 256, ∀ v ∈ value? (UInt8.ofNat k.val),
        v < 16 ∧ Text.lowerByte (UInt8.ofNat k.val) = digitByte v := by
      decide +kernel
    have := all ⟨b.toNat, b.toNat_lt⟩
    rw [UInt8.ofNat_toNat] at this
    exact this v h
  · rintro ⟨hv, hb⟩
    rw [← value?_lowerByte, hb, value?_digitByte hv]

/-- pairs of digits are read as the bytes that they spell once they are lowered -/
theorem pairs_eq_ok {position : Nat} {done raw bytes : Bytes} (heven : raw.length % 2 = 0) :
    pairs position done raw = .ok bytes ↔
      ∃ bs, bytes = done.reverse ++ bs ∧ raw.map Text.lowerByte = bs.flatMap spell := by
  constructor
  · intro h
    fun_induction pairs position done raw with
    | case1 | case2 => cases h
    | case3 position done high low rest high' low' hlow hhigh ih =>
      obtain ⟨bs, rfl, hrest⟩ := ih (by simp only [List.length_cons] at heven; omega) h
      obtain ⟨hh, hhighByte⟩ := value?_eq_some.1 hhigh
      obtain ⟨hl, hlowByte⟩ := value?_eq_some.1 hlow
      have hbyte : (UInt8.ofNat (high' * 16 + low')).toNat = high' * 16 + low' := by
        rw [UInt8.toNat_ofNat']
        omega
      refine ⟨UInt8.ofNat (high' * 16 + low') :: bs, by simp, ?_⟩
      rw [List.map_cons, List.map_cons, hrest, hhighByte, hlowByte, List.flatMap_cons, spell, hbyte,
        show (high' * 16 + low') / 16 = high' by omega,
        show (high' * 16 + low') % 16 = low' by omega]
      rfl
    | case4 raw position done hshort =>
      obtain rfl := Except.ok.inj h
      match raw, hshort with
      | [], _ => exact ⟨[], (List.append_nil _).symm, rfl⟩
      | [_], _ => simp at heven
      | high :: low :: rest, hshort => exact absurd rfl (hshort high low rest)
  · rintro ⟨bs, rfl, hraw⟩
    -- along the bytes that are spelt: each gives `pairs` two digits
    induction bs generalizing position done raw with
    | nil =>
      obtain rfl := List.map_eq_nil_iff.1 hraw
      rw [pairs, List.append_nil]
      nofun
    | cons b bs ih =>
      have hb := b.toNat_lt
      obtain ⟨high, _, rfl, hhigh, hraw⟩ := List.map_eq_cons_iff.1 hraw
      obtain ⟨low, rest, rfl, hlow, hrest⟩ := List.map_eq_cons_iff.1 hraw
      have hhigh' := value?_eq_some.2 ⟨show b.toNat / 16 < 16 by omega, hhigh⟩
      have hlow' := value?_eq_some.2 ⟨show b.toNat % 16 < 16 by omega, hlow⟩
      have hbyte : UInt8.ofNat (b.toNat / 16 * 16 + b.toNat % 16) = b := by
        rw [show b.toNat / 16 * 16 + b.toNat % 16 = b.toNat by omega, UInt8.ofNat_toNat]
      rw [pairs]
      simp only [hhigh', hlow', hbyte]
      rw [ih (by simp only [List.length_cons] at heven; omega) hrest, List.reverse_cons,
        List.append_assoc, List.singleton_append]

theorem decode_eq_ok {text : String} {bytes : Bytes} :
    decode text = .ok bytes ↔ Text.lowerAscii text = encode bytes := by
  have hspell : (Text.utf8 text).map Text.lowerByte = bytes.flatMap spell ↔
      Text.lowerAscii text = encode bytes := by
    rw [← Text.utf8_lowerAscii, ← utf8_encode]
    exact ⟨Text.utf8_injective, congrArg Text.utf8⟩
  unfold decode
  dsimp only
  split
  · rename_i hodd
    refine iff_of_false nofun fun h => ?_
    have hlength := congrArg List.length (hspell.2 h)
    rw [List.length_map, spell_length] at hlength
    omega
  · rename_i heven
    rw [pairs_eq_ok (by omega), ← hspell]
    simp

theorem lowerAscii_encode (bs : Bytes) : Text.lowerAscii (encode bs) = encode bs := by
  apply Text.utf8_injective
  rw [Text.utf8_lowerAscii, utf8_encode, List.map_flatMap]
  refine congrArg (bs.flatMap ·) (funext fun b => ?_)
  have hb := b.toNat_lt
  have hlower {n : Nat} (h : n < 16) : Text.lowerByte (digitByte n) = digitByte n :=
    (value?_eq_some.1 (value?_digitByte h)).2
  rw [spell, List.map_cons, List.map_singleton, hlower (by omega), hlower (by omega)]

theorem decode_encode (bs : Bytes) : decode (encode bs) = .ok bs :=
  decode_eq_ok.2 (lowerAscii_encode bs)

/-! ## texts that are decoded -/

/-- a digit in either case -/
def IsDigit (c : Char) : Prop := c.toLower ∈ "0123456789abcdef".toList

instance (c : Char) : Decidable (IsDigit c) := inferInstanceAs (Decidable (_ ∈ _))

/-- two digits for each of `n` bytes -/
structure Spells (text : String) (n : Nat) : Prop where
  digits : ∀ c ∈ text.toList, IsDigit c
  size : text.length = 2 * n

theorem isDigit_iff {c : Char} : IsDigit c ↔ ∃ v, v < 16 ∧ digit v = c.toLower := by
  have hdigits : "0123456789abcdef".toList = (List.range 16).map digit := by decide
  unfold IsDigit
  rw [hdigits, List.mem_map]
  simp only [List.mem_range]

theorem digits_cons (b : UInt8) (bs : Bytes) :
    digits (b :: bs) = digit (b.toNat / 16) :: digit (b.toNat % 16) :: digits bs := rfl

theorem length_digits (bs : Bytes) : (digits bs).length = 2 * bs.length := by
  induction bs with
  | nil => rfl
  | cons b bs ih =>
    rw [digits_cons, List.length_cons, List.length_cons, ih, List.length_cons]
    omega

theorem isDigit_of_mem_digits {bs : Bytes} {c : Char} (h : c.toLower ∈ digits bs) : IsDigit c := by
  obtain ⟨b, -, hc⟩ := List.mem_flatMap.1 h
  have hb := b.toNat_lt
  simp only [List.mem_cons, List.not_mem_nil, or_false] at hc
  rcases hc with hc | hc
  · exact isDigit_iff.2 ⟨b.toNat / 16, by omega, hc.symm⟩
  · exact isDigit_iff.2 ⟨b.toNat % 16, by omega, hc.symm⟩

theorem exists_digits {cs : List Char} {n : Nat} (h : ∀ c ∈ cs, IsDigit c)
    (hlength : cs.length = 2 * n) : ∃ bs, cs.map Char.toLower = digits bs ∧ bs.length = n := by
  induction n generalizing cs with
  | zero =>
    obtain rfl := List.eq_nil_of_length_eq_zero hlength
    exact ⟨[], rfl, rfl⟩
  | succ n ih =>
    match cs, hlength with
    | c :: d :: cs, hlength =>
      obtain ⟨high, hhigh, hc⟩ := isDigit_iff.1 (h c (by simp))
      obtain ⟨low, hlow, hd⟩ := isDigit_iff.1 (h d (by simp))
      have hcs : ∀ c ∈ cs, IsDigit c := fun c hc => h c (by simp [hc])
      obtain ⟨bs, hrest, hsize⟩ := ih hcs (by simp only [List.length_cons] at hlength; omega)
      have hbyte : (UInt8.ofNat (high * 16 + low)).toNat = high * 16 + low := by
        rw [UInt8.toNat_ofNat']
        omega
      refine ⟨UInt8.ofNat (high * 16 + low) :: bs, ?_, congrArg (· + 1) hsize⟩
      rw [digits_cons, hbyte, show (high * 16 + low) / 16 = high by omega,
        show (high * 16 + low) % 16 = low by omega, List.map_cons, List.map_cons, hrest, hc, hd]

theorem decode_iff_spells {text : String} {n : Nat} :
    (∃ bytes, decode text = .ok bytes ∧ bytes.length = n) ↔ Spells text n := by
  have hchars (bytes : Bytes) : decode text = .ok bytes ↔
      text.toList.map Char.toLower = digits bytes := by
    rw [decode_eq_ok, Text.lowerAscii_eq_ofList, encode, String.ofList_inj]
  simp only [hchars]
  constructor
  · rintro ⟨bytes, hbytes, rfl⟩
    refine ⟨fun c hc => ?_, ?_⟩
    · exact isDigit_of_mem_digits (hbytes ▸ List.mem_map_of_mem hc)
    · rw [← String.length_toList, ← length_digits, ← hbytes, List.length_map]
  · intro h
    exact exists_digits h.digits (String.length_toList ▸ h.size)

end TransactionKey.Hex
