import TransactionKey.Text.Utf8

/-!
# Lowered ASCII letters in UTF-8

`utf8_lowerAscii` says that lowering the ASCII letters of a text lowers its bytes one by one, so no
length changes.
-/

namespace TransactionKey.Text

theorem utf8_eq_flatMap (s : String) : utf8 s = s.toList.flatMap String.utf8EncodeChar := by
  show s.toByteArray.data.toList = _
  rw [← String.utf8Encode_toList, List.utf8Encode]
  simp

theorem lowerByte_ofNat_high {n : Nat} (h : 128 ≤ n % 256) :
    lowerByte (UInt8.ofNat n) = UInt8.ofNat n := by
  refine if_neg fun hb => ?_
  have hle := UInt8.le_iff_toNat_le.1 hb.2
  rw [UInt8.toNat_ofNat'] at hle
  have : (90 : UInt8).toNat = 90 := rfl
  omega

theorem utf8EncodeChar_ascii {c : Char} (h : c.val.toNat ≤ 127) :
    String.utf8EncodeChar c = [UInt8.ofNat c.val.toNat] := by
  unfold String.utf8EncodeChar
  dsimp only
  rw [if_pos h]

theorem lowerByte_utf8EncodeChar {c : Char} (h : ¬ c.val.toNat ≤ 127) :
    (String.utf8EncodeChar c).map lowerByte = String.utf8EncodeChar c := by
  unfold String.utf8EncodeChar
  dsimp only
  rw [if_neg h]
  split
  · simp only [List.map_cons, List.map_nil]
    rw [lowerByte_ofNat_high (by omega), lowerByte_ofNat_high (by omega)]
  · split <;> simp only [List.map_cons, List.map_nil]
    · rw [lowerByte_ofNat_high (by omega), lowerByte_ofNat_high (by omega),
        lowerByte_ofNat_high (by omega)]
    · rw [lowerByte_ofNat_high (by omega), lowerByte_ofNat_high (by omega),
        lowerByte_ofNat_high (by omega), lowerByte_ofNat_high (by omega)]

theorem toNat_ofNat_ascii {c : Char} (h : c.val.toNat ≤ 127) :
    (UInt8.ofNat c.val.toNat).toNat = c.val.toNat := by
  rw [UInt8.toNat_ofNat']
  omega

/-- a capital letter is lowered by thirty-two -/
theorem toLower_capital {c : Char} (h : c.val ≥ 'A'.val ∧ c.val ≤ 'Z'.val) :
    65 ≤ c.val.toNat ∧ c.val.toNat ≤ 90 ∧ c.toLower.val.toNat = c.val.toNat + 32 := by
  have hlow : 65 ≤ c.val.toNat := UInt32.le_iff_toNat_le.1 h.1
  have hhigh : c.val.toNat ≤ 90 := UInt32.le_iff_toNat_le.1 h.2
  have hval : c.toLower.val = c.val + ('a'.val - 'A'.val) := congrArg Char.val (dif_pos h)
  refine ⟨hlow, hhigh, ?_⟩
  rw [hval, UInt32.toNat_add]
  have : ('a'.val - 'A'.val).toNat = 32 := rfl
  omega

theorem toLower_eq_dot (c : Char) : c.toLower = '.' ↔ c = '.' := by
  by_cases h : c.val ≥ 'A'.val ∧ c.val ≤ 'Z'.val
  · obtain ⟨hlow, hhigh, hsum⟩ := toLower_capital h
    refine iff_of_false (fun heq => ?_) ?_
    · rw [heq, show ('.').val.toNat = 46 from rfl] at hsum
      omega
    · rintro rfl
      exact absurd hlow (by decide)
  · rw [show c.toLower = c from dif_neg h]

theorem utf8EncodeChar_toLower (c : Char) :
    String.utf8EncodeChar c.toLower = (String.utf8EncodeChar c).map lowerByte := by
  by_cases h : c.val ≥ 'A'.val ∧ c.val ≤ 'Z'.val
  · obtain ⟨hlow, hhigh, hsum⟩ := toLower_capital h
    have hcap : 65 ≤ UInt8.ofNat c.val.toNat ∧ UInt8.ofNat c.val.toNat ≤ 90 := by
      rw [UInt8.le_iff_toNat_le, UInt8.le_iff_toNat_le, toNat_ofNat_ascii (by omega)]
      exact ⟨hlow, hhigh⟩
    rw [utf8EncodeChar_ascii (by omega), utf8EncodeChar_ascii (by omega), hsum, UInt8.ofNat_add,
      List.map_singleton, lowerByte, if_pos hcap]
    rfl
  · have hsame : c.toLower = c := dif_neg h
    rw [hsame]
    by_cases hascii : c.val.toNat ≤ 127
    · rw [utf8EncodeChar_ascii hascii, List.map_singleton, lowerByte, if_neg]
      intro hb
      rw [UInt8.le_iff_toNat_le, UInt8.le_iff_toNat_le, toNat_ofNat_ascii hascii] at hb
      exact h ⟨UInt32.le_iff_toNat_le.2 hb.1, UInt32.le_iff_toNat_le.2 hb.2⟩
    · exact (lowerByte_utf8EncodeChar hascii).symm

theorem utf8_lowerAscii (s : String) : utf8 (lowerAscii s) = (utf8 s).map lowerByte := by
  rw [utf8_eq_flatMap, utf8_eq_flatMap, lowerAscii, String.toList_map, List.map_flatMap,
    List.flatMap_map]
  exact congrArg (s.toList.flatMap ·) (funext utf8EncodeChar_toLower)

theorem lowerAscii_eq_ofList (s : String) :
    lowerAscii s = String.ofList (s.toList.map Char.toLower) := by
  rw [← String.toList_inj, lowerAscii, String.toList_map, String.toList_ofList]

theorem utf8ByteSize_lowerAscii (s : String) : (lowerAscii s).utf8ByteSize = s.utf8ByteSize := by
  rw [← utf8_length, utf8_lowerAscii, List.length_map, utf8_length]

theorem lowerAscii_eq_empty {s : String} : lowerAscii s = "" ↔ s = "" := by
  rw [← String.utf8ByteSize_eq_zero_iff, utf8ByteSize_lowerAscii, String.utf8ByteSize_eq_zero_iff]

theorem lowerAscii_append (s t : String) : lowerAscii (s ++ t) = lowerAscii s ++ lowerAscii t := by
  rw [← String.toList_inj]
  simp only [lowerAscii, String.toList_map, String.toList_append, List.map_append]

theorem lowerAscii_dot : lowerAscii "." = "." := by
  rw [lowerAscii_eq_ofList]
  rfl

end TransactionKey.Text
