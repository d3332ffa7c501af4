import TransactionKey.Bytes

/-!
# Text and its UTF-8 bytes

`utf8 s` are the bytes of a text and `ofUtf8? bs` is the text of valid bytes; each undoes the other
(`ofUtf8?_utf8`, `utf8_of_ofUtf8?`).  `lowerByte` and `lowerAscii` lower the letters `A` to `Z` and
leave everything else alone, so they keep lengths.
-/

namespace TransactionKey.Text

/-- the UTF-8 bytes of a text -/
def utf8 (s : String) : Bytes := s.toUTF8.data.toList

/-- the text of a byte string, if that is valid UTF-8 -/
def ofUtf8? (bs : Bytes) : Option String := String.fromUTF8? ⟨bs.toArray⟩

def lowerByte (b : UInt8) : UInt8 := if 65 ≤ b ∧ b ≤ 90 then b + 32 else b

def lowerAscii (s : String) : String := s.map Char.toLower

def sameAscii (s t : String) : Bool := lowerAscii s == lowerAscii t

/-! ## laws -/

theorem ofUtf8?_utf8 (s : String) : ofUtf8? (utf8 s) = some s := by
  simp only [ofUtf8?, utf8, Array.toArray_toList, String.fromUTF8?]
  exact dif_pos s.isValidUTF8

theorem utf8_of_ofUtf8? {bs : Bytes} {s : String} (h : ofUtf8? bs = some s) : utf8 s = bs := by
  simp only [ofUtf8?, String.fromUTF8?] at h
  split at h
  · obtain rfl := Option.some.inj h
    simp [utf8, String.fromUTF8]
  · cases h

theorem utf8_length (s : String) : (utf8 s).length = s.utf8ByteSize := rfl

theorem utf8_injective {s t : String} (h : utf8 s = utf8 t) : s = t := by
  have := ofUtf8?_utf8 s
  rw [h, ofUtf8?_utf8] at this
  exact (Option.some.inj this).symm

end TransactionKey.Text
