/-!
# White space

`isBlank` is the Unicode property White_Space, and `trim` cuts blanks off both ends of a text.
-/

namespace TransactionKey.Text

/-- the Unicode property White_Space -/
def isBlank (c : Char) : Bool :=
  let n := c.toNat
  (9 ≤ n && n ≤ 13) || n == 0x20 || n == 0x85 || n == 0xA0 || n == 0x1680
    || (0x2000 ≤ n && n ≤ 0x200A) || n == 0x2028 || n == 0x2029 || n == 0x202F || n == 0x205F
    || n == 0x3000

def trim (s : String) : String :=
  let tail := (s.toList.dropWhile isBlank).reverse
  String.ofList (tail.dropWhile isBlank).reverse

end TransactionKey.Text
