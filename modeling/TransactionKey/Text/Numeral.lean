/-!
# Numbers in text

The digits of a base are `0` to `9` and then letters in either case.

* `digit? base c`         the value of a digit;
* `digits? base cs`       the number that a text of digits spells;
* `unsigned? limit s`     a whole text as a decimal number up to `limit`, perhaps after a plus sign.

Leading zeros are allowed; blanks and separators are not.
-/

namespace TransactionKey.Text

/-- the value of a digit of a base up to 16 -/
def digit? (base : Nat) (c : Char) : Option Nat :=
  let n := c.toNat
  let value? :=
    if 48 ≤ n ∧ n ≤ 57 then some (n - 48)
    else if 65 ≤ n ∧ n ≤ 70 then some (n - 55)
    else if 97 ≤ n ∧ n ≤ 102 then some (n - 87)
    else none
  value?.filter (· < base)

/-- the number that digits spell after the digits of `n` -/
def digitsFrom (base n : Nat) : List Char → Option Nat
  | [] => some n
  | c :: cs =>
    match digit? base c with
    | none => none
    | some d => digitsFrom base (n * base + d) cs

/-- the number that a text of digits spells -/
def digits? (base : Nat) : List Char → Option Nat
  | [] => none
  | cs => digitsFrom base 0 cs

/-- the digits at the head of a text, and the rest -/
def splitDigits (base : Nat) (cs : List Char) : List Char × List Char :=
  cs.span fun c => (digit? base c).isSome

/-- a decimal number up to `limit`, perhaps after a plus sign -/
def unsigned? (limit : Nat) (s : String) : Option Nat :=
  let digits := match s.toList with
    | '+' :: cs => cs
    | cs => cs
  (digits? 10 digits).filter (· ≤ limit)

def unsigned16? (s : String) : Option UInt16 := (unsigned? 65535 s).map UInt16.ofNat

def unsigned64? (s : String) : Option UInt64 :=
  (unsigned? 18446744073709551615 s).map UInt64.ofNat

/-- a decimal number from zero to `limit`, where zero may also have a minus sign -/
def natural? (limit : Nat) (s : String) : Option Nat :=
  match s.toList with
  | '-' :: cs => (digits? 10 cs).filter (· = 0)
  | _ => unsigned? limit s

end TransactionKey.Text
