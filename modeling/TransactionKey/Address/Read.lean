import TransactionKey.Address
import TransactionKey.Text.Numeral

/-!
# Reading addresses

Every reader takes what it reads from the head of a text and gives the rest back; `Address.ofText?` and
`Endpoint.ofText?` insist on reading the whole text.

* version 4 is four decimal numbers up to 255, without leading zeros;
* version 6 is eight groups of one to four hexadecimal digits, where two colons stand for one or more
  zero groups and the last two groups may be written like an address of version 4;
* in an endpoint, the number of a zone may follow an address of version 6 after a percent sign.
-/

namespace TransactionKey.Address

/-- the text after a given character -/
def after? (c : Char) : List Char → Option (List Char)
  | [] => none
  | d :: cs => if d = c then some cs else none

/-- a number up to 255 without leading zeros -/
def octet? (cs : List Char) : Option (UInt8 × List Char) :=
  let (digits, rest) := Text.splitDigits 10 cs
  if 3 < digits.length ∨ (digits.head? = some '0' ∧ digits ≠ ['0']) then none
  else
    match Text.digits? 10 digits with
    | none => none
    | some value => if 255 < value then none else some (UInt8.ofNat value, rest)

def dotted? (cs : List Char) : Option ((UInt8 × UInt8 × UInt8 × UInt8) × List Char) := do
  let (a, cs) ← octet? cs
  let (b, cs) ← octet? (← after? '.' cs)
  let (c, cs) ← octet? (← after? '.' cs)
  let (d, cs) ← octet? (← after? '.' cs)
  return ((a, b, c, d), cs)

/-- a group of one to four hexadecimal digits -/
def group? (cs : List Char) : Option (UInt16 × List Char) :=
  let (digits, rest) := Text.splitDigits 16 cs
  if 4 < digits.length then none
  else (Text.digits? 16 digits).map (UInt16.ofNat ·, rest)

def groupOf (high low : UInt8) : UInt16 := UInt16.ofNat (high.toNat * 256 + low.toNat)

/-- as many groups as there are, up to `room`, with a colon before each but the very first; also says
whether the last two were written with dots -/
def groups (room : Nat) (first : Bool) (cs : List Char) : List UInt16 × Bool × List Char :=
  match room with
  | 0 => ([], false, cs)
  | room + 1 =>
    match if first then some cs else after? ':' cs with
    | none => ([], false, cs)
    | some start =>
      match if 0 < room then dotted? start else none with
      | some ((a, b, c, d), rest) => ([groupOf a b, groupOf c d], true, rest)
      | none =>
        match group? start with
        | none => ([], false, cs)
        | some (g, rest) =>
          let (gs, dots, rest) := groups room false rest
          (g :: gs, dots, rest)

def ofGroups? (gs : List UInt16) : Option Address :=
  if h : gs.length = 8 then some (.v6 ⟨gs.toArray, by simpa using h⟩) else none

def v4? (cs : List Char) : Option (Address × List Char) := do
  let ((a, b, c, d), rest) ← dotted? cs
  return (.v4 a b c d, rest)

def v6? (cs : List Char) : Option (Address × List Char) := do
  let (head, dots, rest) := groups 8 true cs
  if head.length = 8 then return (← ofGroups? head, rest)
  if dots then none
  let (tail, _, rest) := groups (7 - head.length) true (← after? ':' (← after? ':' rest))
  let zeros := List.replicate (8 - head.length - tail.length) 0
  return (← ofGroups? (head ++ zeros ++ tail), rest)

def ofText? (s : String) : Option Address :=
  match v4? s.toList <|> v6? s.toList with
  | some (address, []) => some address
  | _ => none

/-- a text without the opening brackets before it and the closing brackets after it -/
def unbracketed (s : String) : String :=
  let tail := (s.toList.dropWhile (· == '[')).reverse
  String.ofList (tail.dropWhile (· == ']')).reverse

/-- the address that a host name spells, perhaps in brackets -/
def ofHost? (host : String) : Option Address := ofText? (unbracketed host)

end TransactionKey.Address

namespace TransactionKey.Endpoint

/-- a colon and a port, to the end of the text -/
def port? (cs : List Char) : Option UInt16 := do
  let value ← Text.digits? 10 (← Address.after? ':' cs)
  if 65535 < value then none else some (UInt16.ofNat value)

/-- the zone at the head of a text, a percent sign and a number; without that it is the default zone -/
def zone? (cs : List Char) : Option (UInt32 × List Char) :=
  match Address.after? '%' cs with
  | none => some (0, cs)
  | some start => do
    let (digits, rest) := Text.splitDigits 10 start
    let value ← Text.digits? 10 digits
    if 4294967295 < value then none else some (UInt32.ofNat value, rest)

def ofText? (s : String) : Option Endpoint :=
  match Address.v4? s.toList with
  | some (address, rest) => do
    let port ← port? rest
    return { address, port }
  | none => do
    let (address, rest) ← Address.v6? (← Address.after? '[' s.toList)
    let (zone, rest) ← zone? rest
    let port ← port? (← Address.after? ']' rest)
    return { address, port, zone }

end TransactionKey.Endpoint
