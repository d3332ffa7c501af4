import TransactionKey.Text.Utf8

/-!
# Base64 with the standard alphabet and required padding

Four symbols of six bits spell three bytes.  The last one to four bytes of a text are its last group,
where `=` may stand in for the third and fourth symbol; everything before it is symbols only.  A
text is accepted only in its canonical form: padded to a multiple of four and with unused bits zero.
-/

namespace TransactionKey.Base64

inductive Fault where
  | badSymbol (byte : UInt8) (position : Nat)
  | badLength (length : Nat)
  | badLastSymbol (byte : UInt8) (position : Nat)
  | badPadding
deriving DecidableEq, Repr

def Fault.message : Fault → String
  | .badSymbol byte position => s!"Invalid symbol {byte}, offset {position}."
  | .badLength length => s!"Invalid input length: {length}"
  | .badLastSymbol byte position => s!"Invalid last symbol {byte}, offset {position}."
  | .badPadding => "Invalid padding"

def pad : UInt8 := 61

/-- the six bits of a symbol -/
def value? (b : UInt8) : Option Nat :=
  if 65 ≤ b ∧ b ≤ 90 then some (b.toNat - 65)
  else if 97 ≤ b ∧ b ≤ 122 then some (b.toNat - 71)
  else if 48 ≤ b ∧ b ≤ 57 then some (b.toNat + 4)
  else if b = 43 then some 62
  else if b = 47 then some 63
  else none

/-- the values of symbols from `position` on; `done` holds those so far, last one first -/
def symbols (position : Nat) (done : List Nat) : Bytes → Except Fault (List Nat)
  | [] => .ok done.reverse
  | b :: rest =>
    match value? b with
    | none => .error (.badSymbol b position)
    | some v => symbols (position + 1) (v :: done) rest

/-- the bytes of complete groups of four symbols; `done` holds those so far, last byte first -/
def groups (done : Bytes) : List Nat → Bytes
  | a :: b :: c :: d :: rest =>
    let n := ((a * 64 + b) * 64 + c) * 64 + d
    groups (UInt8.ofNat n :: UInt8.ofNat (n / 256) :: UInt8.ofNat (n / 65536) :: done) rest
  | _ => done.reverse

/-- the symbols of the last group and the number of padding signs after them -/
structure LastGroup where
  symbols : List (UInt8 × Nat)
  pads : Nat

/-- reads the last group, `place` bytes into it, where the text has it at `start` -/
def lastGroup (start place : Nat) (group : LastGroup) : Bytes → Except Fault LastGroup
  | [] => .ok group
  | b :: rest =>
    if b = pad then
      if place < 2 then .error (.badSymbol b (start + place))
      else lastGroup start (place + 1) { group with pads := group.pads + 1 } rest
    else if 0 < group.pads then .error (.badSymbol pad (start + (place - group.pads)))
    else
      match value? b with
      | none => .error (.badSymbol b (start + place))
      | some v =>
        lastGroup start (place + 1) { group with symbols := group.symbols ++ [(b, v)] } rest

/-- the one to three bytes of the last group, which the text has at `start` -/
def LastGroup.bytes (start : Nat) (group : LastGroup) : Except Fault Bytes :=
  let count := group.symbols.length
  if count < 2 then .error (.badLength (start + count))
  else if (count + group.pads) % 4 ≠ 0 then .error .badPadding
  else
    let whole := count * 6 / 8
    let unused := count * 6 - whole * 8
    let n := group.symbols.foldl (fun n symbol => n * 64 + symbol.2) 0
    match group.symbols.getLast? with
    | none => .ok []
    | some (b, _) =>
      if n % (1 <<< unused) ≠ 0 then .error (.badLastSymbol b (start + (count - 1)))
      else .ok (bigEndian whole (n >>> unused))

/-- the fault of a text one byte longer than whole groups, if that byte can be no symbol -/
def strayEnd? (bytes : Bytes) : Option Fault :=
  match bytes.length % 4, bytes.getLast? with
  | 1, some b =>
    if b = pad ∨ (value? b).isSome then none else some (.badSymbol b (bytes.length - 1))
  | _, _ => none

def decode (text : String) : Except Fault Bytes := do
  let bytes := Text.utf8 text
  if bytes.isEmpty then return []
  if let some fault := strayEnd? bytes then throw fault
  let start := (bytes.length - 1) / 4 * 4
  let values ← symbols 0 [] (bytes.take start)
  let last ← lastGroup start 0 ⟨[], 0⟩ (bytes.drop start)
  let ending ← last.bytes start
  return groups [] values ++ ending

end TransactionKey.Base64
