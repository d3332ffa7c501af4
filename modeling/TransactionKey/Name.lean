import TransactionKey.WireError

/-!
# Domain names

A name is a list of labels.  A complete name ends with the empty root label; empty labels are never
written, so `proper` are the labels that count.

* `ofText`, `toText`   the dotted form; the root is `"."`;
* `check`              the limits of the wire form: 63 bytes a label, 255 bytes a name;
* `toWire`             the uncompressed wire form;
* `canonicalWire`      the same with ASCII letters lowered, the form that signatures cover.
-/

namespace TransactionKey

abbrev Name := List String

namespace Name

/-- the labels that are written: all but the empty ones -/
def proper (name : Name) : List String := name.filter (· ≠ "")

/-! ## dotted text -/

/-- the part of a text before its first dot, and the parts after each dot -/
def fields (cs : List Char) : List Char × List (List Char) :=
  cs.foldr
    (fun c (first, others) => if c = '.' then ([], first :: others) else (c :: first, others))
    ([], [])

/-- the name that a dotted text spells: its non-empty parts and the root label -/
def ofText (text : String) : Name :=
  let (first, others) := fields text.toList
  ((first :: others).filter (· ≠ [])).map String.ofList ++ [""]

/-- the dotted form, with a dot after every label -/
def toText (name : Name) : String :=
  match name.proper with
  | [] => "."
  | labels => String.join (labels.map (· ++ "."))

/-! ## wire form -/

def wireLength (name : Name) : Nat :=
  name.proper.foldl (fun n label => n + (label.utf8ByteSize + 1)) 1

/-- checks the limits of the wire form: first of each label, then of the whole name -/
def check (name : Name) : Except WireError Unit :=
  match name.proper.find? fun label => 63 < label.utf8ByteSize with
  | some label => .error (.labelTooLong label.utf8ByteSize)
  | none => if 255 < name.wireLength then .error .nameTooLong else .ok ()

/-- the labels, each after its length, and a zero byte -/
def encode (name : Name) : Bytes :=
  name.proper.flatMap (fun label => UInt8.ofNat label.utf8ByteSize :: Text.utf8 label) ++ [0]

def canonical (name : Name) : Name := name.map Text.lowerAscii

def toWire (name : Name) : Except WireError Bytes := do
  name.check
  return name.encode

def canonicalWire (name : Name) : Except WireError Bytes := do
  name.check
  return name.canonical.encode

end Name

end TransactionKey
