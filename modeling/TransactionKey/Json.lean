/-!
# JSON text

A JSON value of numbers, texts, lists and objects, and its text with an indentation of two blanks a
level.  The fields of an object keep their order.  In a quoted text only the quote, the backslash and
the control characters are escaped.

* `quoted`   a quoted text;
* `pretty`   the text of a value.
-/

namespace TransactionKey

/-- a JSON value; its numbers are natural -/
inductive Json where
  | number (n : Nat)
  | text (s : String)
  | list (items : List Json)
  | object (fields : List (String × Json))
deriving Repr

namespace Json

/-! ## quoted texts -/

/-- a control character as four hexadecimal digits -/
def escaped (c : Char) : String :=
  let n := c.toNat
  "\\u00" ++ String.ofList [Nat.digitChar (n / 16), Nat.digitChar (n % 16)]

def quotedChar (c : Char) : String :=
  match c with
  | '"' => "\\\""
  | '\\' => "\\\\"
  | '\n' => "\\n"
  | '\r' => "\\r"
  | '\t' => "\\t"
  | '\x08' => "\\b"
  | '\x0c' => "\\f"
  | c => if c.toNat < 32 then escaped c else c.toString

def quoted (s : String) : String := "\"" ++ String.join (s.toList.map quotedChar) ++ "\""

/-! ## values -/

def newline (level : Nat) : String := "\n" ++ String.ofList (List.replicate (2 * level) ' ')

mutual

/-- writes a value, whose first line stands at a level, after `out` -/
def write (level : Nat) (out : String) : Json → String
  | .number n => out ++ s!"{n}"
  | .text s => out ++ quoted s
  | .list [] => out ++ "[]"
  | .list (item :: items) =>
    let inner := level + 1
    writeItems inner (write inner (out ++ "[" ++ newline inner) item) items
      ++ newline level ++ "]"
  | .object [] => out ++ "\x7b\x7d"
  | .object (field :: fields) =>
    let inner := level + 1
    writeFields inner (writeField inner (out ++ "\x7b" ++ newline inner) field) fields
      ++ newline level ++ "\x7d"

/-- writes the items of a list after the first -/
def writeItems (level : Nat) (out : String) : List Json → String
  | [] => out
  | item :: items => writeItems level (write level (out ++ "," ++ newline level) item) items

def writeField (level : Nat) (out : String) : String × Json → String
  | (name, value) => write level (out ++ quoted name ++ ": ") value

/-- writes the fields of an object after the first -/
def writeFields (level : Nat) (out : String) : List (String × Json) → String
  | [] => out
  | field :: fields =>
    writeFields level (writeField level (out ++ "," ++ newline level) field) fields

end

def pretty (j : Json) : String := write 0 "" j

end Json

end TransactionKey
