import TransactionKey.Settings

/-!
# Settings files

A settings file is TOML of a narrow kind: each line is empty or sets a known key to an integer, a key is
set at most once, and comments may follow.  A file that uses any other part of the language is refused.

* `integer?`         the integers of the language: decimal with a sign, hexadecimal, octal or binary;
* `key?`             a bare or quoted key;
* `entry?`           a line;
* `Layer.ofFile?`    the settings that a file supplies.
-/

namespace TransactionKey.Settings.File

/-- a blank inside a line -/
def isSpace (c : Char) : Bool := c == ' ' || c == '\t'

def skipSpace (cs : List Char) : List Char := cs.dropWhile isSpace

/-- a character that a comment or a literal key may hold: no control character but the tab -/
def isPrintable (c : Char) : Bool := c == '\t' || (32 ≤ c.toNat && c.toNat != 127)

/-- whether nothing follows but blanks and a comment -/
def isTrailer (cs : List Char) : Bool :=
  match skipSpace cs with
  | [] => true
  | '#' :: comment => comment.all isPrintable
  | _ => false

/-! ## integers -/

/-- the number that digits spell after the digits of `n`; an underscore may stand between two digits -/
def groupedFrom (base n : Nat) : List Char → Option Nat
  | [] => some n
  | '_' :: c :: cs =>
    match Text.digit? base c with
    | none => none
    | some d => groupedFrom base (n * base + d) cs
  | c :: cs =>
    match Text.digit? base c with
    | none => none
    | some d => groupedFrom base (n * base + d) cs

/-- the number that a text of digits spells, the first of them not after an underscore -/
def grouped? (base : Nat) : List Char → Option Nat
  | [] => none
  | '_' :: _ => none
  | cs => groupedFrom base 0 cs

/-- a decimal number without leading zeros -/
def decimal? : List Char → Option Nat
  | ['0'] => some 0
  | '0' :: _ => none
  | cs => grouped? 10 cs

/-- an integer in any notation -/
def unbounded? : List Char → Option Int
  | '0' :: 'x' :: cs => (grouped? 16 cs).map Int.ofNat
  | '0' :: 'o' :: cs => (grouped? 8 cs).map Int.ofNat
  | '0' :: 'b' :: cs => (grouped? 2 cs).map Int.ofNat
  | '+' :: cs => (decimal? cs).map Int.ofNat
  | '-' :: cs => (decimal? cs).map fun n => -Int.ofNat n
  | cs => (decimal? cs).map Int.ofNat

/-- an integer of sixty-four bits with a sign -/
def integer? (cs : List Char) : Option Int :=
  (unbounded? cs).filter fun n => -9223372036854775808 ≤ n ∧ n ≤ 9223372036854775807

/-! ## keys -/

/-- a character of a bare key -/
def isBare (c : Char) : Bool := c.isAlphanum || c == '_' || c == '-'

/-- the character with a code written in hexadecimal, if there is one -/
def scalar? (digits : List Char) : Option Char :=
  match Text.digits? 16 digits with
  | none => none
  | some n => if h : n.isValidChar then some (Char.ofNatAux n h) else none

/-- the rest of a key in double quotes; `done` holds the characters so far, last one first -/
def quoted? (done : List Char) : List Char → Option (String × List Char)
  | '"' :: cs => some (String.ofList done.reverse, cs)
  | '\\' :: 'u' :: a :: b :: c :: d :: cs =>
    (scalar? [a, b, c, d]).bind fun e => quoted? (e :: done) cs
  | '\\' :: 'U' :: a :: b :: c :: d :: e :: f :: g :: h :: cs =>
    (scalar? [a, b, c, d, e, f, g, h]).bind fun e => quoted? (e :: done) cs
  | '\\' :: c :: cs =>
    match c with
    | 'b' => quoted? ('\x08' :: done) cs
    | 't' => quoted? ('\t' :: done) cs
    | 'n' => quoted? ('\n' :: done) cs
    | 'f' => quoted? ('\x0c' :: done) cs
    | 'r' => quoted? ('\r' :: done) cs
    | '"' => quoted? ('"' :: done) cs
    | '\\' => quoted? ('\\' :: done) cs
    | _ => none
  | c :: cs => if isPrintable c then quoted? (c :: done) cs else none
  | [] => none

/-- the rest of a key in single quotes, where nothing is escaped -/
def literal? (cs : List Char) : Option (String × List Char) :=
  match cs.span (· != '\'') with
  | (key, '\'' :: rest) => if key.all isPrintable then some (String.ofList key, rest) else none
  | _ => none

/-- a key, and the rest of the line -/
def key? : List Char → Option (String × List Char)
  | '"' :: cs => quoted? [] cs
  | '\'' :: cs => literal? cs
  | cs =>
    match cs.span isBare with
    | ([], _) => none
    | (key, rest) => some (String.ofList key, rest)

/-! ## lines -/

/-- the key and the value that a line sets, if it sets any; a malformed line has none at all -/
def entry? (line : List Char) : Option (Option (String × Int)) :=
  if isTrailer line then some none
  else
    match key? (skipSpace line) with
    | none => none
    | some (key, rest) =>
      match skipSpace rest with
      | '=' :: rest =>
        let (value, rest) := (skipSpace rest).span fun c => !isSpace c && c != '#'
        if isTrailer rest then (integer? value).map fun n => some (key, n) else none
      | _ => none

/-- the lines of a text, each without the line feed that ends it and a carriage return before that -/
def lines (line : List Char) : List Char → List (List Char)
  | [] => [line.reverse]
  | '\r' :: '\n' :: cs => line.reverse :: lines [] cs
  | '\n' :: cs => line.reverse :: lines [] cs
  | c :: cs => lines (c :: line) cs

/-- a text without a byte order mark before it -/
def unmarked : List Char → List Char
  | '\uFEFF' :: cs => cs
  | cs => cs

/-- a setting that is not set yet, set to a number in the range of its kind -/
def fresh? {α : Type} (ofNat : Nat → α) (limit : Nat) (old : Option α) (n : Int) :
    Option (Option α) :=
  if old.isNone ∧ 0 ≤ n ∧ n ≤ limit then some (some (ofNat n.toNat)) else none

/-- a layer with one more setting -/
def set? (l : Layer) : String × Int → Option Layer
  | ("port", n) => (fresh? UInt16.ofNat 65535 l.port n).map ({ l with port := · })
  | ("connect_timeout_ms", n) =>
    (fresh? UInt64.ofNat 18446744073709551615 l.connectTimeout n).map
      ({ l with connectTimeout := · })
  | ("read_timeout_ms", n) =>
    (fresh? UInt64.ofNat 18446744073709551615 l.readTimeout n).map ({ l with readTimeout := · })
  | ("max_response_size", n) =>
    (fresh? UInt64.ofNat 18446744073709551615 l.maxReply n).map ({ l with maxReply := · })
  | _ => none

end TransactionKey.Settings.File

namespace TransactionKey

open Settings.File in
/-- the settings that the text of a file supplies -/
def Layer.ofFile? (text : String) : Option Layer := do
  let entries ← (lines [] (unmarked text.toList)).mapM entry?
  (entries.filterMap id).foldlM set? {}

/-- the settings that a file supplies, or what is wrong with it -/
def Layer.ofFile (text : String) : Except SettingsError Layer :=
  match Layer.ofFile? text with
  | some l => .ok l
  | none => .error .malformed

end TransactionKey
