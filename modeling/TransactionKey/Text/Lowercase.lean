import TransactionKey.Text.CaseTable

/-!
# Lower-case text

`lowercase s` lowers every letter of a text by its Unicode mapping.  Two letters are special: the
dotted capital I becomes `i` and a combining dot, and a capital sigma becomes the final form when it
ends a word, that is, when the nearest character before it that is not case-ignorable has a case and
the nearest one after it has not.
-/

namespace TransactionKey.Text

def lowerChar (c : Char) : Char :=
  if c.toNat < 128 then c.toLower
  else ((lowerings.findSome? fun r => r.apply? c.toNat).map Char.ofNat).getD c

/-- whether the first character that is not case-ignorable has a case -/
def letterNext (cs : List Char) : Bool :=
  match cs.dropWhile fun c => inRanges caseIgnorable c.toNat with
  | [] => false
  | c :: _ => inRanges cased c.toNat

/-- the lower-case form of one character between the text before it, nearest character first, and
the text after it -/
def lowerIn (before : List Char) (c : Char) (after : List Char) : List Char :=
  if c = 'Σ' then [if letterNext before && !letterNext after then 'ς' else 'σ']
  else if c = 'İ' then ['i', '\u0307']
  else [lowerChar c]

/-- lowers a text that follows `before`; `done` is the result so far, last character first -/
def lowerFrom (before done : List Char) : List Char → List Char
  | [] => done.reverse
  | c :: cs => lowerFrom (c :: before) ((lowerIn before c cs).reverse ++ done) cs

def lowercase (s : String) : String :=
  String.ofList (lowerFrom [] [] s.toList)

end TransactionKey.Text
