import TransactionKey.Text.Utf8
import TransactionKey.Text.Numeral

/-!
# Modes of key negotiation

The five modes of a key record, with their numbers and names.
-/

namespace TransactionKey.Tkey

/-- how a key is agreed on, or that it is deleted -/
inductive Mode where
  | serverAssigned | diffieHellman | gss | resolverAssigned | delete
deriving DecidableEq, Repr

namespace Mode

def value : Mode → UInt16
  | .serverAssigned => 1
  | .diffieHellman => 2
  | .gss => 3
  | .resolverAssigned => 4
  | .delete => 5

def ofValue? (value : UInt16) : Option Mode :=
  match value.toNat with
  | 1 => some .serverAssigned
  | 2 => some .diffieHellman
  | 3 => some .gss
  | 4 => some .resolverAssigned
  | 5 => some .delete
  | _ => none

def name : Mode → String
  | .serverAssigned => "server-assigned"
  | .diffieHellman => "diffie-hellman"
  | .gss => "gss-api"
  | .resolverAssigned => "resolver-assigned"
  | .delete => "delete"

def text (m : Mode) : String := s!"{m.name} ({m.value})"

/-- the mode that a word names, in any case -/
def ofWord? (word : String) : Option Mode :=
  match Text.lowerAscii word with
  | "server" | "server-assigned" => some .serverAssigned
  | "dh" | "diffie-hellman" => some .diffieHellman
  | "gss" | "gss-api" => some .gss
  | "resolver" | "resolver-assigned" => some .resolverAssigned
  | "delete" => some .delete
  | _ => none

/-- the mode that a number or a word names -/
def ofText? (s : String) : Option Mode :=
  match Text.unsigned16? s with
  | some value => ofValue? value
  | none => ofWord? s

/-- the mode number that a text asks for: any number, or the number of a named mode -/
def number? (s : String) : Option UInt16 :=
  match ofText? s with
  | some m => some m.value
  | none => Text.unsigned16? s

theorem ofValue?_value (m : Mode) : ofValue? m.value = some m := by cases m <;> rfl

end Mode

end TransactionKey.Tkey
