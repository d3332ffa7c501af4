/-!
# Record classes

The classes that have a name here, and every other one by its code, as for record types.
-/

namespace TransactionKey

inductive RecordClass where
  | internet | csnet | chaos | hesiod | none | any
  | other (code : UInt16)
deriving DecidableEq, Repr

namespace RecordClass

def ofCode (code : UInt16) : RecordClass :=
  match code.toNat with
  | 1 => .internet
  | 2 => .csnet
  | 3 => .chaos
  | 4 => .hesiod
  | 254 => .none
  | 255 => .any
  | _ => .other code

def code : RecordClass → UInt16
  | .internet => 1
  | .csnet => 2
  | .chaos => 3
  | .hesiod => 4
  | .none => 254
  | .any => 255
  | .other code => code

/-- the mnemonic, or the generic notation for a class without one -/
def text : RecordClass → String
  | .internet => "IN"
  | .csnet => "CS"
  | .chaos => "CH"
  | .hesiod => "HS"
  | .none => "NONE"
  | .any => "ANY"
  | .other code => s!"CLASS{code}"

theorem code_ofCode (code : UInt16) : (ofCode code).code = code := by
  unfold ofCode
  split <;> first | rfl | (rename_i h; exact (UInt16.toNat_inj.1 h).symm)

end RecordClass

end TransactionKey
