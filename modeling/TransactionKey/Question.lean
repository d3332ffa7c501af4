import TransactionKey.Name.Decode
import TransactionKey.RecordType
import TransactionKey.RecordClass

/-!
# Questions

A question asks for the records of a name, a type and a class.
-/

namespace TransactionKey

structure Question where
  name : Name := []
  type : RecordType := .unknown
  rclass : RecordClass := .internet
deriving DecidableEq, Repr

namespace Question

/-- the wire form: name, type, class -/
def toWire (q : Question) : Except WireError Bytes := do
  let name ← q.name.toWire
  return name ++ bigEndian 2 q.type.code.toNat ++ bigEndian 2 q.rclass.code.toNat

/-- the type and class after the name of a question -/
def decodeFixed (name : Name) : Decoder Question := fun _ rest =>
  match rest with
  | t1 :: t0 :: c1 :: c0 :: _ =>
    .ok (⟨name, .ofCode (UInt16.ofNat (ofBigEndian [t1, t0])),
      .ofCode (UInt16.ofNat (ofBigEndian [c1, c0]))⟩, 4)
  | _ => .error .badQuestion

def decode : Decoder Question := Name.decode.bind decodeFixed

end Question

end TransactionKey
