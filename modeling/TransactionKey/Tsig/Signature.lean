import TransactionKey.Message
import TransactionKey.Tsig.Error

/-!
# Signature records

The contents of a TSIG record, and the two byte strings made of it:

* `toRdata`, `ofRdata`   the record data; bytes after the other data are not looked at;
* `coveredFields`        the part of the record that the signature covers, names in canonical form.

`addToCount` changes the count of additional records in the header of a message in wire form, which
grows by one when a message is signed.
-/

namespace TransactionKey.Tsig

/-- the contents of a signature record; the time has forty-eight bits, and `signedId` is the ID that the
message had when it was signed -/
structure Signature where
  algorithm : String
  time : UInt64
  fudge : UInt16
  mac : Bytes
  signedId : UInt16
  error : UInt16
  other : Bytes
deriving DecidableEq, Repr

namespace Signature

/-- the record data, the algorithm name in canonical form -/
def toRdata (s : Signature) : Except TsigError Bytes := do
  let algorithm ← TsigError.onWire (Name.ofText s.algorithm).canonicalWire
  return algorithm ++ bigEndian 6 s.time.toNat ++ bigEndian 2 s.fudge.toNat
    ++ bigEndian 2 s.mac.length ++ s.mac ++ bigEndian 2 s.signedId.toNat
    ++ bigEndian 2 s.error.toNat ++ bigEndian 2 s.other.length ++ s.other

/-- what the signature covers of the record of a key: its name, class ANY, time to live 0, algorithm,
time, fudge, error and other data -/
def coveredFields (s : Signature) (keyName : String) : Except TsigError Bytes := do
  let name ← TsigError.onWire (Name.ofText keyName).canonicalWire
  let algorithm ← TsigError.onWire (Name.ofText s.algorithm).canonicalWire
  return name ++ bigEndian 2 RecordClass.any.code.toNat ++ bigEndian 4 0 ++ algorithm
    ++ bigEndian 6 s.time.toNat ++ bigEndian 2 s.fudge.toNat ++ bigEndian 2 s.error.toNat
    ++ bigEndian 2 s.other.length ++ s.other

def short : TsigError := .badFormat "RDATA too short"

def ofFields (algorithm : Name) (rest : Bytes) : Except TsigError Signature :=
  match rest with
  | t5 :: t4 :: t3 :: t2 :: t1 :: t0 :: f1 :: f0 :: m1 :: m0 :: body =>
    match Bytes.take? (ofBigEndian [m1, m0]) body with
    | some (mac, i1 :: i0 :: e1 :: e0 :: o1 :: o0 :: body) =>
      match Bytes.take? (ofBigEndian [o1, o0]) body with
      | some (other, _) =>
        .ok { algorithm := algorithm.toText
              time := UInt64.ofNat (ofBigEndian [t5, t4, t3, t2, t1, t0])
              fudge := UInt16.ofNat (ofBigEndian [f1, f0])
              mac
              signedId := UInt16.ofNat (ofBigEndian [i1, i0])
              error := UInt16.ofNat (ofBigEndian [e1, e0])
              other }
      | none => .error short
    | _ => .error short
  | _ => .error short

def ofRdata (rdata : Bytes) : Except TsigError Signature := do
  let (algorithm, n) ← TsigError.onWire (Name.decodePlain rdata rdata)
  ofFields algorithm (rdata.drop n)

end Signature

/-! ## the count of additional records -/

def countOffset : Nat := Header.size - 2

/-- a message in wire form with its count of additional records changed -/
def addToCount (delta : Int) (message : Bytes) : Except TsigError Bytes :=
  match Bytes.take? countOffset message with
  | some (front, c1 :: c0 :: rest) =>
    let current := ofBigEndian [c1, c0]
    let updated := current + delta
    if updated < 0 ∨ 65535 < updated then .error (.badFormat s!"ARCOUNT {current} out of range")
    else .ok (front ++ bigEndian 2 updated.toNat ++ rest)
  | _ => .error (.badFormat "message shorter than header")

end TransactionKey.Tsig
