import TransactionKey.ResourceRecord
import TransactionKey.ResponseCode
import TransactionKey.Tkey.Mode

/-!
# Key records

The contents of a TKEY record with its owner name.  Key and other data are held as hexadecimal text,
the form in which a negotiated key is handed on, and the sizes are held beside them; writing a record
checks the size of the key and recomputes that of the other data.

* `make`                a record for key material;
* `toRdata`, `ofRdata`  the record data: algorithm, inception, expiration, mode, error, key, other;
* `toRecord`, `ofRecord`  the resource record: class ANY, time to live 0.
-/

namespace TransactionKey

structure Tkey where
  name : String
  algorithm : String
  mode : UInt16
  inception : UInt32
  expiration : UInt32
  keySize : UInt16
  key : String
  error : UInt16
  otherSize : UInt16
  otherData : String
deriving DecidableEq, Repr

namespace Tkey

def gssAlgorithm : String := "gss-tsig."

/-- whether an algorithm name is that of GSS, in any case -/
def isGss (algorithm : String) : Bool := Text.sameAscii algorithm gssAlgorithm

/-- a record that carries key material and neither error nor other data -/
def make (name algorithm : String) (mode : UInt16) (inception expiration : UInt32)
    (material : Bytes) : Except WireError Tkey :=
  let size := material.length
  if 65535 < size then .error (.badRdata (.keyTooLong size))
  else
    .ok { name, algorithm, mode, inception, expiration
          keySize := UInt16.ofNat size
          key := Hex.encode material
          error := 0
          otherSize := 0
          otherData := "" }

def errorCode (t : Tkey) : ResponseCode := .ofValue t.error

def keyBytes (t : Tkey) : Except WireError Bytes :=
  match Hex.decode t.key with
  | .ok key => .ok key
  | .error fault => .error (.badRdata (.keyText fault))

def otherBytes (t : Tkey) : Except WireError Bytes :=
  match Hex.decode t.otherData with
  | .ok other => .ok other
  | .error fault => .error (.badRdata (.otherText fault))

/-! ## record data -/

def toRdata (t : Tkey) : Except WireError Bytes := do
  let key ← t.keyBytes
  if key.length ≠ t.keySize.toNat then
    throw (.badRdata (.keySizeMismatch t.keySize.toNat key.length))
  let other ← t.otherBytes
  if 65535 < other.length then throw (.badRdata (.otherTooLong other.length))
  let algorithm ← (Name.ofText t.algorithm).toWire
  return algorithm ++ bigEndian 4 t.inception.toNat ++ bigEndian 4 t.expiration.toNat
    ++ bigEndian 2 t.mode.toNat ++ bigEndian 2 t.error.toNat
    ++ bigEndian 2 t.keySize.toNat ++ key ++ bigEndian 2 other.length ++ other

/-- the fields after the algorithm name, which must take up all of `rest` -/
def ofFields (name : String) (algorithm : Name) (rest : Bytes) : Except WireError Tkey :=
  match rest with
  | i3 :: i2 :: i1 :: i0 :: e3 :: e2 :: e1 :: e0 :: m1 :: m0 :: r1 :: r0 :: k1 :: k0 :: body =>
    let keySize := ofBigEndian [k1, k0]
    match Bytes.take? keySize body with
    | some (key, o1 :: o0 :: body) =>
      let otherSize := ofBigEndian [o1, o0]
      match Bytes.take? otherSize body with
      | some (other, []) =>
        .ok { name
              algorithm := algorithm.toText
              mode := UInt16.ofNat (ofBigEndian [m1, m0])
              inception := UInt32.ofNat (ofBigEndian [i3, i2, i1, i0])
              expiration := UInt32.ofNat (ofBigEndian [e3, e2, e1, e0])
              keySize := UInt16.ofNat keySize
              key := Hex.encode key
              error := UInt16.ofNat (ofBigEndian [r1, r0])
              otherSize := UInt16.ofNat otherSize
              otherData := Hex.encode other }
      | some (_, surplus) => .error (.badRdata (.surplus surplus.length))
      | none => .error (.badRdata .truncated)
    | _ => .error (.badRdata .truncated)
  | _ => .error (.badRdata .truncated)

/-- the record with an owner name and record data -/
def ofRdata (name : String) (rdata : Bytes) : Except WireError Tkey :=
  match Name.decodePlain rdata rdata with
  | .error e => .error e
  | .ok (algorithm, n) => ofFields name algorithm (rdata.drop n)

/-! ## resource records -/

/-- the resource record of a key record -/
def toRecord (t : Tkey) : Except WireError ResourceRecord := do
  ResourceRecord.ofText t.name .tkey .any 0 (← t.toRdata)

/-- the key record in a resource record -/
def ofRecord (r : ResourceRecord) : Except WireError Tkey :=
  if r.type = .tkey then ofRdata r.owner r.rdata
  else .error (.badRdata (.notTkey r.type.text))

end Tkey

end TransactionKey
