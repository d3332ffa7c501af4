import TransactionKey.Request
import TransactionKey.Tsig.Key
import TransactionKey.Tsig.Signature

/-!
# Signing queries

An exchange runs under one `Signing`: unsigned, with GSS (nothing is signed, because the exchange is
what establishes the key), or with a shared key.  `Signing.sign` gives the bytes to send; with a shared
key they end with a signature record.
-/

namespace TransactionKey

inductive Signing where
  | unsigned
  | gss (keyName : String)
  | keyed (key : Tsig.Key)
deriving DecidableEq, Repr

/-- a query in wire form, and its signature if it has one -/
structure SignedQuery where
  id : UInt16
  bytes : Bytes
  mac : Option Bytes
deriving DecidableEq, Repr

namespace Signing

/-- the signing of a request: GSS if that is its algorithm, else with the shared key if its
credentials are complete -/
def ofRequest (r : Request) : Except TsigError Signing :=
  if Tkey.isGss r.algorithm then .ok (.gss r.keyName)
  else
    match r.credentials.complete? with
    | none => .ok .unsigned
    | some (name, algorithm, secret) => do
      return .keyed (← Tsig.Key.ofBase64 name algorithm secret)

/-- the clock skew that queries allow, in seconds -/
def fudge : UInt16 := 300

/-- the signature of a query before its bytes are signed -/
def blankSignature (key : Tsig.Key) (id : UInt16) (now : UInt64) : Tsig.Signature where
  algorithm := key.algorithm.name
  time := now
  fudge := fudge
  mac := []
  signedId := id
  error := 0
  other := []

/-- signs the wire form of a query with a shared key -/
def signWith (key : Tsig.Key) (id : UInt16) (bytes : Bytes) (now : UInt64) :
    Except TsigError SignedQuery := do
  let blank := blankSignature key id now
  let mac := key.mac (bytes ++ (← blank.coveredFields key.name))
  let rdata ← { blank with mac }.toRdata
  let record ← TsigError.onWire (ResourceRecord.ofText key.name .tsig .any 0 rdata)
  let ending ← TsigError.onWire record.toWire
  return ⟨id, ← Tsig.addToCount 1 (bytes ++ ending), some mac⟩

/-- the query to send at the time `now` -/
def sign (s : Signing) (m : Message) (now : UInt64) : Except TsigError SignedQuery := do
  let bytes ← TsigError.onWire m.toWire
  match s with
  | .unsigned | .gss _ => return ⟨m.header.id, bytes, none⟩
  | .keyed key => signWith key m.header.id bytes now

end Signing

end TransactionKey
