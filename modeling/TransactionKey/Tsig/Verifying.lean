import TransactionKey.Tsig.Signing

/-!
# Verifying replies

A reply to a query with a signature must end with a signature record by the same key.  `find` looks
it up, `examine` makes every check but the last and gives the bytes that the signature must cover
(`covered`), and `verify` compares the signatures.
-/

namespace TransactionKey.Tsig

/-- the signature record that ends the additional section, and its offset -/
def find (message : Bytes) : Except TsigError (Option (ResourceRecord × Nat)) := do
  match ← TsigError.onWire (Message.lastAdditionalOffset message) with
  | none => return none
  | some offset =>
    let (record, _) ← TsigError.onWire (ResourceRecord.decode.readAt message offset)
    return if record.type = .tsig then some (record, offset) else none

/-- the time that has passed since the signing, in seconds; times are read as signed numbers -/
def skew (s : Signature) (now : UInt64) : Int64 := now.toInt64 - s.time.toInt64

/-- the bytes of a reply before its signature record was added: the signer's identifier and one
additional record less -/
def unsignedPart (s : Signature) (response : Bytes) (offset : Nat) : Except TsigError Bytes :=
  addToCount (-1) (bigEndian 2 s.signedId.toNat ++ (response.take offset).drop 2)

/-- the signature of the query in the form in which the reply's signature covers it -/
def chained : Option Bytes → Bytes
  | none => []
  | some mac => bigEndian 2 mac.length ++ mac

/-- the bytes that the signature of a reply covers -/
def covered (queryMac : Option Bytes) (signer : String) (s : Signature) (response : Bytes)
    (offset : Nat) : Except TsigError Bytes := do
  return chained queryMac ++ (← unsignedPart s response offset) ++ (← s.coveredFields signer)

/-- checks all of a reply but the signature itself, and gives that with the bytes it must cover -/
def examine (key : Key) (queryMac : Option Bytes) (response : Bytes) (now : UInt64) :
    Except TsigError (Signature × Bytes) := do
  let some (record, offset) ← find response | throw .unsigned
  let s ← Signature.ofRdata record.rdata
  let signer := record.owner
  if !Text.sameAscii signer key.name then throw (.keyMismatch signer)
  if Algorithm.ofName? s.algorithm ≠ some key.algorithm then throw (.unknownAlgorithm s.algorithm)
  if s.error ≠ 0 then throw (.rejected (.ofValue s.error))
  if s.fudge.toUInt64.toInt64 < (skew s now).abs then throw (.timeSkew (skew s now).toInt)
  return (s, ← covered queryMac signer s response offset)

/-- checks a reply to a query with the signature `queryMac` -/
def verify (key : Key) (queryMac : Option Bytes) (response : Bytes) (now : UInt64) :
    Except TsigError Unit := do
  let (s, bytes) ← examine key queryMac response now
  if key.mac bytes = s.mac then return () else throw .wrongSignature

end TransactionKey.Tsig

namespace TransactionKey.Signing

/-- checks the signature of a reply to a query; without a shared key there is nothing to check -/
def verify (s : Signing) (queryMac : Option Bytes) (response : Bytes) (now : UInt64) :
    Except TsigError Unit :=
  match s with
  | .unsigned | .gss _ => .ok ()
  | .keyed key => Tsig.verify key queryMac response now

end TransactionKey.Signing
