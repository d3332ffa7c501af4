import TransactionKey.Base64
import TransactionKey.Name
import TransactionKey.Text.Blank
import TransactionKey.Tsig.Algorithm
import TransactionKey.Tsig.Error

/-!
# Shared keys

A shared key has a name, which is kept in lower case, an algorithm and a secret.  `ofBase64` makes a
key from the texts of a configuration.
-/

namespace TransactionKey.Tsig

structure Key where
  name : String
  algorithm : Algorithm
  secret : Bytes
deriving DecidableEq, Repr

namespace Key

def make (name : String) (algorithm : Algorithm) (secret : Bytes) : Key :=
  ⟨Text.lowercase name, algorithm, secret⟩

/-- the key that a name, the name of an algorithm and a base64 secret describe -/
def ofBase64 (name algorithm secret : String) : Except TsigError Key :=
  match Algorithm.ofName? algorithm with
  | none => .error (.unknownAlgorithm algorithm)
  | some known => do
    let _ ← TsigError.onWire (Name.ofText name).toWire
    match Base64.decode (Text.trim secret) with
    | .error fault => .error (.badSecret fault.message)
    | .ok bytes => .ok (make name known bytes)

def mac (key : Key) (message : Bytes) : Bytes := key.algorithm.hash.hmac key.secret message

end Key

end TransactionKey.Tsig
