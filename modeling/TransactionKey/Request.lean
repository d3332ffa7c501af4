import TransactionKey.Message
import TransactionKey.Tkey

/-!
# Requests for a key

A request names the key to be negotiated and how; `Request.query` turns it into the message to send.
Only Diffie-Hellman, GSS and deletion have a meaning that a client can ask for, and every problem of
encoding shows here, before any message is sent.
-/

namespace TransactionKey

/-- the shared key that signs a query, as configured; it counts only when complete -/
structure Credentials where
  name : Option String := none
  algorithm : Option String := none
  secret : Option String := none
deriving DecidableEq, Repr

/-- name, algorithm and secret, if all three are given -/
def Credentials.complete? : Credentials → Option (String × String × String)
  | ⟨some name, some algorithm, some secret⟩ => some (name, algorithm, secret)
  | _ => none

/-- a request for one exchange; the mode is a number, so that a wrong one can be reported -/
structure Request where
  host : String
  keyName : String
  algorithm : String
  mode : UInt16
  lifetime : UInt32 := 0
  keyMaterial : Bytes := []
  extraRecords : List ResourceRecord := []
  credentials : Credentials := {}
deriving DecidableEq, Repr

inductive RequestError where
  | invalidMode (mode : UInt16)
  | unsupportedMode (mode : Tkey.Mode)
  | encode (reason : String)
deriving DecidableEq, Repr

def RequestError.message : RequestError → String
  | .invalidMode mode => s!"Invalid TKEY mode {mode}"
  | .unsupportedMode mode => s!"Unsupported TKEY mode {mode.text}"
  | .encode reason => s!"Failed to encode TKEY query: {reason}"

namespace Request

/-- an encoding result as part of making a query -/
def encoding {α : Type} : Except WireError α → Except RequestError α
  | .ok a => .ok a
  | .error e => .error (.encode e.message)

/-- when a key asked for at `now` begins and ceases to be valid -/
def period (r : Request) (mode : Tkey.Mode) (now : UInt32) :
    Except RequestError (UInt32 × UInt32) :=
  match mode with
  | .diffieHellman | .gss => .ok (now, now + r.lifetime)
  | .delete => .ok (0, 0)
  | .serverAssigned | .resolverAssigned => .error (.unsupportedMode mode)

/-- the key record that asks for the key at the time `now` -/
def tkey (r : Request) (now : UInt32) : Except RequestError Tkey :=
  match Tkey.Mode.ofValue? r.mode with
  | none => .error (.invalidMode r.mode)
  | some mode => do
    let (inception, expiration) ← r.period mode now
    encoding (Tkey.make r.keyName r.algorithm mode.value inception expiration r.keyMaterial)

/-- the query at the time `now`: one question for the key name, and in the additional section the
key record and the extra records -/
def query (r : Request) (now : UInt32) (id : UInt16) : Except RequestError Message := do
  let record ← encoding (← r.tkey now).toRecord
  let message : Message := {
    header := { id }
    questions := [⟨Name.ofText r.keyName, .tkey, .any⟩]
    additionals := record :: r.extraRecords }
  let _ ← encoding message.toWire
  return message

end Request

end TransactionKey
