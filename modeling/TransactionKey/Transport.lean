import TransactionKey.Address
import TransactionKey.Tsig.Error

/-!
# Failures of delivery

Why one endpoint gave no usable reply to a query, and the list of such failures that an exchange keeps.
-/

namespace TransactionKey

inductive TransportError where
  | io (reason : String)
  | timeout (milliseconds : Nat)
  | messageTooLarge (bytes : Nat)
  | parse (fault : WireError)
  | idMismatch (expected received : UInt16)
  | notAResponse
  | signing (fault : TsigError)
deriving DecidableEq, Repr

def TransportError.message : TransportError → String
  | .io reason => s!"IO error: {reason}"
  | .timeout milliseconds => s!"Timed out after {milliseconds} ms"
  | .messageTooLarge bytes => s!"Message of {bytes} bytes does not fit TCP framing"
  | .parse fault => s!"Failed to parse response: {fault.message}"
  | .idMismatch expected received =>
    s!"Response id {received} does not match query id {expected}"
  | .notAResponse => "Reply is not a response"
  | .signing fault => s!"Failed to sign query: {fault.message}"

structure Attempt where
  endpoint : Endpoint
  cause : TransportError
deriving DecidableEq, Repr

def Attempt.text (a : Attempt) : String := s!"{a.endpoint.text}: {a.cause.message}"

/-- the number of attempts, and a line for each -/
def Attempt.summary (attempts : List Attempt) : String :=
  s!"{attempts.length} address(es) failed:" ++ String.join (attempts.map ("\n\t* " ++ ·.text))

end TransactionKey
