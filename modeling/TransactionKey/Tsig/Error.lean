import TransactionKey.ResponseCode
import TransactionKey.WireError

/-!
# Why a message cannot be signed or its signature is not accepted
-/

namespace TransactionKey

inductive TsigError where
  | badFormat (reason : String)
  | unknownAlgorithm (name : String)
  | wrongSignature
  | timeSkew (seconds : Int)
  | keyMismatch (signer : String)
  | badSecret (reason : String)
  | unsigned
  | rejected (code : ResponseCode)
deriving DecidableEq, Repr

namespace TsigError

def message : TsigError → String
  | .badFormat reason => s!"Invalid TSIG format: {reason}"
  | .unknownAlgorithm name => s!"Unknown TSIG algorithm: {name}"
  | .wrongSignature => "TSIG signature verification failed"
  | .timeSkew seconds => s!"TSIG time skew too large: {seconds} seconds"
  | .keyMismatch signer => s!"TSIG key mismatch: response signed with {signer}"
  | .badSecret reason => s!"TSIG decode error: {reason}"
  | .unsigned => "Response to a signed query carries no TSIG"
  | .rejected code => s!"Server rejected TSIG: {code.text}"

def ofWire (e : WireError) : TsigError := .badFormat e.message

def onWire {α : Type} : Except WireError α → Except TsigError α
  | .ok a => .ok a
  | .error e => .error (ofWire e)

end TsigError

end TransactionKey
