import TransactionKey.Reply
import TransactionKey.Request
import TransactionKey.Transport

/-!
# Failures of an exchange

An exchange fails before anything is sent (the request, the signing or the host is at fault), while it
is being delivered, or because of what the server replied.
-/

namespace TransactionKey

inductive ExchangeError where
  | request (fault : RequestError)
  | signing (fault : TsigError)
  | resolution (host reason : String)
  | transport (attempts : List Attempt)
  | reply (fault : ReplyError)
deriving DecidableEq, Repr

def ExchangeError.message : ExchangeError → String
  | .request fault => fault.message
  | .signing fault => s!"TSIG error: {fault.message}"
  | .resolution host reason => s!"Failed to resolve {host}: {reason}"
  | .transport attempts => Attempt.summary attempts
  | .reply fault => fault.message

end TransactionKey
