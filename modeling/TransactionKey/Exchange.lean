import TransactionKey.Exchange.Error
import TransactionKey.Tsig.Verifying

/-!
# Exchanges

An exchange negotiates one key with one host.  What it needs from outside is a `World`; everything else
is decided here:

* the query and its signing are settled before the host is looked up;
* the addresses of the host are tried in their order, each once, until one gives a usable reply, which
  is one that parses, has the identifier of the query and is a response;
* that reply decides the exchange, whether or not its signature is good (`World.doubt` hears of a bad
  one).
-/

namespace TransactionKey

/-- what an exchange needs from outside -/
structure World (m : Type → Type) where
  /-- the time in seconds since the epoch -/
  now : m UInt64
  /-- an identifier for a query -/
  newId : m UInt16
  /-- the addresses of a host, or why there are none -/
  lookup : String → m (Except String (List Address))
  /-- sends a query and waits for the reply -/
  deliver : Endpoint → Bytes → m (Except TransportError Bytes)
  /-- hears that the reply of an endpoint has a bad signature -/
  doubt : Endpoint → TsigError → m Unit

namespace Exchange

/-- a reply as a message, if it answers the query with the identifier `id` -/
def usable (id : UInt16) (reply : Bytes) : Except TransportError Message :=
  match Message.decode reply with
  | .error e => .error (.parse e)
  | .ok m =>
    if m.header.id ≠ id then .error (.idMismatch id m.header.id)
    else if !m.header.qr then .error .notAResponse
    else .ok m

/-- the addresses that a lookup gave; none at all is a failure too -/
def found : Except String (List Address) → Except String (List Address)
  | .ok [] => .error "no addresses found"
  | answer => answer

variable {m : Type → Type} [Monad m] (w : World m) (signing : Signing) (query : Message)

/-- reports a bad signature of a usable reply -/
def check (signed : SignedQuery) (endpoint : Endpoint) (reply : Bytes) : m Unit := do
  match signing.verify signed.mac reply (← w.now) with
  | .ok () => return ()
  | .error e => w.doubt endpoint e

/-- tries one endpoint with a fresh signature -/
def attempt (endpoint : Endpoint) : m (Except TransportError Message) := do
  match signing.sign query (← w.now) with
  | .error e => return .error (.signing e)
  | .ok signed =>
    match ← w.deliver endpoint signed.bytes with
    | .error e => return .error e
    | .ok reply =>
      match usable signed.id reply with
      | .error e => return .error e
      | .ok message =>
        check w signing signed endpoint reply
        return .ok message

/-- the first usable reply of the endpoints, or how each of them failed -/
def firstUsable : List Endpoint → m (Except (List Attempt) Message)
  | [] => return .error []
  | endpoint :: endpoints => do
    match ← attempt w signing query endpoint with
    | .ok message => return .ok message
    | .error cause =>
      match ← firstUsable endpoints with
      | .ok message => return .ok message
      | .error attempts => return .error (⟨endpoint, cause⟩ :: attempts)

/-- tries the addresses of a host -/
def contact (host : String) (port : UInt16) : m (Except ExchangeError Message) := do
  match found (← w.lookup host) with
  | .error reason => return .error (.resolution host reason)
  | .ok addresses =>
    match ← firstUsable w signing query (addresses.map fun address => { address, port }) with
    | .error attempts => return .error (.transport attempts)
    | .ok message => return .ok message

/-- the query of a request and how it is signed -/
def prepare (r : Request) (now : UInt64) (id : UInt16) :
    Except ExchangeError (Message × Signing) :=
  match r.query (UInt32.ofNat now.toNat) id with
  | .error e => .error (.request e)
  | .ok query =>
    match Signing.ofRequest r with
    | .error e => .error (.signing e)
    | .ok signing => .ok (query, signing)

end Exchange

/-- negotiates the key of a request on a port of its host -/
def exchange {m : Type → Type} [Monad m] (w : World m) (port : UInt16) (r : Request) :
    m (Except ExchangeError Reply) := do
  match Exchange.prepare r (← w.now) (← w.newId) with
  | .error e => return .error e
  | .ok (query, signing) =>
    match ← Exchange.contact w signing query r.host port with
    | .error e => return .error e
    | .ok message =>
      match Reply.judge message with
      | .error e => return .error (.reply e)
      | .ok reply => return .ok reply

end TransactionKey
