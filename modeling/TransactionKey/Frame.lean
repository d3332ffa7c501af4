import TransactionKey.Settings
import TransactionKey.Transport

/-!
# Framing over TCP

On a connection a message follows its length in two bytes.  The reply may arrive in chunks of any sizes,
so `reply?` looks at everything received so far, and says what the reply is as soon as that is decided.

* `frame?`      the bytes to send for a query;
* `reply?`      the reply that received bytes hold;
* `receive`     the reply that a sequence of chunks holds;
* `converse`    what is sent on a connection and what becomes of it;
* `exchange`    the same, if there is a connection.
-/

namespace TransactionKey

/-- what happens on a connection after the last chunk -/
inductive Ending where
  | closed
  | silent
deriving DecidableEq, Repr

/-- the other end of a connection: the chunks that it sends once it has read what was sent to it, and
what it does then -/
structure Peer where
  chunks : Bytes → List Bytes
  ending : Ending

namespace Frame

/-- the most bytes that a frame can hold -/
def maxLength : Nat := 65535

def frame? (query : Bytes) : Except TransportError Bytes :=
  let length := query.length
  if maxLength < length then .error (.messageTooLarge length)
  else .ok (bigEndian 2 length ++ query)

/-- the reply of at most `limit` bytes that received bytes hold, if they decide it; bytes after the
reply do not matter -/
def reply? (limit : Nat) : Bytes → Option (Except TransportError Bytes)
  | high :: low :: rest =>
    let length := ofBigEndian [high, low]
    if limit < length then some (.error (.messageTooLarge length))
    else (Bytes.take? length rest).map fun (body, _) => .ok body
  | _ => none

/-- what becomes of a connection that ends before the reply is complete; a silent one is given up after
`timeout` milliseconds -/
def endingError (timeout : Nat) : Ending → TransportError
  | .closed => .io "early eof"
  | .silent => .timeout timeout

/-- the reply that `received` and the chunks after it hold -/
def receive (limit timeout : Nat) (ending : Ending) (received : Bytes) :
    List Bytes → Except TransportError Bytes
  | [] =>
    match reply? limit received with
    | some result => result
    | none => .error (endingError timeout ending)
  | chunk :: chunks =>
    match reply? limit received with
    | some result => result
    | none => receive limit timeout ending (received ++ chunk) chunks

/-- what is sent on a connection for a query, and the reply -/
def converse (s : Settings) (peer : Peer) (query : Bytes) : Bytes × Except TransportError Bytes :=
  match frame? query with
  | .error e => ([], .error e)
  | .ok bytes =>
    (bytes, receive s.maxReply.toNat s.readTimeout.toNat peer.ending [] (peer.chunks bytes))

/-- what is sent for a query, and the reply; without a connection nothing is sent -/
def exchange (s : Settings) (connection : Except TransportError Peer) (query : Bytes) :
    Bytes × Except TransportError Bytes :=
  match connection with
  | .error e => ([], .error e)
  | .ok peer => converse s peer query

end Frame

end TransactionKey
