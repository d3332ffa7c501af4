import TransactionKey.Message
import TransactionKey.Tkey

/-!
# Judging a reply

A reply is good if its header reports success and its answers hold exactly one key record, which
reads well and reports success in turn.  `Reply.judge` finds the key record and the other answers in
one pass.
-/

namespace TransactionKey

inductive ReplyError where
  | server (code : ResponseCode)
  | manyKeys
  | noKey
  | malformedKey (reason : String)
  | refused (code : ResponseCode)
deriving DecidableEq, Repr

def ReplyError.message : ReplyError → String
  | .server code => s!"DNS error: {code.text}"
  | .manyKeys => "Multiple TKEY responses"
  | .noKey => "Received no TKEY response"
  | .malformedKey reason => s!"Malformed TKEY response: {reason}"
  | .refused code => s!"TKEY error: {code.text}"

/-- the key that a reply grants, and its other answers in their order -/
structure Reply where
  tkey : Tkey
  others : List ResourceRecord
deriving DecidableEq, Repr

namespace Reply

/-- the key record among answers and the answers that are none, after `found` and `others`, the
latter last one first; a second key record ends the search -/
def sift (found : Option ResourceRecord) (others : List ResourceRecord) :
    List ResourceRecord → Except ReplyError (Option ResourceRecord × List ResourceRecord)
  | [] => .ok (found, others.reverse)
  | answer :: answers =>
    if answer.type = .tkey then
      match found with
      | some _ => .error .manyKeys
      | none => sift (some answer) others answers
    else sift found (answer :: others) answers

/-- what a message grants -/
def judge (m : Message) : Except ReplyError Reply :=
  if m.responseCode.isSuccess then
    match sift none [] m.answers with
    | .error e => .error e
    | .ok (none, _) => .error .noKey
    | .ok (some record, others) =>
      match Tkey.ofRecord record with
      | .error e => .error (.malformedKey e.message)
      | .ok tkey =>
        if tkey.errorCode.isSuccess then .ok ⟨tkey, others⟩
        else .error (.refused tkey.errorCode)
  else .error (.server m.responseCode)

end Reply

end TransactionKey
