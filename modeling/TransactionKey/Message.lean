import TransactionKey.Header
import TransactionKey.Question
import TransactionKey.ResourceRecord
import TransactionKey.ResponseCode

/-!
# Messages

A message is a header and four sections.

* `toWire`                 the wire form; the section counts are those of the sections;
* `decode`                 reads a whole message, with nothing after it;
* `lastAdditionalOffset`   where the last additional record begins, found without collecting the
                           sections.
-/

namespace TransactionKey

/-- a message; its header's counts describe the message that it was read from -/
structure Message where
  header : Header := {}
  questions : List Question := []
  answers : List ResourceRecord := []
  authorities : List ResourceRecord := []
  additionals : List ResourceRecord := []
deriving DecidableEq, Repr

namespace Message

def responseCode (m : Message) : ResponseCode := .ofValue m.header.rcode.toUInt16

/-! ## writing -/

/-- the count field of a section with `n` entries -/
def sectionCount (n : Nat) : Except WireError UInt16 :=
  if 65535 < n then .error (.sectionTooLong n) else .ok (UInt16.ofNat n)

def countedHeader (m : Message) : Except WireError Header := do
  let qdcount ← sectionCount m.questions.length
  let ancount ← sectionCount m.answers.length
  let nscount ← sectionCount m.authorities.length
  let arcount ← sectionCount m.additionals.length
  return { m.header with qdcount, ancount, nscount, arcount }

/-- the wire form of a message, without compression -/
def toWire (m : Message) : Except WireError Bytes := do
  let header ← (← m.countedHeader).toWire
  let questions ← m.questions.mapM Question.toWire
  let records ← (m.answers ++ m.authorities ++ m.additionals).mapM ResourceRecord.toWire
  return header ++ questions.flatten ++ records.flatten

/-! ## reading -/

/-- the sections that follow a header -/
def decodeSections (header : Header) : Decoder Message :=
  (Decoder.many Question.decode header.qdcount.toNat).bind fun questions =>
  (Decoder.many ResourceRecord.decode header.ancount.toNat).bind fun answers =>
  (Decoder.many ResourceRecord.decode header.nscount.toNat).bind fun authorities =>
  (Decoder.many ResourceRecord.decode header.arcount.toNat).bind fun additionals =>
  fun _ _ => .ok (⟨header, questions, answers, authorities, additionals⟩, 0)

/-- reads a message that takes up all bytes -/
def decode (bytes : Bytes) : Except WireError Message :=
  match Header.decode.bind decodeSections bytes bytes with
  | .error e => .error e
  | .ok (m, taken) =>
    match bytes.drop taken with
    | [] => .ok m
    | rest => .error (.trailing rest.length)

/-- the records that precede the last additional one -/
def precedingRecords (h : Header) : Nat :=
  h.ancount.toNat + h.nscount.toNat + h.arcount.toNat - 1

/-- the offset at which the last additional record begins, if there is one -/
def lastAdditionalOffset (bytes : Bytes) : Except WireError (Option Nat) :=
  match Header.decode bytes bytes with
  | .error e => .error e
  | .ok (header, n) =>
    if header.arcount = 0 then .ok none
    else
      let skipped := (Decoder.many Question.decode header.qdcount.toNat).bind fun _ =>
        Decoder.many ResourceRecord.decode (precedingRecords header)
      match skipped bytes (bytes.drop n) with
      | .error e => .error e
      | .ok (_, m) => .ok (some (n + m))

end Message

end TransactionKey
