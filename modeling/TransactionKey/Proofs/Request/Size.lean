import Mathlib.Algebra.GroupWithZero.Nat
import TransactionKey.Proofs.Request.Outcome
import TransactionKey.Proofs.Tsig.Signing

/-!
# How long a query is

The size of a message is the sum of what its parts take up, since nothing is compressed.  Each part
of a query has a limit of its own, and none is set for their sum.

* `Message.encode_length`   the size of a message;
* `Signing.sign_length`     what a signature adds to it;
* `Request.sent_length`     the size of what a request sends.
-/

namespace TransactionKey

/-! ## messages -/

def Question.wireLength (q : Question) : Nat := q.name.wireLength + 4

theorem Question.encode_length (q : Question) : q.encode.length = q.wireLength := by
  rw [encode, List.length_append, List.length_append, Name.encode_length, bigEndian_length,
    bigEndian_length]
  rfl

def ResourceRecord.wireLength (r : ResourceRecord) : Nat := r.name.wireLength + 10 + r.rdata.length

theorem ResourceRecord.encode_length (r : ResourceRecord) : r.encode.length = r.wireLength := by
  rw [encode, List.length_append, Name.encode_length, fields_length, wireLength, Nat.add_assoc]

theorem Message.encode_length (m : Message) : m.encode.length = Header.size +
    (m.questions.map Question.wireLength).sum + (m.records.map ResourceRecord.wireLength).sum := by
  simp only [encode, body, List.length_append, List.length_flatMap, Header.encode_length,
    Question.encode_length, ResourceRecord.encode_length, Nat.add_assoc]

/-! ## signatures -/

namespace Signing

/-- the bytes that a query grows by when it is signed -/
def size : Signing → Nat
  | .unsigned | .gss _ => 0
  | .keyed key => (Name.ofText key.name).wireLength + 10 +
      ((Name.ofText key.algorithm.name).wireLength + 16 + key.algorithm.digestSize)

theorem record_length (key : Tsig.Key) (m : Message) (time : UInt64) (fields : Bytes) :
    (key.record (Tsig.sealed key none m time fudge fields)).wireLength =
      (Signing.keyed key).size := by
  have hdata := Tsig.Signature.data_length (Tsig.sealed key none m time fudge fields)
  have hmac : (Tsig.sealed key none m time fudge fields).mac.length = key.algorithm.digestSize :=
    key.mac_length _
  have hname : (Name.ofText (Tsig.sealed key none m time fudge fields).algorithm).canonical =
      Name.ofText key.algorithm.name := key.algorithm.canonical_name
  have hother : (Tsig.sealed key none m time fudge fields).other.length = 0 := rfl
  rw [hmac, hname, hother, Nat.add_zero] at hdata
  exact congrArg ((Name.ofText key.name).wireLength + 10 + ·) hdata

theorem sign_length {signing : Signing} {m : Message} {time : UInt64} {sent : SignedQuery}
    (h : signing.sign m time = .ok sent) : sent.bytes.length = m.encode.length + signing.size := by
  cases signing with
  | keyed key =>
    obtain ⟨-, -, fields, -, hsent⟩ := sign_keyed_eq_ok.1 h
    have hbytes : sent.bytes =
        (m.push (key.record (Tsig.sealed key none m time fudge fields))).encode :=
      congrArg SignedQuery.bytes hsent
    rw [hbytes, Message.encode_push, List.length_append, ← Message.encode_length_push,
      ResourceRecord.encode_length, record_length]
  | unsigned | gss =>
    obtain ⟨-, rfl⟩ := (sign_unkeyed_eq_ok (by nofun)).1 h
    rfl

end Signing

/-! ## requests -/

namespace Request

/-- the bytes of the query: its header, the question, the key record and the extra records -/
def size (r : Request) : Nat :=
  Header.size + ((Name.ofText r.keyName).wireLength + 4) +
    ((Name.ofText r.keyName).wireLength + 10 +
      ((Name.ofText r.algorithm).wireLength + 16 + r.keyMaterial.length) +
      (r.extraRecords.map ResourceRecord.wireLength).sum)

theorem message_length (r : Request) (now : UInt32) (id : UInt16) :
    (r.message now id).encode.length = r.size := by
  have hrecord : (r.keyRecord now).wireLength = (Name.ofText r.keyName).wireLength + 10 +
      ((Name.ofText r.algorithm).wireLength + 16 + r.keyMaterial.length) := by
    rw [ResourceRecord.wireLength, keyRecord_length]
    rfl
  have hrecords : (r.message now id).records = r.keyRecord now :: r.extraRecords := rfl
  rw [Message.encode_length, hrecords, List.map_cons, List.sum_cons, hrecord]
  rfl

theorem sent_length {r : Request} {now : UInt32} {id : UInt16} {query : Message}
    {signing : Signing} {time : UInt64} {sent : SignedQuery} (hquery : r.query now id = .ok query)
    (hsign : signing.sign query time = .ok sent) : sent.bytes.length = r.size + signing.size := by
  obtain ⟨-, rfl, -⟩ := query_eq_ok.1 hquery
  rw [Signing.sign_length hsign, message_length]

end Request

end TransactionKey
