import TransactionKey.Proofs.Hash
import TransactionKey.Proofs.Message.RoundTrip
import TransactionKey.Proofs.Tsig.Verifying

/-!
# Signing and verifying agree

`signedReply` is what a server that shares the key answers: the reply with one more additional
record, whose signature covers the signature of the query, the reply without the record, and the
fields of the record.  What it covers of the query is spelt here (`queryPart`), apart from the check of
replies; `chained_eq` says that the check starts with the same bytes.

* `signedReply_eq_ok`     when a message can be signed, and what the signed message is;
* `sign_eq_signedReply`   a signed query is such a reply to a query without a signature;
* `verify_signedReply`    a signed reply is accepted.
-/

namespace TransactionKey.Tsig

/-- what the signature of a reply covers of the query: the signature of the query after its length in
two bytes, or nothing if the query has none -/
def queryPart : Option Bytes → Bytes
  | none => []
  | some mac => bigEndian 2 mac.length ++ mac

/-- a check of a signature starts with the bytes that the signer starts with -/
theorem chained_eq (queryMac : Option Bytes) : chained queryMac = queryPart queryMac := by
  cases queryMac with
  | none => rfl
  | some mac => rfl

/-- a reply with the signature of a key, to a query with the signature `queryMac` -/
def signedReply (key : Key) (queryMac : Option Bytes) (m : Message) (time : UInt64)
    (fudge : UInt16) : Except TsigError SignedQuery := do
  let bytes ← TsigError.onWire m.toWire
  let blank := { Signing.blankSignature key m.header.id time with fudge }
  let mac := key.mac (queryPart queryMac ++ bytes ++ (← blank.coveredFields key.name))
  let rdata ← { blank with mac }.toRdata
  let record ← TsigError.onWire (ResourceRecord.ofText key.name .tsig .any 0 rdata)
  let ending ← TsigError.onWire record.toWire
  return ⟨m.header.id, (← addToCount 1 bytes) ++ ending, some mac⟩

/-- the signature that a signed reply holds, if it covers these fields -/
def sealed (key : Key) (queryMac : Option Bytes) (m : Message) (time : UInt64) (fudge : UInt16)
    (fields : Bytes) : Signature :=
  { Signing.blankSignature key m.header.id time with
    fudge, mac := key.mac (queryPart queryMac ++ m.encode ++ fields) }

section
variable {key : Key} {m : Message} {time : UInt64} {fudge : UInt16} {fields : Bytes}

theorem sealed_fits (queryMac : Option Bytes) (htime : time.toNat < 0x1000000000000) :
    (sealed key queryMac m time fudge fields).Fits where
  time := htime
  mac := Nat.le_trans (key.mac_length_le _) (by decide)
  other := Nat.zero_le _

theorem sealed_length (queryMac : Option Bytes) :
    (sealed key queryMac m time fudge fields).data.length ≤ ResourceRecord.maxData := by
  have hlength := Signature.data_length_le (s := sealed key queryMac m time fudge fields)
    key.algorithm.encodable_name
  have hmac : (sealed key queryMac m time fudge fields).mac.length ≤ 64 := key.mac_length_le _
  have hother : (sealed key queryMac m time fudge fields).other.length = 0 := rfl
  rw [ResourceRecord.maxData]
  omega

/-- signing succeeds just if the message and the key name can be written and the additional section
has room for the signature record -/
theorem signedReply_eq_ok {queryMac : Option Bytes} {reply : SignedQuery} :
    signedReply key queryMac m time fudge = .ok reply ↔
      m.Writable ∧ (Name.ofText key.name).Encodable ∧ m.additionals.length < 65535 ∧
        ∃ fields, let s := sealed key queryMac m time fudge fields
          s.coveredFields key.name = .ok fields ∧
            reply = ⟨m.header.id, (m.push (key.record s)).encode, some s.mac⟩ := by
  simp only [signedReply, bind_eq_ok, TsigError.onWire_eq_ok, Message.toWire_eq_ok, pure_eq_ok,
    Signature.toRdata_eq_ok, ResourceRecord.ofText_eq_ok, ResourceRecord.toWire_eq_ok]
  constructor
  · rintro ⟨_, ⟨hm, rfl⟩, fields, hfields, _, ⟨-, rfl⟩, _, ⟨-, rfl⟩, _, ⟨hname, rfl⟩, _, hcount,
      rfl⟩
    let record := key.record (sealed key queryMac m time fudge fields)
    obtain ⟨room, rfl⟩ := (addToCount_encode_eq_ok hm.sections record).1 hcount
    exact ⟨hm, hname, room, fields, hfields, by rw [Message.encode_push]; rfl⟩
  · rintro ⟨hm, hname, room, fields, hfields, rfl⟩
    let record := key.record (sealed key queryMac m time fudge fields)
    have hcount := (addToCount_encode_eq_ok hm.sections record).2 ⟨room, rfl⟩
    refine ⟨_, ⟨hm, rfl⟩, fields, hfields, _, ⟨key.algorithm.encodable_name, rfl⟩, _,
      ⟨sealed_length queryMac, rfl⟩, _, ⟨hname, rfl⟩, _, hcount, ?_⟩
    rw [Message.encode_push]
    rfl

theorem signedReply_eq {queryMac : Option Bytes} (hname : (Name.ofText key.name).Encodable)
    (hm : m.Encodable) (room : m.additionals.length < 65535)
    (hfields : (sealed key queryMac m time fudge fields).coveredFields key.name = .ok fields) :
    let s := sealed key queryMac m time fudge fields
    signedReply key queryMac m time fudge =
      .ok ⟨m.header.id, (m.push (key.record s)).encode, some s.mac⟩ :=
  signedReply_eq_ok.2 ⟨hm.writable, hname, room, fields, hfields, rfl⟩

end

theorem sign_eq_signedReply (key : Key) (m : Message) (time : UInt64) :
    (Signing.keyed key).sign m time = signedReply key none m time Signing.fudge := by
  unfold signedReply Signing.sign
  refine bind_congr_ok fun bytes hbytes => ?_
  have hlength : Header.size ≤ bytes.length := by
    obtain ⟨-, rfl⟩ := Message.toWire_eq_ok.1 (TsigError.onWire_eq_ok.1 hbytes)
    rw [Message.encode, List.length_append, Header.encode_length]
    omega
  refine bind_congr fun fields => bind_congr fun rdata => bind_congr fun record =>
    bind_congr fun ending => ?_
  rw [addToCount_append hlength]
  cases addToCount 1 bytes <;> rfl

/-- a message that ends with such a signature passes while the clocks differ by no more than the fudge -/
theorem verify_sealed {key : Key} {m : Message} {time now : UInt64} {fudge : UInt16} {fields : Bytes}
    (hname : (Name.ofText key.name).Encodable) (htext : (Name.ofText key.name).toText = key.name)
    (hm : m.Encodable) (room : m.additionals.length < 65535)
    (htime : time.toNat < 0x1000000000000) (hnow : now.toNat < 0x8000000000000000)
    (hskew : ((now.toNat : Int) - time.toNat).natAbs ≤ fudge.toNat) (queryMac : Option Bytes)
    (hfields : (sealed key queryMac m time fudge fields).coveredFields key.name = .ok fields) :
    verify key queryMac (m.push (key.record (sealed key queryMac m time fudge fields))).encode now =
      .ok () := by
  have hfits : (sealed key queryMac m time fudge fields).Fits := sealed_fits queryMac htime
  refine verify_eq_ok.2 ⟨_, _, examine_push hm room hname htext rfl hfits (sealed_length queryMac) rfl
    ((fresh_iff hfits hnow).2 hskew) hfields queryMac, ?_⟩
  rw [chained_eq, ← List.append_assoc]
  rfl

/-- **what a holder of the key signs is accepted** while the clocks differ by no more than the fudge -/
theorem verify_signedReply {key : Key} {m : Message} {time now : UInt64} {fudge : UInt16}
    (hname : (Name.ofText key.name).Encodable) (htext : (Name.ofText key.name).toText = key.name)
    (hm : m.Encodable) (room : m.additionals.length < 65535)
    (htime : time.toNat < 0x1000000000000) (hnow : now.toNat < 0x8000000000000000)
    (hskew : ((now.toNat : Int) - time.toNat).natAbs ≤ fudge.toNat) (queryMac : Option Bytes) :
    ∃ reply, signedReply key queryMac m time fudge = .ok reply ∧
      (Signing.keyed key).verify queryMac reply.bytes now = .ok () ∧
      (queryMac = none → fudge = Signing.fudge → (Signing.keyed key).sign m time = .ok reply) := by
  obtain ⟨fields, hfields⟩ := Key.coveredFields_ok hname
    (s := { Signing.blankSignature key m.header.id time with fudge }) rfl
  refine ⟨_, signedReply_eq hname hm room hfields, ?_, ?_⟩
  · exact verify_sealed hname htext hm room htime hnow hskew queryMac hfields
  · rintro rfl rfl
    rw [sign_eq_signedReply]
    exact signedReply_eq hname hm room hfields

/-! ## an example -/

/-- a key whose name has a letter beyond ASCII -/
def sharedKey : Key := ⟨"schlüssel.example.", .sha256, [0x73, 0x33, 0x63]⟩

/-- a reply to a signed query, sixty seconds old -/
theorem verify_signedReply_mailReply :
    ∃ reply, signedReply sharedKey (some [1, 2, 3]) Message.mailReply 1000 60 = .ok reply ∧
      (Signing.keyed sharedKey).verify (some [1, 2, 3]) reply.bytes 1060 = .ok () ∧
      (some [1, 2, 3] = (none : Option Bytes) → (60 : UInt16) = Signing.fudge →
        (Signing.keyed sharedKey).sign Message.mailReply 1000 = .ok reply) :=
  verify_signedReply (by decide) (by decide) Message.mailReply_wellFormed.toEncodable (by decide)
    (by decide) (by decide) (by decide) (some [1, 2, 3])

end TransactionKey.Tsig
