import TransactionKey.Proofs.Message.Kept
import TransactionKey.Proofs.Request
import TransactionKey.Proofs.Tsig.Signing

/-!
# What a server reads of a request

`decode_signed` says that the query of a request, signed in any way, is read as the request: its key
record, its extra records as they were given, and at the end the signature record, if there is one.
-/

namespace TransactionKey.Request

/-- a message that says what the request asks for at a time, and ends with these records -/
structure Conveyed (r : Request) (now : UInt32) (id : UInt16) (ending : List ResourceRecord)
    (received : Message) : Prop where
  header : received.header =
    { id, qr := false, rd := false, qdcount := 1
      arcount := UInt16.ofNat received.additionals.length }
  questions : received.questions = [⟨Name.ofText r.keyName, .tkey, .any⟩]
  answers : received.answers = []
  authorities : received.authorities = []
  additionals : ∃ record, received.additionals = record :: (r.extraRecords ++ ending) ∧
    record.name = Name.ofText r.keyName ∧ record.type = .tkey ∧ record.rclass = .any ∧
    record.ttl = 0 ∧ Tkey.ofRecord record = .ok (r.asked now)

section
variable {r : Request} {now : UInt32} {id : UInt16}

theorem question_kept (h : (r.message now id).Writable) :
    ∀ q ∈ (r.message now id).questions, q.Kept := by
  intro q hq
  have hname := h.questions q hq
  rw [List.mem_singleton.1 hq] at hname ⊢
  exact ⟨⟨Name.ofText_complete r.keyName, rfl, rfl⟩, hname⟩

theorem keyRecord_kept (h : r.Encodable now) (hname : (Name.ofText r.keyName).Encodable) :
    (r.keyRecord now).Kept := by
  have hlength : (r.keyRecord now).rdlength = UInt16.ofNat (r.keyRecord now).rdata.length := rfl
  have hplain := Tkey.record_plain (r.wanted now) r.keyMaterial [] h.algorithm
  refine ⟨⟨Name.ofText_complete r.keyName, rfl, rfl, ?_⟩, hname, ?_⟩
  · rw [hlength, Message.count_toNat h.data]
  · exact hplain.full.settled

/-- **a signed query is read as the request, whatever signs it** -/
theorem decode_signed {m : Message} {signing : Signing} {time : UInt64} {sent : SignedQuery}
    (hextra : ∀ x ∈ r.extraRecords, x.WellFormed) (hquery : r.query now id = .ok m)
    (hsign : signing.sign m time = .ok sent) :
    ∃ mac received, Message.decode sent.bytes = .ok received ∧
      r.Conveyed now m.header.id (signing.ending m.header.id time mac) received ∧
      r.Supported ∧ (r.asked now).keyBytes = .ok r.keyMaterial := by
  obtain ⟨hr, rfl, hm⟩ := query_eq_ok.1 hquery
  obtain ⟨mac, hbytes, hsent, hending⟩ := Signing.sign_bytes hsign
  have hkept : ∀ x ∈ ((r.message now id).extend
      (signing.ending (r.message now id).header.id time mac)).records, x.Kept := by
    rw [Message.records_extend]
    intro x hx
    rcases List.mem_append.1 hx with hx | hx
    · rcases List.mem_cons.1 hx with rfl | hx
      · exact keyRecord_kept hr (hm.records _ hx)
      · exact (hextra x hx).kept
    · exact hending x hx
  rw [hbytes]
  refine ⟨mac, _, Message.decode_kept hsent (question_kept hm) hkept, ?_, hr.mode, ?_⟩
  · exact ⟨rfl, rfl, rfl, rfl, r.keyRecord now, rfl, rfl, rfl, rfl, rfl, ofRecord_keyRecord hr⟩
  · exact Tkey.keyBytes_eq_ok.2 (Hex.decode_encode r.keyMaterial)

end

/-! ## an example -/

/-- a request with empty labels in its key name, and a record that embeds a name -/
def mailRequest : Request where
  host := "ns.example"
  keyName := "K1..example"
  algorithm := "hmac-sha256"
  mode := 2
  lifetime := 3600
  keyMaterial := [0xde, 0xad]
  extraRecords := Message.mailReply.answers

theorem decode_signed_mailRequest :
    ∃ m sent mac received, mailRequest.query 1000 7 = .ok m ∧
      (Signing.keyed Tsig.sharedKey).sign m 1000 = .ok sent ∧
      Message.decode sent.bytes = .ok received ∧
      mailRequest.Conveyed 1000 7 ((Signing.keyed Tsig.sharedKey).ending 7 1000 mac) received ∧
      mailRequest.Supported ∧ (mailRequest.asked 1000).keyBytes = .ok [0xde, 0xad] := by
  have hextra : ∀ x ∈ mailRequest.extraRecords, x.WellFormed := fun x hx =>
    Message.mailReply_wellFormed.record (List.mem_append_left _ (List.mem_append_left _ hx))
  have hquery : mailRequest.query 1000 7 = .ok (mailRequest.message 1000 7) := rfl
  obtain ⟨-, -, hm⟩ := query_eq_ok.1 hquery
  have hadmits : (Signing.keyed Tsig.sharedKey).Admits (mailRequest.message 1000 7) := by
    rintro _ ⟨⟩
    decide
  obtain ⟨sent, hsign⟩ : ∃ sent, (Signing.keyed Tsig.sharedKey).sign (mailRequest.message 1000 7)
      1000 = .ok sent := Signing.sign_ok_iff.2 ⟨hm, hadmits⟩
  obtain ⟨mac, received, h⟩ := decode_signed hextra hquery hsign
  exact ⟨_, sent, mac, received, hquery, hsign, h⟩

end TransactionKey.Request
