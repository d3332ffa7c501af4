import TransactionKey.Proofs.Message.Kept
import TransactionKey.Proofs.Tsig.Agreement

/-!
# Signed queries

* `sign_ok_iff`   a query can be signed just if it can be written and admits the signature record;
* `sign_bytes`    what is sent: the query, and with a shared key the signature record at its end.
-/

namespace TransactionKey

/-- the message with more additional records -/
def Message.extend (m : Message) (rs : List ResourceRecord) : Message :=
  { m with additionals := m.additionals ++ rs }

theorem Message.records_extend (m : Message) (rs : List ResourceRecord) :
    (m.extend rs).records = m.records ++ rs := (List.append_assoc ..).symm

theorem Tsig.Key.record_kept {key : Key} {s : Signature}
    (hname : (Name.ofText key.name).Encodable) (hsize : s.data.length ≤ ResourceRecord.maxData) :
    (key.record s).Kept where
  complete := Name.ofText_complete key.name
  type := rfl
  rclass := rfl
  length := Message.count_toNat hsize
  name := hname
  settled := (Key.record_encodable hname hsize).plain.full.settled

namespace Signing

/-- the records that a signed query ends with -/
def ending (signing : Signing) (id : UInt16) (time : UInt64) (mac : Bytes) : List ResourceRecord :=
  match signing with
  | .unsigned | .gss _ => []
  | .keyed key => [key.record { blankSignature key id time with mac }]

/-- the record of a signature can be written and counted, if there is one -/
def Admits (signing : Signing) (m : Message) : Prop :=
  ∀ key, signing = .keyed key →
    (Name.ofText key.name).Encodable ∧ m.additionals.length < 65535

section
variable {signing : Signing} {m : Message} {time : UInt64}

theorem sign_keyed_eq_ok {key : Tsig.Key} {q : SignedQuery} :
    (Signing.keyed key).sign m time = .ok q ↔
      m.Writable ∧ (Signing.keyed key).Admits m ∧
        ∃ fields, let s := Tsig.sealed key none m time fudge fields
          s.coveredFields key.name = .ok fields ∧
            q = ⟨m.header.id, (m.push (key.record s)).encode, some s.mac⟩ := by
  have hadmits : (Signing.keyed key).Admits m ↔
      (Name.ofText key.name).Encodable ∧ m.additionals.length < 65535 := by
    constructor
    · intro h
      exact h key rfl
    · rintro h _ ⟨⟩
      exact h
  rw [Tsig.sign_eq_signedReply, Tsig.signedReply_eq_ok, hadmits, and_assoc]

theorem sign_unkeyed_eq_ok (h : ∀ key, signing ≠ .keyed key) {q : SignedQuery} :
    signing.sign m time = .ok q ↔ m.Writable ∧ q = ⟨m.header.id, m.encode, none⟩ := by
  cases signing with
  | keyed key => exact absurd rfl (h key)
  | unsigned | gss =>
    simp only [sign, bind_eq_ok, TsigError.onWire_eq_ok, Message.toWire_eq_ok, pure_eq_ok]
    constructor
    · rintro ⟨_, ⟨hm, rfl⟩, rfl⟩
      exact ⟨hm, rfl⟩
    · rintro ⟨hm, rfl⟩
      exact ⟨_, ⟨hm, rfl⟩, rfl⟩

theorem sign_ok_iff : (∃ q, signing.sign m time = .ok q) ↔ m.Writable ∧ signing.Admits m := by
  cases signing with
  | keyed key =>
    simp only [sign_keyed_eq_ok]
    constructor
    · rintro ⟨q, hm, hadmits, -⟩
      exact ⟨hm, hadmits⟩
    · rintro ⟨hm, hadmits⟩
      obtain ⟨fields, hfields⟩ := Tsig.Key.coveredFields_ok (hadmits key rfl).1
        (s := blankSignature key m.header.id time) rfl
      exact ⟨_, hm, hadmits, fields, hfields, rfl⟩
  | unsigned | gss =>
    constructor
    · rintro ⟨q, h⟩
      exact ⟨((sign_unkeyed_eq_ok (by nofun)).1 h).1, nofun⟩
    · rintro ⟨hm, -⟩
      exact ⟨_, (sign_unkeyed_eq_ok (by nofun)).2 ⟨hm, rfl⟩⟩

/-- what is sent is the query with its ending, and the ending can be read back -/
theorem sign_bytes {q : SignedQuery} (h : signing.sign m time = .ok q) :
    ∃ mac, let sent := m.extend (signing.ending m.header.id time mac)
      q.bytes = sent.encode ∧ sent.Writable ∧
        ∀ r ∈ signing.ending m.header.id time mac, r.Kept := by
  cases signing with
  | keyed key =>
    obtain ⟨hm, hadmits, fields, -, rfl⟩ := sign_keyed_eq_ok.1 h
    obtain ⟨hname, room⟩ := hadmits key rfl
    have hrecord : (key.record (Tsig.sealed key none m time fudge fields)).Kept :=
      Tsig.Key.record_kept hname (Tsig.sealed_length none)
    refine ⟨_, rfl, hm.push hname room, fun r hr => ?_⟩
    rw [List.mem_singleton.1 hr]
    exact hrecord
  | unsigned | gss =>
    obtain ⟨hm, rfl⟩ := (sign_unkeyed_eq_ok (by nofun)).1 h
    have hsame : m.extend [] = m := by rw [Message.extend, List.append_nil]
    refine ⟨[], (congrArg Message.encode hsame).symm, hsame.symm ▸ hm, List.forall_mem_nil _⟩

end

end Signing

end TransactionKey
