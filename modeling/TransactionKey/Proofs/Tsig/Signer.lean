import TransactionKey.Proofs.Name.Spelling
import TransactionKey.Proofs.Tsig.Agreement

/-!
# Whose signature is refused

A reply must be signed in the name of the key.  Names are compared as texts: the owner of the signature
record in its dotted form, and the name of the key as it was configured, in lower case.  So it is not
enough that both are the same domain name.

* `verify_eq_keyMismatch`     the only check that refuses the signer;
* `verify_keyMismatch_iff`    it refuses other names, and a key name that is not in dotted form;
* `signedReply_keyMismatch`   a key with such a name does not accept the replies that it signs.
-/

namespace TransactionKey.Tsig

/-! ## faults of the wire form -/

theorem addToCount_eq_error {delta : Int} {message : Bytes} {e : TsigError}
    (h : addToCount delta message = .error e) : ∃ reason, e = .badFormat reason := by
  unfold addToCount at h
  split at h
  · dsimp only at h
    split at h
    · exact ⟨_, (Except.error.inj h).symm⟩
    · cases h
  · exact ⟨_, (Except.error.inj h).symm⟩

theorem Signature.coveredFields_eq_error {s : Signature} {signer : String} {e : TsigError}
    (h : s.coveredFields signer = .error e) : ∃ reason, e = .badFormat reason := by
  have hwire {name : Name} (hname : TsigError.onWire name.canonicalWire = .error e) :
      ∃ reason, e = .badFormat reason := by
    obtain ⟨fault, -, rfl⟩ := TsigError.onWire_eq_error.1 hname
    exact ⟨_, rfl⟩
  rcases bind_eq_error.1 h with hname | ⟨name, -, h⟩
  · exact hwire hname
  · rcases bind_eq_error.1 h with halgorithm | ⟨algorithm, -, h⟩
    · exact hwire halgorithm
    · cases h

/-- the bytes that a signature covers are missing only where something cannot be written -/
theorem covered_eq_error {queryMac : Option Bytes} {signer : String} {s : Signature}
    {response : Bytes} {offset : Nat} {e : TsigError}
    (h : covered queryMac signer s response offset = .error e) :
    ∃ reason, e = .badFormat reason := by
  rcases bind_eq_error.1 h with hbody | ⟨body, -, h⟩
  · exact addToCount_eq_error hbody
  · rcases bind_eq_error.1 h with hfields | ⟨fields, -, h⟩
    · exact Signature.coveredFields_eq_error hfields
    · cases h

/-! ## the check of the signer -/

section
variable {key : Key} {queryMac : Option Bytes} {response : Bytes} {now : UInt64}
  {record : ResourceRecord} {offset : Nat} {s : Signature}
  (hfind : find response = .ok (some (record, offset)))
  (hdata : Signature.ofRdata record.rdata = .ok s)
include hfind hdata

theorem examine_eq_keyMismatch {signer : String} :
    examine key queryMac response now = .error (.keyMismatch signer) ↔
      Text.sameAscii record.owner key.name = false ∧ signer = record.owner := by
  rw [examine_found hfind hdata]
  simp only [guard_eq_error]
  constructor
  · intro h
    -- one case for each check in its order, and the bytes to cover at the end
    rcases h with ⟨hother, hsigner⟩ | ⟨-, ⟨-, h⟩ | ⟨-, ⟨-, h⟩ | ⟨-, ⟨-, h⟩ | ⟨-, h⟩⟩⟩⟩
    · exact ⟨by simpa using hother, TsigError.keyMismatch.inj hsigner⟩
    · cases h
    · cases h
    · cases h
    · rcases bind_eq_error.1 h with hcovered | ⟨bytes, -, h⟩
      · obtain ⟨reason, h⟩ := covered_eq_error hcovered
        cases h
      · cases h
  · rintro ⟨hother, rfl⟩
    exact .inl ⟨by simp [hother], rfl⟩

theorem verify_eq_keyMismatch {signer : String} :
    verify key queryMac response now = .error (.keyMismatch signer) ↔
      Text.sameAscii record.owner key.name = false ∧ signer = record.owner :=
  (verify_eq_error (by nofun)).trans (examine_eq_keyMismatch hfind hdata)

/-- **a reply is refused for its signer just if the owner of its signature record and the key have
different names, or texts with different empty parts between their dots; if no label of the owner
holds a dot, the latter are the keys whose name is not in dotted form** -/
theorem verify_keyMismatch_iff (howner : (Name.ofText record.owner).Encodable) :
    (∀ signer, (Signing.keyed key).verify queryMac response now = .error (.keyMismatch signer) ↔
      signer = record.owner ∧
        ((Name.ofText record.owner).canonicalWire ≠ (Name.ofText key.name).canonicalWire ∨
          Name.gaps record.owner ≠ Name.gaps key.name)) ∧
    ((∀ label ∈ record.name.proper, Name.DotFree label) →
      (Name.ofText record.owner).canonicalWire = (Name.ofText key.name).canonicalWire →
        (Name.gaps record.owner = Name.gaps key.name ↔
          (Name.ofText key.name).toText = key.name)) := by
  have hwire := Name.canonicalWire_eq_iff howner (t := key.name)
  refine ⟨?_, ?_⟩
  · intro signer
    have hcheck : Text.sameAscii record.owner key.name = false ↔
        (Name.ofText record.owner).canonicalWire ≠ (Name.ofText key.name).canonicalWire ∨
          Name.gaps record.owner ≠ Name.gaps key.name := by
      rw [← Bool.not_eq_true, Name.sameAscii_iff, ← hwire, not_and_or]
    rw [← hcheck, and_comm]
    exact verify_eq_keyMismatch hfind hdata
  · intro hdots hsame
    -- the owner is in dotted form, and the dotted forms of the two have the same empty parts
    have hform : (Name.ofText record.owner).toText = record.owner := by
      show (Name.ofText record.name.toText).toText = record.name.toText
      rw [Name.ofText_toText hdots, Name.toText_normal]
    have hgaps := Name.gaps_toText_congr (hwire.1 hsame)
    rw [Name.toText_ofText_iff, ← hgaps, hform]

end

/-- a key whose name is configured without its final dot -/
def dotlessKey : Key := ⟨"k", .sha256, [0x73, 0x65, 0x63, 0x72, 0x65, 0x74]⟩

/-- a signature that any key of the algorithm may claim -/
def unchecked : Signature := { Signing.blankSignature dotlessKey 7 1000 with mac := [9] }

/-- the owner of the record is the same name, and yet the signer is refused -/
theorem verify_keyMismatch_iff_dotlessKey :
    ∃ response record offset, find response = .ok (some (record, offset)) ∧
      Signature.ofRdata record.rdata = .ok unchecked ∧ (Name.ofText record.owner).Encodable ∧
      (∀ label ∈ record.name.proper, Name.DotFree label) ∧
      (Name.ofText record.owner).canonicalWire = (Name.ofText dotlessKey.name).canonicalWire ∧
      (Signing.keyed dotlessKey).verify none response 1000 =
        .error (.keyMismatch record.owner) := by
  have hname : (Name.ofText dotlessKey.name).Encodable := by decide
  have hsize : unchecked.data.length ≤ ResourceRecord.maxData :=
    Nat.le_trans (Signature.data_length_le dotlessKey.algorithm.encodable_name)
      (show 271 + (1 + 0) ≤ ResourceRecord.maxData by decide)
  have hfind := find_push Message.mailReply_wellFormed.toEncodable (by decide) hname hsize
  have hdata := dotlessKey.ofRdata_data (s := unchecked) rfl ⟨by decide, by decide, by decide⟩
  have hspelled : Name.ofText (dotlessKey.record unchecked).normal.owner =
      Name.ofText dotlessKey.name := by
    rw [Key.owner_record]
    decide
  have hdots : ∀ label ∈ (dotlessKey.record unchecked).normal.name.proper, Name.DotFree label := by
    decide
  have hsame := congrArg Name.canonicalWire hspelled
  have howner : (Name.ofText (dotlessKey.record unchecked).normal.owner).Encodable :=
    hspelled ▸ hname
  obtain ⟨hrefused, hform⟩ := verify_keyMismatch_iff hfind hdata howner
  have hgaps : ¬ Name.gaps (dotlessKey.record unchecked).normal.owner =
      Name.gaps dotlessKey.name := fun h => absurd ((hform hdots hsame).1 h) (by decide)
  exact ⟨_, _, _, hfind, hdata, howner, hdots, hsame, (hrefused _).2 ⟨rfl, .inr hgaps⟩⟩

/-! ## keys whose name is not in dotted form -/

/-- what such a key signs is refused by the same key, although it is signed in the same name -/
theorem signedReply_keyMismatch {key : Key} {m : Message} (time now : UInt64) (fudge : UInt16)
    (hname : (Name.ofText key.name).Encodable) (htext : (Name.ofText key.name).toText ≠ key.name)
    (hm : m.Encodable) (room : m.additionals.length < 65535)
    (htime : time.toNat < 0x1000000000000) (queryMac : Option Bytes) :
    ∃ reply record offset s, signedReply key queryMac m time fudge = .ok reply ∧
      find reply.bytes = .ok (some (record, offset)) ∧ Signature.ofRdata record.rdata = .ok s ∧
      Name.ofText record.owner = Name.ofText key.name ∧
      (Signing.keyed key).verify queryMac reply.bytes now = .error (.keyMismatch record.owner) := by
  obtain ⟨fields, hfields⟩ := Key.coveredFields_ok hname
    (s := { Signing.blankSignature key m.header.id time with fudge }) rfl
  have hfits : (sealed key queryMac m time fudge fields).Fits := sealed_fits queryMac htime
  have hsize : (sealed key queryMac m time fudge fields).data.length ≤ ResourceRecord.maxData :=
    sealed_length queryMac
  have hfind := find_push hm room hname hsize
  have hdata := key.ofRdata_data rfl hfits
  have howner := Key.owner_record key (sealed key queryMac m time fudge fields)
  have hspelled : Name.ofText (Name.ofText key.name).toText = Name.ofText key.name := by
    rw [Name.ofText_toText (Name.ofText_dotFree key.name), Name.ofText_normal]
  have hother : Text.sameAscii (Name.ofText key.name).toText key.name = false := by
    rw [← Bool.not_eq_true, Name.sameAscii_iff]
    exact fun h => htext (Name.toText_ofText_iff.2 h.2)
  rw [← howner] at hspelled hother
  exact ⟨_, _, _, _, signedReply_eq hname hm room hfields, hfind, hdata, hspelled,
    (verify_eq_keyMismatch hfind hdata).2 ⟨hother, rfl⟩⟩

/-- a key that is configured without the final dot of its name signs a reply and refuses it -/
theorem signedReply_dotlessKey :
    Key.ofBase64 "k" "hmac-sha256." "c2VjcmV0" = .ok dotlessKey ∧
      ∃ reply record offset s,
        signedReply dotlessKey (some [1, 2, 3]) Message.mailReply 1000 300 = .ok reply ∧
        find reply.bytes = .ok (some (record, offset)) ∧
        Signature.ofRdata record.rdata = .ok s ∧
        (Name.ofText record.owner).Encodable ∧
        (Name.ofText record.owner).canonicalWire = (Name.ofText dotlessKey.name).canonicalWire ∧
        (Signing.keyed dotlessKey).verify (some [1, 2, 3]) reply.bytes 1000 =
          .error (.keyMismatch record.owner) := by
  have hname : (Name.ofText dotlessKey.name).Encodable := by decide
  obtain ⟨reply, record, offset, s, hreply, hfind, hdata, hspelled, hverify⟩ :=
    signedReply_keyMismatch 1000 1000 300 hname (by decide)
      Message.mailReply_wellFormed.toEncodable (by decide) (by decide) (some [1, 2, 3])
  exact ⟨by decide, reply, record, offset, s, hreply, hfind, hdata, hspelled ▸ hname,
    congrArg Name.canonicalWire hspelled, hverify⟩

end TransactionKey.Tsig
