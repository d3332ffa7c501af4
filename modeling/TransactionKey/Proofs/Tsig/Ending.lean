import TransactionKey.Proofs.Message.Places
import TransactionKey.Proofs.ResourceRecord.Data
import TransactionKey.Proofs.Tsig.Agreement

/-!
# How an accepted reply ends

The signature of a reply covers what stands before the signature record and the fields of the
signature, but class ANY and time to live 0 whatever the record says, and nothing that follows the
fields in the data of the record or the record in the reply.

* `endsWith_iff`        which byte strings end with a signature record;
* `verify_congr`        the verdict depends on nothing but the signature, its name and what it covers;
* `verify_loosened`     a signed reply keeps its verdict when its record is given another class and
                        time to live, and bytes are added to its data and after it;
* `accepted_ending`     which replies are accepted, by how they end.
-/

namespace TransactionKey.Tsig

/-- after `offset` bytes stand an owner name, the fields of a signature record and `trailing` bytes; the
data of the record are the algorithm and the fields of the signature and `surplus` bytes -/
structure EndsWith (message : Bytes) (offset : Nat) (record : ResourceRecord) (s : Signature)
    (surplus trailing : Bytes) : Prop where
  last : Message.lastAdditionalOffset message = .ok (some offset)
  owner : ∃ owner : Bytes, message.drop offset = owner ++ (record.fields ++ trailing) ∧
    Name.decode message (message.drop offset) = .ok (record.name, owner.length)
  form : record.InForm
  type : record.type = .tsig
  fits : s.Fits
  data : ∃ algorithm : Name, (∀ label ∈ algorithm.proper, Name.IsLabel label) ∧
    s.algorithm = algorithm.toText ∧ record.rdata = algorithm.encode ++ (s.fields ++ surplus)

section
variable {message : Bytes} {offset : Nat} {record : ResourceRecord} {s : Signature}
  {surplus trailing : Bytes}

theorem layout_tsig {r : ResourceRecord} (h : r.type = .tsig) : r.type.layout? = none := by
  rw [h]
  rfl

theorem EndsWith.read (h : EndsWith message offset record s surplus trailing) :
    ∃ owner : Bytes, message.drop offset = owner ++ (record.fields ++ trailing) ∧
      ResourceRecord.decode message (message.drop offset) =
        .ok (record, owner.length + record.fields.length) := by
  obtain ⟨owner, hdrop, hname⟩ := h.owner
  have hfields := h.form.decodeFields_append (layout_tsig h.type) trailing (m := message)
  refine ⟨owner, hdrop, ?_⟩
  rw [ResourceRecord.decode, Decoder.bind, hname]
  dsimp only
  rw [hdrop, List.drop_left, hfields]

/-- the record that is found and the signature that is read from it say how the message ends -/
theorem endsWith_iff : (∃ surplus trailing, EndsWith message offset record s surplus trailing) ↔
    find message = .ok (some (record, offset)) ∧ Signature.ofRdata record.rdata = .ok s := by
  constructor
  · intro h
    obtain ⟨surplus, trailing, h⟩ := h
    obtain ⟨owner, -, hread⟩ := h.read
    obtain ⟨algorithm, hdata⟩ := h.data
    exact ⟨find_eq_ok.2 ⟨h.last, _, hread, h.type⟩,
      Signature.ofRdata_eq_ok.2 ⟨h.fits, algorithm, surplus, hdata⟩⟩
  · intro h
    obtain ⟨hfind, hdata⟩ := h
    obtain ⟨hlast, n, hread, htype⟩ := find_eq_ok.1 hfind
    obtain ⟨hfits, algorithm, surplus, hdata⟩ := Signature.ofRdata_eq_ok.1 hdata
    have hform := (ResourceRecord.decode_returns hread).toInForm
    obtain ⟨name, k, l, hname, hfields, rfl⟩ := Decoder.bind_eq_ok.1 hread
    obtain ⟨rfl, -, trailing, hrest⟩ := ResourceRecord.decodeFields_bare hfields (layout_tsig htype)
    have hle := Name.decode_bounded hname
    refine ⟨surplus, trailing, hlast, ⟨(message.drop offset).take k, ?_, ?_⟩, hform, htype, hfits,
      algorithm, hdata⟩
    · rw [← hrest, List.take_append_drop]
    · rw [List.length_take_of_le hle]
      exact hname

/-- nothing follows the record in a message that is read as a whole -/
theorem EndsWith.trailing_eq_nil (h : EndsWith message offset record s surplus trailing)
    {m : Message} (hwhole : Message.decode message = .ok m) : trailing = [] := by
  obtain ⟨owner, hdrop, hread⟩ := h.read
  obtain ⟨r, hlast⟩ := Message.lastAdditionalOffset_readAt hwhole h.last
  obtain ⟨n, hsame, hlength⟩ := Decoder.readAt_eq_ok.1 hlast
  rw [hread] at hsame
  obtain ⟨-, rfl⟩ := Prod.mk.inj (Except.ok.inj hsame)
  have hrest := congrArg List.length hdrop
  rw [List.length_drop, List.length_append, List.length_append] at hrest
  apply List.eq_nil_of_length_eq_zero
  omega

end

/-! ## what the verdict depends on -/

theorem covered_congr {queryMac : Option Bytes} {signer : String} {s : Signature}
    {response response' : Bytes} {offset : Nat} (h : response'.take offset = response.take offset) :
    covered queryMac signer s response' offset = covered queryMac signer s response offset := by
  rw [covered, unsignedPart, h]
  rfl

section
variable {key : Key} {queryMac : Option Bytes} {response response' : Bytes} {now : UInt64}
  {offset : Nat} {record record' : ResourceRecord} {s : Signature} {surplus surplus' : Bytes}
  {trailing trailing' : Bytes}

/-- two replies with the same signature in the same name after the same bytes have the same verdict,
whatever else their signature records say and whatever follows -/
theorem verify_congr (h : EndsWith response offset record s surplus trailing)
    (h' : EndsWith response' offset record' s surplus' trailing')
    (hfront : response'.take offset = response.take offset)
    (howner : record'.owner = record.owner) :
    verify key queryMac response' now = verify key queryMac response now := by
  obtain ⟨hfind, hdata⟩ := endsWith_iff.1 ⟨surplus, trailing, h⟩
  obtain ⟨hfind', hdata'⟩ := endsWith_iff.1 ⟨surplus', trailing', h'⟩
  rw [verify, examine_found hfind' hdata', howner, covered_congr hfront,
    ← examine_found hfind hdata, verify]

end

/-! ## signed replies with looser records -/

/-- the signature record of a key with another class and time to live, and with bytes after the fields
of the signature -/
def Key.loosened (key : Key) (s : Signature) (rclass : RecordClass) (ttl : UInt32)
    (surplus : Bytes) : ResourceRecord :=
  ⟨Name.ofText key.name, .tsig, rclass, ttl, UInt16.ofNat (s.data ++ surplus).length,
    s.data ++ surplus⟩

theorem Key.loosened_nil (key : Key) (s : Signature) : key.loosened s .any 0 [] = key.record s := by
  rw [loosened, List.append_nil]
  rfl

section
variable {key : Key} {m : Message} {s : Signature} {now : UInt64} {queryMac : Option Bytes}
  {rclass : RecordClass} {surplus : Bytes} (ttl : UInt32)
  (hm : m.Encodable) (room : m.additionals.length < 65535)
  (hname : (Name.ofText key.name).Encodable) (halgorithm : s.algorithm = key.algorithm.name)
  (hfits : s.Fits) (hclass : rclass.Canonical)
  (hsize : (s.data ++ surplus).length ≤ ResourceRecord.maxData)
include hm room hname halgorithm hfits hclass hsize

theorem endsWith_loosened (trailing : Bytes) :
    EndsWith ((m.push (key.loosened s rclass ttl surplus)).encode ++ trailing) m.encode.length
      (key.loosened s rclass ttl surplus).normal s surplus trailing := by
  have hrecord : (key.loosened s rclass ttl surplus).Encodable :=
    ⟨hname, rfl, hclass, hsize, fun _ h => nomatch h⟩
  have halgorithmName : (Name.ofText s.algorithm).Encodable :=
    halgorithm ▸ key.algorithm.encodable_name
  have hspelled : s.algorithm = (Name.ofText s.algorithm).canonical.toText := by
    rw [halgorithm, key.algorithm.canonical_name, key.algorithm.toText_name]
  have hdrop := Message.drop_encode_push m (key.loosened s rclass ttl surplus) trailing
  refine ⟨Message.lastAdditionalOffset_push (hm.push hrecord room) trailing,
    ⟨(Name.ofText key.name).encode, ?_, ?_⟩, ⟨?_, rfl, hclass, ?_⟩, rfl, hfits,
    _, halgorithmName.canonical.isLabel, hspelled, ?_⟩
  · rw [hdrop, ResourceRecord.encode, List.append_assoc]
    rfl
  · rw [hdrop, ResourceRecord.encode, List.append_assoc]
    exact Name.decode_accepts hname _ _
  · show (Name.ofText key.name).normal.Complete
    rw [Name.ofText_normal]
    exact Name.ofText_complete key.name
  · exact Message.count_toNat hsize
  · exact List.append_assoc _ _ _

/-- a reply keeps its verdict when its signature record is given another class and time to live and
bytes are added to its data and after it -/
theorem verify_loosened (trailing : Bytes) :
    verify key queryMac ((m.push (key.loosened s rclass ttl surplus)).encode ++ trailing) now =
      verify key queryMac (m.push (key.record s)).encode now := by
  have hplain : (s.data ++ []).length ≤ ResourceRecord.maxData := by
    rw [List.append_nil]
    rw [List.length_append] at hsize
    omega
  have hany : RecordClass.any.Canonical := rfl
  have hloose := endsWith_loosened ttl hm room hname halgorithm hfits hclass hsize trailing
  have hstrict := endsWith_loosened 0 hm room hname halgorithm hfits hany hplain []
  rw [← List.append_nil (m.push (key.record s)).encode, ← Key.loosened_nil]
  exact verify_congr hstrict hloose (Message.take_encode_push_congr ..) rfl

end

/-- a key accepts what it signs with any class and time to live and with further bytes -/
theorem loosened_accepted {key : Key} {m : Message} {time now : UInt64} {fudge : UInt16}
    (hname : (Name.ofText key.name).Encodable) (htext : (Name.ofText key.name).toText = key.name)
    (hm : m.Encodable) (room : m.additionals.length < 65535)
    (htime : time.toNat < 0x1000000000000) (hnow : now.toNat < 0x8000000000000000)
    (hskew : ((now.toNat : Int) - time.toNat).natAbs ≤ fudge.toNat) (queryMac : Option Bytes) :
    ∃ s : Signature, ∀ (rclass : RecordClass) (ttl : UInt32) (surplus trailing : Bytes),
      rclass.Canonical → surplus.length ≤ 65000 →
        let record := key.loosened s rclass ttl surplus
        let response := (m.push record).encode ++ trailing
        EndsWith response m.encode.length record.normal s surplus trailing ∧
          (Signing.keyed key).verify queryMac response now = .ok () := by
  obtain ⟨fields, hfields⟩ := Key.coveredFields_ok hname
    (s := { Signing.blankSignature key m.header.id time with fudge }) rfl
  let s := sealed key queryMac m time fudge fields
  have hfits : s.Fits := sealed_fits queryMac htime
  have hstrict : verify key queryMac (m.push (key.record s)).encode now = .ok () :=
    verify_sealed hname htext hm room htime hnow hskew queryMac hfields
  refine ⟨s, ?_⟩
  intro rclass ttl surplus trailing hclass hsurplus
  have hsize : (s.data ++ surplus).length ≤ ResourceRecord.maxData := by
    have hlength := Signature.data_length_le (s := s) key.algorithm.encodable_name
    have hmac : s.mac.length ≤ 64 := key.mac_length_le _
    have hother : s.other.length = 0 := rfl
    rw [List.length_append, ResourceRecord.maxData]
    omega
  exact ⟨endsWith_loosened ttl hm room hname rfl hfits hclass hsize trailing,
    (verify_loosened ttl hm room hname rfl hfits hclass hsize trailing).trans hstrict⟩

/-- **a reply is accepted just if it ends with a signature record whose signature is right** for the
bytes before the record and the fields of the signature; nothing follows the record if the reply can
be read, but neither that nor the class, the time to live and the bytes after the fields are checked:
they do not change the verdict -/
theorem accepted_ending (key : Key) (queryMac : Option Bytes) :
    (∀ response now, (Signing.keyed key).verify queryMac response now = .ok () ↔
      ∃ offset record s surplus trailing, EndsWith response offset record s surplus trailing ∧
        Text.sameAscii record.owner key.name = true ∧
        Algorithm.ofName? s.algorithm = some key.algorithm ∧ s.error = 0 ∧ Fresh s now ∧
        ∃ bytes, covered queryMac record.owner s response offset = .ok bytes ∧
          s.mac = key.mac bytes) ∧
    (∀ response offset record s surplus trailing m,
      EndsWith response offset record s surplus trailing → Message.decode response = .ok m →
      trailing = []) ∧
    (∀ response response' now offset record record' s surplus surplus' trailing trailing',
      EndsWith response offset record s surplus trailing →
      EndsWith response' offset record' s surplus' trailing' →
      response'.take offset = response.take offset → record'.owner = record.owner →
      (Signing.keyed key).verify queryMac response' now =
        (Signing.keyed key).verify queryMac response now) := by
  refine ⟨?_, ?_, ?_⟩
  · intro response now
    constructor
    · intro h
      obtain ⟨s, bytes, hexamine, hmac⟩ := verify_eq_ok.1 h
      obtain ⟨record, offset, hfind, hdata, howner, halgorithm, herror, hfresh, hcovered⟩ :=
        examine_eq_ok.1 hexamine
      obtain ⟨surplus, trailing, hends⟩ := endsWith_iff.2 ⟨hfind, hdata⟩
      exact ⟨offset, record, s, surplus, trailing, hends, howner, halgorithm, herror, hfresh, bytes,
        hcovered, hmac.symm⟩
    · intro h
      obtain ⟨offset, record, s, surplus, trailing, hends, howner, halgorithm, herror, hfresh, bytes,
        hcovered, hmac⟩ := h
      obtain ⟨hfind, hdata⟩ := endsWith_iff.1 ⟨surplus, trailing, hends⟩
      have hexamine := examine_eq_ok.2
        ⟨record, offset, hfind, hdata, howner, halgorithm, herror, hfresh, hcovered⟩
      exact verify_eq_ok.2 ⟨s, bytes, hexamine, hmac.symm⟩
  · intro response offset record s surplus trailing m hends hread
    exact hends.trailing_eq_nil hread
  · intro response response' now offset record record' s surplus surplus' trailing trailing' h h'
      hfront howner
    exact verify_congr h h' hfront howner

/-! ## an example -/

/-- replies that the shared key accepts -/
theorem loosened_sharedKey :
    ∃ s : Signature, ∀ (rclass : RecordClass) (ttl : UInt32) (surplus trailing : Bytes),
      rclass.Canonical → surplus.length ≤ 65000 →
        let record := sharedKey.loosened s rclass ttl surplus
        let response := (Message.mailReply.push record).encode ++ trailing
        EndsWith response Message.mailReply.encode.length record.normal s surplus trailing ∧
          (Signing.keyed sharedKey).verify (some [1, 2, 3]) response 1060 = .ok () :=
  loosened_accepted (by decide) (by decide) Message.mailReply_wellFormed.toEncodable (by decide)
    (show (1000 : UInt64).toNat < 0x1000000000000 by decide) (by decide)
    (show (((1060 : UInt64).toNat : Int) - (1000 : UInt64).toNat).natAbs ≤ (60 : UInt16).toNat by
      decide) (some [1, 2, 3])

/-- the signature record has class IN, a time to live and a byte after the fields, and a byte follows
it; the reply is accepted -/
theorem loosened_accepted_mailReply :
    ∃ response offset record s, EndsWith response offset record s [0] [255] ∧
      record.rclass = .internet ∧ record.ttl = 5 ∧
      (Signing.keyed sharedKey).verify (some [1, 2, 3]) response 1060 = .ok () := by
  obtain ⟨s, h⟩ := loosened_sharedKey
  obtain ⟨hends, haccepted⟩ := h .internet 5 [0] [255] rfl (by decide)
  exact ⟨_, _, _, s, hends, rfl, rfl, haccepted⟩

/-- how an accepted reply ends, and another reply that ends with the same signature -/
theorem accepted_ending_mailReply :
    ∃ response response' offset record record' s,
      (Signing.keyed sharedKey).verify (some [1, 2, 3]) response 1060 = .ok () ∧
      EndsWith response offset record s [7] [] ∧ EndsWith response' offset record' s [] [8, 9] ∧
      response'.take offset = response.take offset ∧ record'.owner = record.owner ∧
      (Signing.keyed sharedKey).verify (some [1, 2, 3]) response' 1060 =
        (Signing.keyed sharedKey).verify (some [1, 2, 3]) response 1060 ∧
      ∀ m, Message.decode response' ≠ .ok m := by
  obtain ⟨s, h⟩ := loosened_sharedKey
  obtain ⟨hends, haccepted⟩ := h .any 0 [7] [] rfl (by decide)
  obtain ⟨hends', -⟩ := h .internet 5 [] [8, 9] rfl (by decide)
  obtain ⟨-, htrailing, hverdict⟩ := accepted_ending sharedKey (some [1, 2, 3])
  have hfront := Message.take_encode_push_congr Message.mailReply
    (sharedKey.loosened s .internet 5 []) (sharedKey.loosened s .any 0 [7]) [8, 9] []
  refine ⟨_, _, _, _, _, s, haccepted, hends, hends', hfront, rfl,
    hverdict _ _ _ _ _ _ _ _ _ _ _ hends hends' hfront rfl, ?_⟩
  intro m hread
  cases htrailing _ _ _ _ _ _ m hends' hread

end TransactionKey.Tsig
