import TransactionKey.Proofs.Tsig.Agreement

/-!
# What a signature binds

The bytes that a signature covers are a message without its signature record and the fields of that
record, with nothing between them that tells where the one ends.  The message tells by itself:
its header says what follows, and where each question and record ends is seen from its own bytes.

* `offset_congr`   equal bytes before the signature record of one of two messages put the record at the
                   same place in the other;
* `accepted_binds` replies whose signatures must cover the same bytes are the same but for their
                   identifiers, up to their signature records.
-/

namespace TransactionKey

theorem Message.lastAdditionalOffset_le {bytes : Bytes} {offset : Nat}
    (h : lastAdditionalOffset bytes = .ok (some offset)) :
    offset ≤ bytes.length := by
  obtain ⟨header, n, rs, k, hheader, -, hwalk, rfl⟩ := lastAdditionalOffset_eq_ok.1 h
  obtain ⟨rfl, hle⟩ := Header.decode_eq_ok hheader
  have hk := walk_bounded header hwalk
  rw [List.length_drop] at hk
  omega

theorem Message.offset_congr {r r' : Bytes} {offset offset' : Nat}
    (h : lastAdditionalOffset r = .ok (some offset))
    (h' : lastAdditionalOffset r' = .ok (some offset'))
    (same : (r'.take offset).drop 2 = (r.take offset).drop 2) : offset' = offset := by
  obtain ⟨header, n, rs, k, hheader, -, hwalk, rfl⟩ := lastAdditionalOffset_eq_ok.1 h
  obtain ⟨header', n', rs', k', hheader', -, hwalk', rfl⟩ := lastAdditionalOffset_eq_ok.1 h'
  obtain ⟨rfl, -⟩ := Header.decode_eq_ok hheader
  obtain ⟨rfl, -⟩ := Header.decode_eq_ok hheader'
  have hoffset : Header.size + k - 2 = 10 + k := by
    rw [Header.size]
    omega
  rw [List.drop_take, List.drop_take, hoffset] at same
  -- the header but for its identifier, and what follows it
  have hfront : (r'.drop 2).take 10 = (r.drop 2).take 10 := by
    have := congrArg (List.take 10) same
    rwa [List.take_take, List.take_take, Nat.min_eq_left (Nat.le_add_right ..)] at this
  have hback : (r'.drop Header.size).take k = (r.drop Header.size).take k := by
    have := congrArg (List.drop 10) same
    rwa [List.drop_take, List.drop_take, List.drop_drop, List.drop_drop,
      Nat.add_sub_cancel_left] at this
  have hwalks : walk header' = walk header := by
    rw [Header.decode_congr hheader hheader' hfront.symm]
    rfl
  rw [hwalks] at hwalk'
  rw [walk_coextensive header hwalk hwalk' hback]

namespace Tsig

/-! ## replies that must be signed alike -/

/-- two replies are the same from the identifier up to their signature records, which begin at the same
place and agree on what the signature covers of them -/
structure Alike (r r' : Bytes) (s s' : Signature) (offset : Nat) : Prop where
  ends : ∃ record, find r = .ok (some (record, offset)) ∧ Signature.ofRdata record.rdata = .ok s
  ends' : ∃ record, find r' = .ok (some (record, offset)) ∧ Signature.ofRdata record.rdata = .ok s'
  body : (r.take offset).drop 2 = (r'.take offset).drop 2
  signedId : s.signedId = s'.signedId
  time : s.time = s'.time
  fudge : s.fudge = s'.fudge
  other : s.other = s'.other

theorem unsignedPart_eq_ok {s : Signature} {r body : Bytes} {offset : Nat}
    (h : unsignedPart s r offset = .ok body) (fields : Bytes) :
    addToCount 1 (body ++ fields) =
      .ok (bigEndian 2 s.signedId.toNat ++ ((r.take offset).drop 2 ++ fields)) := by
  have hundo : addToCount 1 body = .ok _ := addToCount_neg h
  rw [addToCount_append (size_le_addToCount h), hundo, ← List.append_assoc]
  rfl

/-- a shorter body is where a longer one begins, if the same bytes follow from some place on -/
theorem body_take {r r' fields fields' : Bytes} {offset offset' : Nat} (hle : offset ≤ offset')
    (hr : offset ≤ r.length) (hr' : offset' ≤ r'.length)
    (h : (r'.take offset').drop 2 ++ fields' = (r.take offset).drop 2 ++ fields) :
    (r'.take offset).drop 2 = (r.take offset).drop 2 := by
  have hlength : ((r.take offset).drop 2).length = offset - 2 := by
    rw [List.length_drop, List.length_take_of_le hr]
  have hlength' : ((r'.take offset').drop 2).length = offset' - 2 := by
    rw [List.length_drop, List.length_take_of_le hr']
  calc (r'.take offset).drop 2 = ((r'.take offset').drop 2).take (offset - 2) := by
        rw [List.drop_take, List.drop_take, List.take_take, Nat.min_eq_left (by omega)]
    _ = ((r'.take offset').drop 2 ++ fields').take (offset - 2) :=
        (List.take_append_of_le_length (by omega)).symm
    _ = (r.take offset).drop 2 := by rw [h, List.take_left' hlength]

theorem examine_alike {key : Key} {queryMac : Option Bytes} {r r' bytes : Bytes}
    {now now' : UInt64} {s s' : Signature} (h : examine key queryMac r now = .ok (s, bytes))
    (h' : examine key queryMac r' now' = .ok (s', bytes)) : ∃ offset, Alike r r' s s' offset := by
  obtain ⟨record, offset, hfind, hdata, -, -, -, -, hcovered⟩ := examine_eq_ok.1 h
  obtain ⟨record', offset', hfind', hdata', -, -, -, -, hcovered'⟩ := examine_eq_ok.1 h'
  obtain ⟨body, fields, hbody, hfields, rfl⟩ := covered_eq_ok.1 hcovered
  obtain ⟨body', fields', hbody', hfields', hbytes⟩ := covered_eq_ok.1 hcovered'
  -- with the count put back, both are an identifier, a body and the fields
  have hwhole := unsignedPart_eq_ok hbody fields
  rw [List.append_cancel_left hbytes, unsignedPart_eq_ok hbody' fields'] at hwhole
  obtain ⟨hid, hrest⟩ := List.append_inj (Except.ok.inj hwhole) (by simp only [bigEndian_length])
  have hlast := (find_eq_ok.1 hfind).1
  have hlast' := (find_eq_ok.1 hfind').1
  have hle := Message.lastAdditionalOffset_le hlast
  have hle' := Message.lastAdditionalOffset_le hlast'
  -- the shorter body begins the longer one, and tells by itself where it ends
  obtain rfl : offset' = offset := by
    rcases Nat.le_total offset offset' with hoffset | hoffset
    · exact Message.offset_congr hlast hlast' (body_take hoffset hle hle' hrest)
    · exact (Message.offset_congr hlast' hlast (body_take hoffset hle' hle hrest.symm)).symm
  obtain ⟨hsame, hfieldsSame⟩ := List.append_inj hrest (by
    rw [List.length_drop, List.length_drop, List.length_take_of_le hle,
      List.length_take_of_le hle'])
  obtain ⟨htime, hfudge, -, hother⟩ := Signature.coveredFields_inj
    (Signature.fits_of_ofRdata hdata) (Signature.fits_of_ofRdata hdata') hfields
    (hfieldsSame ▸ hfields')
  have hsigned : s.signedId = s'.signedId :=
    (UInt16.toNat_inj.1 (bigEndian_inj (w := 2) s'.signedId.toNat_lt s.signedId.toNat_lt hid)).symm
  exact ⟨offset', ⟨record, hfind, hdata⟩, ⟨record', hfind', hdata'⟩, hsame.symm, hsigned, htime,
    hfudge, hother⟩

/-- **an accepted reply carries the signature of what it must cover, and what a reply must cover binds
all of it** but its identifier and the rest of its signature record; hence two accepted replies with the
same signature are alike, unless two byte strings have the same signature -/
theorem accepted_binds (key : Key) (queryMac : Option Bytes) :
    (∀ r now, (Signing.keyed key).verify queryMac r now = .ok () →
      ∃ s bytes, examine key queryMac r now = .ok (s, bytes) ∧ s.mac = key.mac bytes) ∧
    (∀ r r' now now' s s' bytes, examine key queryMac r now = .ok (s, bytes) →
      examine key queryMac r' now' = .ok (s', bytes) → ∃ offset, Alike r r' s s' offset) ∧
    (∀ r r' now now' s s' bytes bytes', (Signing.keyed key).verify queryMac r now = .ok () →
      (Signing.keyed key).verify queryMac r' now' = .ok () →
      examine key queryMac r now = .ok (s, bytes) →
      examine key queryMac r' now' = .ok (s', bytes') → s.mac = s'.mac →
      (∃ offset, Alike r r' s s' offset) ∨ bytes ≠ bytes' ∧ key.mac bytes = key.mac bytes') := by
  have hmac {r : Bytes} {now : UInt64} (h : (Signing.keyed key).verify queryMac r now = .ok ()) :
      ∃ s bytes, examine key queryMac r now = .ok (s, bytes) ∧ s.mac = key.mac bytes := by
    obtain ⟨s, bytes, hexamine, hmac⟩ := verify_eq_ok.1 h
    exact ⟨s, bytes, hexamine, hmac.symm⟩
  refine ⟨fun r now h => hmac h, fun _ _ _ _ _ _ _ h h' => examine_alike h h', ?_⟩
  intro r r' now now' s s' bytes bytes' h h' he he' hsame
  obtain ⟨t, b, ht, htmac⟩ := hmac h
  obtain ⟨t', b', ht', htmac'⟩ := hmac h'
  obtain ⟨rfl, rfl⟩ := Prod.mk.inj (Except.ok.inj (he.symm.trans ht))
  obtain ⟨rfl, rfl⟩ := Prod.mk.inj (Except.ok.inj (he'.symm.trans ht'))
  by_cases hbytes : bytes = bytes'
  · exact .inl (examine_alike he (hbytes ▸ he'))
  · exact .inr ⟨hbytes, by rw [← htmac, ← htmac', hsame]⟩

/-! ## an example -/

/-- a signature record made under one identifier, whatever signature it carries -/
def claimed (mac : Bytes) : Signature :=
  { Signing.blankSignature sharedKey 7 1000 with mac, other := [0, 1] }

def renumbered (id : UInt16) (mac : Bytes) : Bytes :=
  ((withId Message.mailReply id).push (sharedKey.record (claimed mac))).encode

/-- two replies that differ in their identifiers and signatures must be covered by the same bytes -/
theorem accepted_binds_renumbered :
    ∃ s s' bytes, examine sharedKey none (renumbered 1 [5]) 1100 = .ok (s, bytes) ∧
      examine sharedKey none (renumbered 2 [6]) 900 = .ok (s', bytes) ∧ s ≠ s' ∧
      ∃ offset, Alike (renumbered 1 [5]) (renumbered 2 [6]) s s' offset := by
  have hname : (Name.ofText sharedKey.name).Encodable := by decide
  have htext : (Name.ofText sharedKey.name).toText = sharedKey.name := by decide
  have hm := encodable_withId Message.mailReply_wellFormed.toEncodable
  obtain ⟨fields, hfields⟩ := Key.coveredFields_ok hname (s := claimed []) rfl
  have hsize (byte : UInt8) : (claimed [byte]).data.length ≤ ResourceRecord.maxData := by
    have hlength := Signature.data_length_le (s := claimed [byte])
      sharedKey.algorithm.encodable_name
    exact Nat.le_trans hlength (show 271 + (1 + 2) ≤ ResourceRecord.maxData by decide)
  have h : examine sharedKey none (renumbered 1 [5]) 1100 = .ok (claimed [5], _) :=
    examine_push (hm 1) (by decide) hname htext rfl ⟨by decide, by decide, by decide⟩ (hsize 5) rfl
      (by decide) hfields none
  have h' : examine sharedKey none (renumbered 2 [6]) 900 = .ok (claimed [6], _) :=
    examine_push (hm 2) (by decide) hname htext rfl ⟨by decide, by decide, by decide⟩ (hsize 6) rfl
      (by decide) hfields none
  exact ⟨_, _, _, h, h', by decide, (accepted_binds sharedKey none).2.1 _ _ _ _ _ _ _ h h'⟩

end Tsig

end TransactionKey
