import TransactionKey.Proofs.Message.Ranged
import TransactionKey.Proofs.Tsig.Binding
import TransactionKey.Tkey

/-!
# No reader goes out of range

Key records and the check of a reply by offsets.  The check cuts the signature record off the reply,
and then writes over two places of its header, which is there because the record was found behind it.

* `Tkey.ofRdataByOffset_yields`       the contents of key records;
* `Tsig.addToCountByOffset_yields`    the count of additional records is changed where it stands;
* `Signing.verifyByOffset_yields`     the check of a reply;
* `readers_in_range`                  what is read ends within the message, and so every reader stays in
                                      range.
-/

namespace TransactionKey

/-! ## key records -/

namespace Tkey

def short : WireError := .badRdata .truncated

/-- the other data with its size, which must be all that is left -/
def lastField (rest : Bytes) : Except WireError (Nat × Bytes) :=
  match rest with
  | o1 :: o0 :: body =>
    let size := ofBigEndian [o1, o0]
    match Bytes.take? size body with
    | some (other, []) => .ok (size, other)
    | some (_, surplus) => .error (.badRdata (.surplus surplus.length))
    | none => .error short
  | _ => .error short

def lastFieldByOffset (rdata : Bytes) (offset : Nat) : Ranged WireError (Nat × Bytes) := do
  let size ← need short (rdata.number? offset 2)
  let start := offset + 2
  let stop := start + size
  let other ← need short (rdata.slice? start stop)
  if stop ≠ rdata.length then throw (.badRdata (.surplus (← sub? rdata.length stop)))
  else return (size, other)

/-- the record with an owner name and record data -/
def ofRdataByOffset (name : String) (rdata : Bytes) : Ranged WireError Tkey := do
  let (algorithm, offset) ← Name.decodePlain.readAt rdata 0
  let inception ← need short (rdata.number? offset 4)
  let expiration ← need short (rdata.number? (offset + 4) 4)
  let mode ← need short (rdata.number? (offset + 8) 2)
  let error ← need short (rdata.number? (offset + 10) 2)
  let keySize ← need short (rdata.number? (offset + 12) 2)
  let keyStart := offset + 14
  let keyEnd := keyStart + keySize
  let key ← need short (rdata.slice? keyStart keyEnd)
  let (otherSize, other) ← lastFieldByOffset rdata keyEnd
  return { name
           algorithm := algorithm.toText
           mode := UInt16.ofNat mode
           inception := UInt32.ofNat inception
           expiration := UInt32.ofNat expiration
           keySize := UInt16.ofNat keySize
           key := Hex.encode key
           error := UInt16.ofNat error
           otherSize := UInt16.ofNat otherSize
           otherData := Hex.encode other }

theorem lastField_short {rest : Bytes} (h : rest.length < 2) : lastField rest = .error short := by
  unfold lastField
  split
  · simp only [List.length_cons] at h
    omega
  · rfl

theorem lastFieldByOffset_yields (rdata : Bytes) (offset : Nat) :
    (lastFieldByOffset rdata offset).Yields (lastField (rdata.drop offset)) := by
  by_cases hsize : offset + 2 ≤ rdata.length
  case neg =>
    have hshort : (rdata.drop offset).length < 2 := by
      rw [List.length_drop]
      omega
    rw [lastField_short hshort]
    exact .missing (Bytes.number?_beyond (Nat.not_le.1 hsize))
  case pos =>
    obtain ⟨head, hlength, hsplit, hnumber⟩ := Bytes.exists_head hsize
    rw [hsplit]
    obtain ⟨o1, o0, rfl⟩ := List.length_eq_two.1 hlength
    have hfirst : rdata.number? offset 2 = some (ofBigEndian [o1, o0]) := hnumber 0 2 (by omega)
    refine .needed hfirst ?_
    unfold lastField
    dsimp only [List.cons_append, List.nil_append]
    generalize ofBigEndian [o1, o0] = size
    by_cases hend : offset + 2 + size ≤ rdata.length
    · rw [Bytes.take?_drop hend]
      refine .needed (Bytes.slice?_of_le (Nat.le_add_right ..) hend) ?_
      rcases Bytes.drop_cases hend with ⟨hall, hnone⟩ | ⟨hsome, b, rest, hrest, hsurplus⟩
      · rw [hnone, if_neg (not_not.2 hall)]
        rfl
      · rw [hrest, if_pos hsome]
        refine .then (.operation (sub?_of_le hend)) ?_
        rw [← hsurplus]
        rfl
    · have hshort := Nat.not_le.1 hend
      rw [Bytes.take?_drop_eq_none hshort (by omega)]
      exact .missing (Bytes.slice?_beyond hshort)

/-- the last field follows the key -/
theorem ofFields_cons {name : String} {algorithm : Name} {body : Bytes}
    {i3 i2 i1 i0 e3 e2 e1 e0 m1 m0 r1 r0 k1 k0 : UInt8} :
    ofFields name algorithm
        (i3 :: i2 :: i1 :: i0 :: e3 :: e2 :: e1 :: e0 :: m1 :: m0 :: r1 :: r0 :: k1 :: k0 :: body) =
      need short (Bytes.take? (ofBigEndian [k1, k0]) body) >>= fun item =>
        lastField item.2 >>= fun last =>
          .ok { name
                algorithm := algorithm.toText
                mode := UInt16.ofNat (ofBigEndian [m1, m0])
                inception := UInt32.ofNat (ofBigEndian [i3, i2, i1, i0])
                expiration := UInt32.ofNat (ofBigEndian [e3, e2, e1, e0])
                keySize := UInt16.ofNat (ofBigEndian [k1, k0])
                key := Hex.encode item.1
                error := UInt16.ofNat (ofBigEndian [r1, r0])
                otherSize := UInt16.ofNat last.1
                otherData := Hex.encode last.2 } := by
  unfold ofFields
  dsimp only
  cases Bytes.take? (ofBigEndian [k1, k0]) body with
  | none => rfl
  | some item =>
    obtain ⟨key, rest⟩ := item
    match rest with
    | [] | [_] => rfl
    | o1 :: o0 :: body =>
      show _ = lastField (o1 :: o0 :: body) >>= _
      unfold lastField
      dsimp only
      cases Bytes.take? (ofBigEndian [o1, o0]) body with
      | none => rfl
      | some item =>
        obtain ⟨other, surplus⟩ := item
        cases surplus <;> rfl

theorem ofFields_short {rest : Bytes} (h : rest.length < 14) (name : String) (algorithm : Name) :
    ofFields name algorithm rest = .error short := by
  unfold ofFields
  split
  · simp only [List.length_cons] at h
    omega
  · rfl

/-- the fourteen bytes between the algorithm and the key -/
theorem exists_fields {head : Bytes} (h : head.length = 14) :
    ∃ i3 i2 i1 i0 e3 e2 e1 e0 m1 m0 r1 r0 k1 k0,
      head = [i3, i2, i1, i0, e3, e2, e1, e0, m1, m0, r1, r0, k1, k0] :=
  match head, h with
  | [_, _, _, _, _, _, _, _, _, _, _, _, _, _], _ =>
    ⟨_, _, _, _, _, _, _, _, _, _, _, _, _, _, rfl⟩

theorem ofRdata_eq (name : String) (rdata : Bytes) :
    ofRdata name rdata = Name.decodePlain.readAt rdata 0 >>= fun item =>
      ofFields name item.1 (rdata.drop item.2) := by
  rw [Decoder.readAt_zero]
  unfold ofRdata
  cases Name.decodePlain rdata rdata with
  | error e => rfl
  | ok item => rfl

theorem ofRdataByOffset_yields (name : String) (rdata : Bytes) :
    (ofRdataByOffset name rdata).Yields (ofRdata name rdata) := by
  rw [ofRdata_eq]
  refine (Ranged.Yields.answer _).bind fun item _ => ?_
  obtain ⟨algorithm, offset⟩ := item
  dsimp only
  by_cases hfields : offset + 14 ≤ rdata.length
  case neg =>
    have hlast : rdata.number? (offset + 12) 2 = none := Bytes.number?_beyond (by omega)
    have hshort : (rdata.drop offset).length < 14 := by
      rw [List.length_drop]
      omega
    rw [ofFields_short hshort]
    -- whichever of the fields is missing, the error is the same
    exact .needed_error fun _ _ => .needed_error fun _ _ => .needed_error fun _ _ =>
      .needed_error fun _ _ => .missing hlast
  case pos =>
    obtain ⟨head, hlength, hsplit, hnumber⟩ := Bytes.exists_head hfields
    rw [hsplit]
    obtain ⟨i3, i2, i1, i0, e3, e2, e1, e0, m1, m0, r1, r0, k1, k0, rfl⟩ := exists_fields hlength
    have hinception : rdata.number? offset 4 = some (ofBigEndian [i3, i2, i1, i0]) :=
      hnumber 0 4 (by omega)
    have hexpiration : rdata.number? (offset + 4) 4 = some (ofBigEndian [e3, e2, e1, e0]) :=
      hnumber 4 4 (by omega)
    have hmode : rdata.number? (offset + 8) 2 = some (ofBigEndian [m1, m0]) :=
      hnumber 8 2 (by omega)
    have herror : rdata.number? (offset + 10) 2 = some (ofBigEndian [r1, r0]) :=
      hnumber 10 2 (by omega)
    have hsize : rdata.number? (offset + 12) 2 = some (ofBigEndian [k1, k0]) :=
      hnumber 12 2 (by omega)
    refine .needed hinception (.needed hexpiration (.needed hmode (.needed herror
      (.needed hsize ?_))))
    dsimp only [List.cons_append, List.nil_append]
    rw [ofFields_cons]
    generalize ofBigEndian [k1, k0] = keySize
    by_cases hkey : offset + 14 + keySize ≤ rdata.length
    · rw [Bytes.take?_drop hkey]
      refine .needed (Bytes.slice?_of_le (Nat.le_add_right ..) hkey) ?_
      exact (lastFieldByOffset_yields rdata (offset + 14 + keySize)).bind fun last _ => rfl
    · have hshort := Nat.not_le.1 hkey
      rw [Bytes.take?_drop_eq_none hshort hfields]
      exact .missing (Bytes.slice?_beyond hshort)

end Tkey

/-! ## the check of a reply -/

theorem TsigError.onWire_eq {α : Type} (x : Except WireError α) : onWire x = x.mapError ofWire := by
  cases x <;> rfl

theorem Message.size_le_lastAdditionalOffset {bytes : Bytes} {offset : Nat}
    (h : lastAdditionalOffset bytes = .ok (some offset)) : Header.size ≤ offset := by
  obtain ⟨header, n, rs, k, hheader, -, -, rfl⟩ := lastAdditionalOffset_eq_ok.1 h
  obtain ⟨rfl, -⟩ := Header.decode_eq_ok hheader
  exact Nat.le_add_right ..

namespace Tsig

/-- a message in wire form with its count of additional records changed -/
def addToCountByOffset (delta : Int) (message : Bytes) : Ranged TsigError Bytes := do
  let current ← need (TsigError.badFormat "message shorter than header")
    (message.number? countOffset 2)
  let updated := current + delta
  if updated < 0 ∨ 65535 < updated then throw (.badFormat s!"ARCOUNT {current} out of range")
  else message.overwrite? countOffset (bigEndian 2 updated.toNat)

/-- a reply up to an offset, with the identifier that was signed and one additional record less -/
def unsignedPartByOffset (s : Signature) (response : Bytes) (offset : Nat) :
    Ranged TsigError Bytes := do
  let front ← response.slice? 0 offset
  let renamed ← front.overwrite? 0 (bigEndian 2 s.signedId.toNat)
  addToCountByOffset (-1) renamed

def findByOffset (message : Bytes) : Ranged TsigError (Option (ResourceRecord × Nat)) := do
  match ← (Message.lastAdditionalByOffset message).onError .ofWire with
  | none => return none
  | some offset =>
    let (record, _) ← (ResourceRecord.decodeByOffset message offset).onError .ofWire
    return if record.type = .tsig then some (record, offset) else none

def coveredByOffset (queryMac : Option Bytes) (signer : String) (s : Signature) (response : Bytes)
    (offset : Nat) : Ranged TsigError Bytes := do
  return chained queryMac ++ (← unsignedPartByOffset s response offset) ++ (← s.coveredFields signer)

def examineByOffset (key : Key) (queryMac : Option Bytes) (response : Bytes) (now : UInt64) :
    Ranged TsigError (Signature × Bytes) := do
  let some (record, offset) ← findByOffset response | throw .unsigned
  let s ← Signature.ofRdata record.rdata
  let signer := record.owner
  if !Text.sameAscii signer key.name then throw (.keyMismatch signer)
  if Algorithm.ofName? s.algorithm ≠ some key.algorithm then throw (.unknownAlgorithm s.algorithm)
  if s.error ≠ 0 then throw (.rejected (.ofValue s.error))
  if s.fudge.toUInt64.toInt64 < (skew s now).abs then throw (.timeSkew (skew s now).toInt)
  return (s, ← coveredByOffset queryMac signer s response offset)

def verifyByOffset (key : Key) (queryMac : Option Bytes) (response : Bytes) (now : UInt64) :
    Ranged TsigError Unit := do
  let (s, bytes) ← examineByOffset key queryMac response now
  if key.mac bytes = s.mac then return () else throw .wrongSignature

theorem addToCount_short {message : Bytes} (h : message.length < Header.size) (delta : Int) :
    addToCount delta message = .error (.badFormat "message shorter than header") := by
  unfold addToCount
  split
  · rename_i front c1 c0 rest htake
    obtain ⟨rfl, hfront⟩ := Bytes.take?_eq_some htake
    have hsize : Header.size = countOffset + 2 := rfl
    rw [List.length_append, List.length_cons, List.length_cons] at h
    omega
  · rfl

theorem addToCountByOffset_yields (delta : Int) (message : Bytes) :
    (addToCountByOffset delta message).Yields (addToCount delta message) := by
  by_cases hsize : Header.size ≤ message.length
  case neg =>
    have hshort := Nat.not_le.1 hsize
    rw [addToCount_short hshort]
    exact .missing (Bytes.number?_beyond hshort)
  case pos =>
    obtain ⟨front, c1, c0, rest, rfl, hfront⟩ := cut_at_count hsize
    have hcurrent := Bytes.number?_append front [c1, c0] rest
    rw [hfront] at hcurrent
    refine .needed hcurrent ?_
    unfold addToCount
    have htake := Bytes.take?_append front (c1 :: c0 :: rest)
    rw [hfront] at htake
    rw [htake]
    dsimp only
    generalize ofBigEndian [c1, c0] = current
    by_cases hrange : (current : Int) + delta < 0 ∨ 65535 < (current : Int) + delta
    · rw [if_pos hrange, if_pos hrange]
      rfl
    · have hover : Bytes.overwrite? (front ++ ([c1, c0] ++ rest)) front.length
          (bigEndian 2 (current + delta).toNat) = _ :=
        Bytes.overwrite?_append (bigEndian_length 2 _) front rest
      rw [hfront] at hover
      rw [if_neg hrange, if_neg hrange, List.append_assoc]
      exact .operation hover

theorem unsignedPartByOffset_yields (s : Signature) {response : Bytes} {offset : Nat}
    (hheader : Header.size ≤ offset) (hoffset : offset ≤ response.length) :
    (unsignedPartByOffset s response offset).Yields (unsignedPart s response offset) := by
  have hfront : (response.take offset).length = offset := List.length_take_of_le hoffset
  have hrenamed : Bytes.overwrite? (response.take offset) 0 (bigEndian 2 s.signedId.toNat) =
      some (bigEndian 2 s.signedId.toNat ++ (response.take offset).drop 2) := by
    rw [Bytes.overwrite?, bigEndian_length, hfront, if_pos]
    · rfl
    · exact Nat.le_trans (by decide) hheader
  refine .then (.operation (Bytes.slice?_of_le (Nat.zero_le _) hoffset)) ?_
  refine .then (.operation hrenamed) ?_
  exact addToCountByOffset_yields (-1) _

theorem findByOffset_yields (message : Bytes) : (findByOffset message).Yields (find message) := by
  unfold findByOffset find
  rw [TsigError.onWire_eq]
  refine ((Message.lastAdditionalByOffset_yields message).onError _).bind fun last _ => ?_
  cases last with
  | none => rfl
  | some offset =>
    dsimp only
    rw [TsigError.onWire_eq]
    exact ((ResourceRecord.decodeByOffset_performs message offset).onError _).bind fun item _ => rfl

theorem coveredByOffset_yields (queryMac : Option Bytes) (signer : String) (s : Signature)
    {response : Bytes} {offset : Nat} (hheader : Header.size ≤ offset)
    (hoffset : offset ≤ response.length) :
    (coveredByOffset queryMac signer s response offset).Yields
      (covered queryMac signer s response offset) :=
  (unsignedPartByOffset_yields s hheader hoffset).bind fun _ _ =>
    (Ranged.Yields.answer _).bind fun _ _ => rfl

theorem examineByOffset_yields (key : Key) (queryMac : Option Bytes) (response : Bytes)
    (now : UInt64) :
    (examineByOffset key queryMac response now).Yields (examine key queryMac response now) := by
  unfold examineByOffset examine
  refine (findByOffset_yields response).bind fun found hfind => ?_
  cases found with
  | none => rfl
  | some place =>
    obtain ⟨record, offset⟩ := place
    have hlast := (find_eq_ok.1 hfind).1
    have hheader : Header.size ≤ offset := Message.size_le_lastAdditionalOffset hlast
    have hoffset : offset ≤ response.length := Message.lastAdditionalOffset_le hlast
    refine (Ranged.Yields.answer _).bind fun s _ => ?_
    refine .guard fun _ => .guard fun _ => .guard fun _ => .guard fun _ => ?_
    exact (coveredByOffset_yields queryMac record.owner s hheader hoffset).bind fun _ _ => rfl

theorem verifyByOffset_yields (key : Key) (queryMac : Option Bytes) (response : Bytes)
    (now : UInt64) :
    (verifyByOffset key queryMac response now).Yields (verify key queryMac response now) := by
  refine (examineByOffset_yields key queryMac response now).bind fun item _ => ?_
  obtain ⟨s, bytes⟩ := item
  dsimp only
  by_cases hmac : key.mac bytes = s.mac
  · rw [if_pos hmac, if_pos hmac]
    rfl
  · rw [if_neg hmac, if_neg hmac]
    rfl

end Tsig

/-- without a shared key there is nothing to check -/
def Signing.verifyByOffset (s : Signing) (queryMac : Option Bytes) (response : Bytes)
    (now : UInt64) : Ranged TsigError Unit :=
  match s with
  | .unsigned | .gss _ => return ()
  | .keyed key => Tsig.verifyByOffset key queryMac response now

theorem Signing.verifyByOffset_yields (s : Signing) (queryMac : Option Bytes) (response : Bytes)
    (now : UInt64) :
    (s.verifyByOffset queryMac response now).Yields (s.verify queryMac response now) := by
  cases s with
  | unsigned => rfl
  | gss keyName => rfl
  | keyed key => exact Tsig.verifyByOffset_yields key queryMac response now

/-! ## all readers -/

/-- **what is read at an offset ends after it and within the message; so whatever the input, no reader
slices, subtracts or overwrites out of range**, and each gives the answer that is specified without
offsets -/
theorem readers_in_range :
    (∀ (m : Bytes) (offset past : Nat),
      (∀ name, Name.decode.readAt m offset = .ok (name, past) → offset < past ∧ past ≤ m.length) ∧
      (∀ h, Header.decode.readAt m offset = .ok (h, past) → offset < past ∧ past ≤ m.length) ∧
      (∀ q, Question.decode.readAt m offset = .ok (q, past) → offset < past ∧ past ≤ m.length) ∧
      ∀ r, ResourceRecord.decode.readAt m offset = .ok (r, past) →
        offset < past ∧ past ≤ m.length) ∧
    (∀ bytes, (Message.decodeByOffset bytes).Yields (Message.decode bytes)) ∧
    (∀ m offset, (ResourceRecord.decodeByOffset m offset).Yields
      (ResourceRecord.decode.readAt m offset)) ∧
    (∀ m type start stop, (ResourceRecord.expandByOffset m type start stop).Yields (need ()
      (if start ≤ stop ∧ stop ≤ m.length then
        ResourceRecord.expand m type (stop - start) (m.drop start) else none))) ∧
    (∀ bytes, (Message.lastAdditionalByOffset bytes).Yields (Message.lastAdditionalOffset bytes)) ∧
    (∀ name rdata, (Tkey.ofRdataByOffset name rdata).Yields (Tkey.ofRdata name rdata)) ∧
    ∀ (s : Signing) (queryMac : Option Bytes) (response : Bytes) (now : UInt64),
      (s.verifyByOffset queryMac response now).Yields (s.verify queryMac response now) := by
  refine ⟨?_, Message.decodeByOffset_yields, ResourceRecord.decodeByOffset_performs,
    ResourceRecord.expandByOffset_yields, Message.lastAdditionalByOffset_yields,
    Tkey.ofRdataByOffset_yields, Signing.verifyByOffset_yields⟩
  intro m offset past
  exact ⟨fun _ => Name.decode_advances.readAt, fun _ => Header.decode_advances.readAt,
    fun _ => Question.decode_advances.readAt, fun _ => ResourceRecord.decode_advances.readAt⟩

/-- the answer of the reply is named by a pointer, and a byte after the reply is left over -/
theorem readers_in_range_mailboxReply :
    let reply := Message.mailboxReply
    (Name.decode.readAt reply 25 = .ok (["example", ""], 27) ∧ 27 ≤ reply.length) ∧
      (Header.decode.readAt reply 0 = .ok (Message.mailbox.header, 12) ∧ 12 ≤ reply.length) ∧
      (Question.decode.readAt reply 12 = .ok (⟨["example", ""], .mx, .internet⟩, 25) ∧
        25 ≤ reply.length) ∧
      (ResourceRecord.decode.readAt reply 46 =
        .ok (⟨["mail", "example", ""], .a, .internet, 300, 4, [192, 0, 2, 1]⟩, 62) ∧
        62 ≤ reply.length) ∧
      (Message.decodeByOffset (reply ++ [0])).Yields (.error (.trailing 1)) := by
  intro reply
  obtain ⟨hplaces, hmessage, -⟩ := readers_in_range
  have hname : Name.decode.readAt reply 25 = .ok (["example", ""], 27) := by decide +kernel
  have hheader : Header.decode.readAt reply 0 = .ok (Message.mailbox.header, 12) := by
    decide +kernel
  have hquestion : Question.decode.readAt reply 12 =
      .ok (⟨["example", ""], .mx, .internet⟩, 25) := by decide +kernel
  have hrecord : ResourceRecord.decode.readAt reply 46 =
      .ok (⟨["mail", "example", ""], .a, .internet, 300, 4, [192, 0, 2, 1]⟩, 62) := by
    decide +kernel
  have hsurplus : Message.decode (reply ++ [0]) = .error (.trailing 1) := by decide +kernel
  refine ⟨⟨hname, ((hplaces reply 25 27).1 _ hname).2⟩,
    ⟨hheader, ((hplaces reply 0 12).2.1 _ hheader).2⟩,
    ⟨hquestion, ((hplaces reply 12 25).2.2.1 _ hquestion).2⟩,
    ⟨hrecord, ((hplaces reply 46 62).2.2.2 _ hrecord).2⟩, ?_⟩
  rw [← hsurplus]
  exact hmessage _

end TransactionKey
