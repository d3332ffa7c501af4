import TransactionKey.Proofs.Tsig.Signature
import TransactionKey.Tsig.Verifying

/-!
# Checking a signed message

* `fresh_iff_skew`      the check of the time, which `fresh_iff` states for clocks that are no negative
                        signed numbers;
* `examine_found`       what is checked once the signature record has been found and read;
* `examine_eq_ok`       what a reply passes before its signature is compared;
* `examine_push`        a message with a signature record added passes it, and the signature must
                        cover the message without the record.
-/

namespace TransactionKey.Tsig

/-! ## the clock -/

/-- the time that has passed is within the fudge -/
def Fresh (s : Signature) (now : UInt64) : Prop := ¬ s.fudge.toUInt64.toInt64 < (skew s now).abs

instance (s : Signature) (now : UInt64) : Decidable (Fresh s now) :=
  inferInstanceAs (Decidable (¬ _))

/-- the seconds from the signing to `now` -/
def elapsed (s : Signature) (now : UInt64) : Int := now.toNat - s.time.toNat

/-- half of all clocks read as negative numbers -/
theorem skew_toInt {s : Signature} (hs : s.Fits) (now : UInt64) :
    (skew s now).toInt =
      if elapsed s now < 0x8000000000000000 then elapsed s now
      else elapsed s now - 0x10000000000000000 := by
  have htime := hs.time
  have hnow := now.toNat_lt
  have hread (x : UInt64) : x.toInt64.toInt = (x.toNat : Int).bmod 0x10000000000000000 :=
    BitVec.toInt_eq_toNat_bmod x.toBitVec
  have hsub : (skew s now).toInt = (elapsed s now).bmod 0x10000000000000000 := by
    rw [skew, Int64.toInt_sub, hread, hread]
    simp [elapsed, Int.bmod_sub_bmod, Int.sub_bmod_bmod]
  rw [hsub, Int.bmod_def, elapsed]
  omega

theorem abs_toInt {x : Int64} (h : x.toInt ≠ -0x8000000000000000) :
    x.abs.toInt = x.toInt.natAbs :=
  BitVec.toInt_abs_eq_natAbs_of_ne_intMin (x := x.toBitVec) (by
    intro hmin
    have hx : x.toInt = (BitVec.intMin 64).toInt := congrArg BitVec.toInt hmin
    exact h hx)

/-- the smallest number has no absolute value, and counts as within the fudge -/
theorem fresh_iff_skew {s : Signature} {now : UInt64} :
    Fresh s now ↔ (skew s now).toInt = -0x8000000000000000 ∨
      (skew s now).toInt.natAbs ≤ s.fudge.toNat := by
  have hfudge : s.fudge.toUInt64.toInt64.toInt = s.fudge.toNat := by
    have hlt := s.fudge.toNat_lt
    have hsmall : 2 * s.fudge.toUInt64.toNat < 0x10000000000000000 := by
      rw [UInt16.toNat_toUInt64]
      omega
    exact BitVec.toInt_eq_toNat_of_lt (x := s.fudge.toUInt64.toBitVec) hsmall
  rw [Fresh, Int64.lt_iff_toInt_lt, hfudge]
  by_cases hmin : (skew s now).toInt = -0x8000000000000000
  · have habs : (skew s now).abs = Int64.minValue := by
      rw [Int64.toInt_inj.1 (hmin.trans Int64.toInt_minValue.symm)]
      decide
    rw [habs, Int64.toInt_minValue]
    omega
  · rw [abs_toInt hmin]
    omega

theorem fresh_iff {s : Signature} {now : UInt64} (hs : s.Fits)
    (hnow : now.toNat < 0x8000000000000000) :
    Fresh s now ↔ ((now.toNat : Int) - s.time.toNat).natAbs ≤ s.fudge.toNat := by
  have hskew := skew_toInt hs now
  have htime := hs.time
  rw [if_pos (by unfold elapsed; omega)] at hskew
  rw [fresh_iff_skew, hskew, elapsed]
  omega

/-! ## the checks -/

theorem find_eq_ok {message : Bytes} {record : ResourceRecord} {offset : Nat} :
    find message = .ok (some (record, offset)) ↔
      Message.lastAdditionalOffset message = .ok (some offset) ∧
        ∃ n, ResourceRecord.decode message (message.drop offset) = .ok (record, n) ∧
          record.type = .tsig := by
  unfold find
  constructor
  · intro h
    obtain ⟨found, hlast, h⟩ := bind_eq_ok.1 h
    cases found with
    | none => cases h
    | some offset' =>
      obtain ⟨⟨record', past⟩, hread, h⟩ := bind_eq_ok.1 h
      obtain ⟨n, hread, -⟩ := Decoder.readAt_eq_ok.1 (TsigError.onWire_eq_ok.1 hread)
      dsimp only at h
      split at h
      · rename_i htype
        obtain ⟨rfl, rfl⟩ := Prod.mk.inj (Option.some.inj (Except.ok.inj h))
        exact ⟨TsigError.onWire_eq_ok.1 hlast, n, hread, htype⟩
      · cases h
  · rintro ⟨hlast, n, hread, htype⟩
    have hread := TsigError.onWire_eq_ok.2 (Decoder.readAt_eq_ok.2 ⟨n, hread, rfl⟩)
    refine bind_eq_ok.2 ⟨_, TsigError.onWire_eq_ok.2 hlast, bind_eq_ok.2 ⟨_, hread, ?_⟩⟩
    dsimp only
    rw [if_pos htype]
    rfl

theorem covered_eq_ok {queryMac : Option Bytes} {signer : String} {s : Signature}
    {response bytes : Bytes} {offset : Nat} :
    covered queryMac signer s response offset = .ok bytes ↔
      ∃ body fields, unsignedPart s response offset = .ok body ∧
        s.coveredFields signer = .ok fields ∧
        bytes = chained queryMac ++ (body ++ fields) := by
  simp only [covered, bind_eq_ok, pure_eq_ok, List.append_assoc]
  constructor
  · rintro ⟨body, hbody, fields, hfields, rfl⟩
    exact ⟨body, fields, hbody, hfields, rfl⟩
  · rintro ⟨body, fields, hbody, hfields, rfl⟩
    exact ⟨body, hbody, fields, hfields, rfl⟩

theorem examine_eq_ok {key : Key} {queryMac : Option Bytes} {response bytes : Bytes}
    {now : UInt64} {s : Signature} :
    examine key queryMac response now = .ok (s, bytes) ↔
      ∃ record offset, find response = .ok (some (record, offset)) ∧
        Signature.ofRdata record.rdata = .ok s ∧
        Text.sameAscii record.owner key.name = true ∧
        Algorithm.ofName? s.algorithm = some key.algorithm ∧ s.error = 0 ∧ Fresh s now ∧
        covered queryMac record.owner s response offset = .ok bytes := by
  unfold examine
  constructor
  · intro h
    obtain ⟨found, hfind, h⟩ := bind_eq_ok.1 h
    cases found with
    | none => cases h
    | some place =>
      obtain ⟨record, offset⟩ := place
      obtain ⟨s', hdata, h⟩ := bind_eq_ok.1 h
      simp only [guard_eq_ok] at h
      obtain ⟨howner, halgorithm, herror, hfresh, h⟩ := h
      obtain ⟨bytes', hcovered, h⟩ := bind_eq_ok.1 h
      obtain ⟨rfl, rfl⟩ := Prod.mk.inj (Except.ok.inj h)
      exact ⟨record, offset, hfind, hdata, by simpa using howner,
        Decidable.not_not.1 halgorithm, Decidable.not_not.1 herror, hfresh, hcovered⟩
  · rintro ⟨record, offset, hfind, hdata, howner, halgorithm, herror, hfresh, hcovered⟩
    refine bind_eq_ok.2 ⟨_, hfind, bind_eq_ok.2 ⟨_, hdata, ?_⟩⟩
    simp only [guard_eq_ok]
    exact ⟨by simp [howner], Decidable.not_not.2 halgorithm, Decidable.not_not.2 herror,
      hfresh, bind_eq_ok.2 ⟨_, hcovered, rfl⟩⟩

/-- what is checked once the signature record has been found and read -/
theorem examine_found {key : Key} {queryMac : Option Bytes} {response : Bytes} {now : UInt64}
    {record : ResourceRecord} {offset : Nat} {s : Signature}
    (hfind : find response = .ok (some (record, offset)))
    (hdata : Signature.ofRdata record.rdata = .ok s) :
    examine key queryMac response now = do
      if !Text.sameAscii record.owner key.name then throw (.keyMismatch record.owner)
      if Algorithm.ofName? s.algorithm ≠ some key.algorithm then
        throw (.unknownAlgorithm s.algorithm)
      if s.error ≠ 0 then throw (.rejected (.ofValue s.error))
      if s.fudge.toUInt64.toInt64 < (skew s now).abs then throw (.timeSkew (skew s now).toInt)
      return (s, ← covered queryMac record.owner s response offset) := by
  unfold examine
  rw [hfind]
  show (Signature.ofRdata record.rdata >>= _) = _
  rw [hdata]
  rfl

theorem verify_eq_ok {key : Key} {queryMac : Option Bytes} {response : Bytes} {now : UInt64} :
    verify key queryMac response now = .ok () ↔
      ∃ s bytes, examine key queryMac response now = .ok (s, bytes) ∧ key.mac bytes = s.mac := by
  simp only [verify, bind_eq_ok, Prod.exists]
  refine exists_congr fun s => exists_congr fun bytes => and_congr_right fun _ => ?_
  split
  · rename_i hmac
    exact iff_of_true rfl hmac
  · rename_i hmac
    exact iff_of_false nofun hmac

/-- but for the signature itself, a reply is refused for what its examination finds -/
theorem verify_eq_error {key : Key} {queryMac : Option Bytes} {response : Bytes} {now : UInt64}
    {e : TsigError} (he : e ≠ .wrongSignature) :
    verify key queryMac response now = .error e ↔
      examine key queryMac response now = .error e := by
  constructor
  · intro h
    rcases bind_eq_error.1 h with h | ⟨⟨s, bytes⟩, -, h⟩
    · exact h
    · dsimp only at h
      split at h
      · cases h
      · exact absurd (Except.error.inj h).symm he
  · intro h
    exact bind_eq_error.2 (.inl h)

/-! ## a message with its signature record -/

/-- the message with another identifier -/
def withId (m : Message) (id : UInt16) : Message := { m with header := { m.header with id } }

theorem countable_withId {m : Message} (h : m.Countable) (id : UInt16) : (withId m id).Countable :=
  ⟨h.questions, h.answers, h.authorities, h.additionals⟩

theorem encodable_withId {m : Message} (h : m.Encodable) (id : UInt16) : (withId m id).Encodable :=
  ⟨h.header, countable_withId h.sections id, h.questions, h.records⟩

def Signature.data (s : Signature) : Bytes :=
  (Name.ofText s.algorithm).canonical.encode ++ s.fields

theorem Signature.data_length (s : Signature) : s.data.length =
    (Name.ofText s.algorithm).canonical.wireLength + 16 + s.mac.length + s.other.length := by
  simp only [data, fields, List.length_append, bigEndian_length, Name.encode_length]
  omega

theorem Signature.data_length_le {s : Signature} (h : (Name.ofText s.algorithm).Encodable) :
    s.data.length ≤ 271 + (s.mac.length + s.other.length) := by
  have hname := h.canonical.2
  rw [data_length]
  omega

def Key.record (key : Key) (s : Signature) : ResourceRecord :=
  ⟨Name.ofText key.name, .tsig, .any, 0, UInt16.ofNat s.data.length, s.data⟩

theorem Key.record_encodable {key : Key} {s : Signature} (hname : (Name.ofText key.name).Encodable)
    (hsize : s.data.length ≤ ResourceRecord.maxData) : (key.record s).Encodable where
  name := hname
  type := rfl
  rclass := rfl
  size := hsize
  plain := fun _ h => nomatch h

theorem Key.owner_record (key : Key) (s : Signature) :
    (key.record s).normal.owner = (Name.ofText key.name).toText :=
  Name.toText_normal _

theorem Key.ofRdata_data (key : Key) {s : Signature} (halgorithm : s.algorithm = key.algorithm.name)
    (hfits : s.Fits) : Signature.ofRdata s.data = .ok s := by
  have hname : (Name.ofText s.algorithm).canonical.toText = s.algorithm := by
    rw [halgorithm, key.algorithm.canonical_name, key.algorithm.toText_name]
  have hencodable : (Name.ofText s.algorithm).Encodable :=
    halgorithm ▸ key.algorithm.encodable_name
  have hread := Signature.ofRdata_encode hfits hencodable.canonical.isLabel []
  rwa [hname, List.append_nil] at hread

theorem Key.coveredFields_ok {key : Key} {s : Signature}
    (hname : (Name.ofText key.name).Encodable) (halgorithm : s.algorithm = key.algorithm.name) :
    ∃ fields, s.coveredFields key.name = .ok fields :=
  ⟨_, Signature.coveredFields_eq_ok.2 ⟨_, _, Name.canonicalWire_eq_ok.2 ⟨hname, rfl⟩,
    Name.canonicalWire_eq_ok.2 ⟨halgorithm ▸ key.algorithm.encodable_name, rfl⟩, rfl⟩⟩

theorem unsignedPart_push {m : Message} {r : ResourceRecord} (h : (m.push r).Countable)
    (s : Signature) :
    unsignedPart s (m.push r).encode m.encode.length = .ok (withId m s.signedId).encode := by
  obtain ⟨hm, hroom⟩ := h.of_push
  have hcut : ((m.push r).encode.take m.encode.length).drop 2 =
      m.counted.middle ++ (bigEndian 2 (m.additionals.length + 1) ++ m.body) := by
    have hcount : (m.push r).counted.arcount.toNat = m.additionals.length + 1 :=
      Message.length_additionals_push m r ▸ Message.count_toNat h.additionals
    have htake := Message.take_encode_push m r []
    rw [List.append_nil] at htake
    rw [htake, Header.encode_eq, hcount, List.append_assoc, List.append_assoc]
    rfl
  refine addToCount_eq_ok.2 ⟨_, m.additionals.length + 1, m.body, around_length m s.signedId,
    hroom, ?_, by omega, by omega, ?_⟩
  · rw [hcut, List.append_assoc]
  · rw [encode_around (countable_withId hm s.signedId),
      show ((m.additionals.length + 1 : Nat) : Int) + -1 = m.additionals.length by omega,
      Int.toNat_natCast]
    rfl

section
variable {key : Key} {m : Message} {s : Signature} {now : UInt64} {fields : Bytes}
  (hm : m.Encodable) (room : m.additionals.length < 65535)
  (hname : (Name.ofText key.name).Encodable) (htext : (Name.ofText key.name).toText = key.name)
  (halgorithm : s.algorithm = key.algorithm.name) (hfits : s.Fits)
  (hsize : s.data.length ≤ ResourceRecord.maxData)
include hm room hname hsize

theorem find_push :
    find (m.push (key.record s)).encode =
      .ok (some ((key.record s).normal, m.encode.length)) := by
  have hrecord := Key.record_encodable hname hsize
  have hlast := Message.lastAdditionalOffset_push (hm.push hrecord room) []
  have hread := ResourceRecord.decode_accepts hrecord (m.push (key.record s)).encode []
  rw [← Message.drop_encode_push m] at hread
  rw [List.append_nil] at hlast hread
  exact find_eq_ok.2 ⟨hlast, _, hread, rfl⟩

include htext halgorithm hfits

/-- a message with a signature record added passes the checks, and the signature must cover the
message without it, whichever identifier the message has been given since -/
theorem examine_push (herror : s.error = 0) (hfresh : Fresh s now)
    (hfields : s.coveredFields key.name = .ok fields) (queryMac : Option Bytes) :
    examine key queryMac (m.push (key.record s)).encode now =
      .ok (s, chained queryMac ++ ((withId m s.signedId).encode ++ fields)) := by
  have howner : (key.record s).normal.owner = key.name := (Key.owner_record key s).trans htext
  have hdata : Signature.ofRdata s.data = .ok s := key.ofRdata_data halgorithm hfits
  refine examine_eq_ok.2 ⟨_, _, find_push hm room hname hsize, hdata, ?_, ?_, herror, hfresh, ?_⟩
  · rw [howner]
    exact beq_self_eq_true _
  · rw [halgorithm, key.algorithm.ofName?_name]
  · rw [howner]
    exact covered_eq_ok.2 ⟨_, fields, unsignedPart_push (hm.sections.push _ room) s, hfields, rfl⟩

end

end TransactionKey.Tsig
