import TransactionKey.Tsig.Signing
import TransactionKey.Proofs.Message

/-!
# Signature records on the wire

* `ofRdata_eq_ok`       which data are read as a signature: further bytes may follow it;
* `coveredFields_inj`   what a signature covers of its record determines the fields in it;
* `addToCount_eq_ok`    only the count changes when the count of additional records is changed;
* `addToCount_push`     one more additional record is counted.
-/

namespace TransactionKey

theorem TsigError.onWire_eq_ok {α : Type} {x : Except WireError α} {a : α} :
    onWire x = .ok a ↔ x = .ok a := by
  cases x <;> simp [onWire]

theorem TsigError.onWire_eq_error {α : Type} {x : Except WireError α} {e : TsigError} :
    onWire x = .error e ↔ ∃ fault, x = .error fault ∧ e = ofWire fault := by
  cases x <;> simp [onWire, eq_comm]

namespace Tsig

/-! ## algorithms -/

theorem Algorithm.encodable_name (a : Algorithm) : (Name.ofText a.name).Encodable := by
  cases a <;> decide

theorem Algorithm.canonical_name (a : Algorithm) :
    (Name.ofText a.name).canonical = Name.ofText a.name := by
  rw [Name.canonical, funext Text.lowerAscii_eq_ofList]
  cases a <;> decide

theorem Algorithm.toText_name (a : Algorithm) : (Name.ofText a.name).toText = a.name := by
  cases a <;> decide

theorem Algorithm.ofName?_name (a : Algorithm) : ofName? a.name = some a := by
  cases a <;> decide

namespace Signature

/-- the sizes of the fields on the wire can hold the fields -/
structure Fits (s : Signature) : Prop where
  time : s.time.toNat < 0x1000000000000
  mac : s.mac.length ≤ 65535
  other : s.other.length ≤ 65535

/-- what follows the algorithm in the data of a signature record -/
def fields (s : Signature) : Bytes :=
  bigEndian 6 s.time.toNat ++ (bigEndian 2 s.fudge.toNat ++ (bigEndian 2 s.mac.length ++
    (s.mac ++ (bigEndian 2 s.signedId.toNat ++ (bigEndian 2 s.error.toNat ++
      (bigEndian 2 s.other.length ++ s.other))))))

/-- what the signature covers of the record after the algorithm -/
def covers (s : Signature) : Bytes :=
  bigEndian 6 s.time.toNat ++ (bigEndian 2 s.fudge.toNat ++ (bigEndian 2 s.error.toNat ++
    (bigEndian 2 s.other.length ++ s.other)))

theorem toRdata_eq_ok {s : Signature} {bytes : Bytes} :
    s.toRdata = .ok bytes ↔ (Name.ofText s.algorithm).Encodable ∧
      bytes = (Name.ofText s.algorithm).canonical.encode ++ s.fields := by
  simp only [toRdata, bind_eq_ok, TsigError.onWire_eq_ok, Name.canonicalWire_eq_ok, pure_eq_ok,
    List.append_assoc]
  constructor
  · rintro ⟨_, ⟨he, rfl⟩, rfl⟩
    exact ⟨he, rfl⟩
  · rintro ⟨he, rfl⟩
    exact ⟨_, ⟨he, rfl⟩, rfl⟩

theorem coveredFields_eq_ok {s : Signature} {keyName : String} {bytes : Bytes} :
    s.coveredFields keyName = .ok bytes ↔
      ∃ name algorithm, (Name.ofText keyName).canonicalWire = .ok name ∧
        (Name.ofText s.algorithm).canonicalWire = .ok algorithm ∧
        bytes = name ++ (bigEndian 2 RecordClass.any.code.toNat ++ (bigEndian 4 0 ++
          (algorithm ++ s.covers))) := by
  simp only [coveredFields, bind_eq_ok, TsigError.onWire_eq_ok, pure_eq_ok, List.append_assoc]
  constructor
  · rintro ⟨name, hn, algorithm, ha, rfl⟩
    exact ⟨name, algorithm, hn, ha, rfl⟩
  · rintro ⟨name, algorithm, hn, ha, rfl⟩
    exact ⟨name, hn, algorithm, ha, rfl⟩

theorem ofFields_fields {s : Signature} (h : s.Fits) (algorithm : Name) (surplus : Bytes) :
    ofFields algorithm (s.fields ++ surplus) = .ok { s with algorithm := algorithm.toText } := by
  have htime : ofBigEndian (bigEndian 6 s.time.toNat) = s.time.toNat :=
    ofBigEndian_bigEndian_of_lt h.time
  have hfudge := ofBigEndian_uint16 s.fudge
  have hmac : ofBigEndian (bigEndian 2 s.mac.length) = s.mac.length :=
    ofBigEndian_bigEndian_of_lt (Nat.lt_succ_of_le h.mac)
  have hid := ofBigEndian_uint16 s.signedId
  have herror := ofBigEndian_uint16 s.error
  have hother : ofBigEndian (bigEndian 2 s.other.length) = s.other.length :=
    ofBigEndian_bigEndian_of_lt (Nat.lt_succ_of_le h.other)
  simp only [bigEndian_two, bigEndian_six] at htime hfudge hmac hid herror hother
  simp only [fields, bigEndian_two, bigEndian_six, List.cons_append, List.nil_append,
    List.append_assoc, ofFields, htime, hfudge, hmac, Bytes.take?_append, hid, herror, hother,
    UInt64.ofNat_toNat]

theorem ofRdata_encode {s : Signature} (h : s.Fits) {algorithm : Name}
    (hlabels : ∀ label ∈ algorithm.proper, Name.IsLabel label) (surplus : Bytes) :
    ofRdata (algorithm.encode ++ (s.fields ++ surplus)) =
      .ok { s with algorithm := algorithm.toText } := by
  refine bind_eq_ok.2
    ⟨_, TsigError.onWire_eq_ok.2 (Name.decodePlain_accepts_labels hlabels _ _), ?_⟩
  dsimp only
  rw [List.drop_left, ofFields_fields h, Name.toText_normal]

/-- data are read as the fields of a signature just if they begin with them -/
theorem ofFields_eq_ok {algorithm : Name} {rest : Bytes} {s : Signature} :
    ofFields algorithm rest = .ok s ↔
      s.Fits ∧ s.algorithm = algorithm.toText ∧ ∃ surplus, rest = s.fields ++ surplus := by
  constructor
  · intro h
    unfold ofFields at h
    split at h
    case h_2 => cases h
    case h_1 t5 t4 t3 t2 t1 t0 f1 f0 m1 m0 body =>
    split at h
    case h_2 => cases h
    case h_1 mac i1 i0 e1 e0 o1 o0 body' hmac =>
    split at h
    case h_2 => cases h
    case h_1 other trailing hother =>
    obtain rfl := Except.ok.inj h
    obtain ⟨rfl, hm⟩ := Bytes.take?_eq_some hmac
    obtain ⟨rfl, ho⟩ := Bytes.take?_eq_some hother
    have htimeLt : ofBigEndian [t5, t4, t3, t2, t1, t0] < 0x1000000000000 :=
      ofBigEndian_lt (w := 6) rfl
    have hmacLt : ofBigEndian [m1, m0] < 0x10000 := ofBigEndian_lt (w := 2) rfl
    have hotherLt : ofBigEndian [o1, o0] < 0x10000 := ofBigEndian_lt (w := 2) rfl
    have hword : (UInt64.ofNat (ofBigEndian [t5, t4, t3, t2, t1, t0])).toNat =
        ofBigEndian [t5, t4, t3, t2, t1, t0] :=
      UInt64.toNat_ofNat_of_lt (Nat.lt_trans htimeLt (by decide))
    have htime : bigEndian 6 (ofBigEndian [t5, t4, t3, t2, t1, t0]) = [t5, t4, t3, t2, t1, t0] :=
      bigEndian_ofBigEndian [t5, t4, t3, t2, t1, t0]
    have hsize : bigEndian 2 (ofBigEndian [m1, m0]) = [m1, m0] := bigEndian_ofBigEndian [m1, m0]
    have hrest : bigEndian 2 (ofBigEndian [o1, o0]) = [o1, o0] := bigEndian_ofBigEndian [o1, o0]
    refine ⟨⟨Nat.lt_of_le_of_lt (Nat.le_of_eq hword) htimeLt, ?_, ?_⟩, rfl, trailing, ?_⟩
    · show mac.length ≤ 65535
      omega
    · show other.length ≤ 65535
      omega
    · simp only [fields, hword, bigEndian_uint16, hm, ho, htime, hsize, hrest, List.append_assoc,
        List.cons_append, List.nil_append]
  · intro h
    obtain ⟨hfits, halgorithm, surplus, rfl⟩ := h
    rw [ofFields_fields hfits, ← halgorithm]

theorem ofRdata_eq_ok {rdata : Bytes} {s : Signature} :
    ofRdata rdata = .ok s ↔ s.Fits ∧ ∃ (algorithm : Name) (surplus : Bytes),
      (∀ label ∈ algorithm.proper, Name.IsLabel label) ∧ s.algorithm = algorithm.toText ∧
        rdata = algorithm.encode ++ (s.fields ++ surplus) := by
  constructor
  · intro h
    obtain ⟨⟨algorithm, n⟩, hname, hfields⟩ := bind_eq_ok.1 h
    obtain ⟨hfits, halgorithm, surplus, hrest⟩ := ofFields_eq_ok.1 hfields
    obtain ⟨hlabels, hencode⟩ := Name.decodePlain_eq_ok (TsigError.onWire_eq_ok.1 hname)
    refine ⟨hfits, algorithm, surplus, hlabels, halgorithm, ?_⟩
    rw [← hrest, hencode, List.take_append_drop]
  · intro h
    obtain ⟨hfits, algorithm, surplus, hlabels, halgorithm, rfl⟩ := h
    rw [ofRdata_encode hfits hlabels, ← halgorithm]

theorem fits_of_ofRdata {rdata : Bytes} {s : Signature} (h : ofRdata rdata = .ok s) : s.Fits :=
  (ofRdata_eq_ok.1 h).1

theorem covers_inj {s t : Signature} (hs : s.Fits) (ht : t.Fits) (h : s.covers = t.covers) :
    s.time = t.time ∧ s.fudge = t.fudge ∧ s.error = t.error ∧ s.other = t.other := by
  obtain ⟨htime, h⟩ := List.append_inj h (by simp only [bigEndian_length])
  obtain ⟨hfudge, h⟩ := List.append_inj h (by simp only [bigEndian_length])
  obtain ⟨herror, h⟩ := List.append_inj h (by simp only [bigEndian_length])
  obtain ⟨-, hother⟩ := List.append_inj h (by simp only [bigEndian_length])
  refine ⟨?_, ?_, ?_, hother⟩
  · exact UInt64.toNat_inj.1 (bigEndian_inj (w := 6) hs.time ht.time htime)
  · exact UInt16.toNat_inj.1 (bigEndian_inj (w := 2) s.fudge.toNat_lt t.fudge.toNat_lt hfudge)
  · exact UInt16.toNat_inj.1 (bigEndian_inj (w := 2) s.error.toNat_lt t.error.toNat_lt herror)

theorem coveredFields_inj {s t : Signature} (hs : s.Fits) (ht : t.Fits) {k l : String}
    {bytes : Bytes} (h : s.coveredFields k = .ok bytes) (h' : t.coveredFields l = .ok bytes) :
    s.time = t.time ∧ s.fudge = t.fudge ∧ s.error = t.error ∧ s.other = t.other := by
  obtain ⟨name, algorithm, hn, ha, rfl⟩ := coveredFields_eq_ok.1 h
  obtain ⟨name', algorithm', hn', ha', heq⟩ := coveredFields_eq_ok.1 h'
  obtain ⟨-, heq⟩ := Name.canonicalWire_inj hn hn' heq
  obtain ⟨-, heq⟩ := List.append_inj heq (by simp only [bigEndian_length])
  obtain ⟨-, heq⟩ := List.append_inj heq (by simp only [bigEndian_length])
  obtain ⟨-, heq⟩ := Name.canonicalWire_inj ha ha' heq
  exact covers_inj hs ht heq

end Signature

/-! ## the count of additional records -/

theorem addToCount_eq_ok {delta : Int} {message bytes : Bytes} :
    addToCount delta message = .ok bytes ↔
      ∃ (front : Bytes) (count : Nat) (rest : Bytes), front.length = countOffset ∧
        count ≤ 65535 ∧ message = front ++ (bigEndian 2 count ++ rest) ∧
        0 ≤ count + delta ∧ count + delta ≤ 65535 ∧
        bytes = front ++ (bigEndian 2 (count + delta).toNat ++ rest) := by
  unfold addToCount
  constructor
  · intro h
    split at h
    · rename_i front c1 c0 rest htake
      obtain ⟨rfl, hfront⟩ := Bytes.take?_eq_some htake
      dsimp only at h
      split at h
      · cases h
      · rename_i hrange
        obtain rfl := Except.ok.inj h
        have hspell : bigEndian 2 (ofBigEndian [c1, c0]) = [c1, c0] := bigEndian_ofBigEndian [c1, c0]
        have hlt : ofBigEndian [c1, c0] < 0x10000 := ofBigEndian_lt (w := 2) rfl
        refine ⟨front, ofBigEndian [c1, c0], rest, hfront, by omega, ?_, by omega, by omega, ?_⟩
        · rw [hspell]
          rfl
        · rw [List.append_assoc]
    · cases h
  · rintro ⟨front, count, rest, hfront, hcount, rfl, hlow, hhigh, rfl⟩
    have hread : ofBigEndian (bigEndian 2 count) = count :=
      ofBigEndian_bigEndian_of_lt (Nat.lt_succ_of_le hcount)
    rw [bigEndian_two] at hread
    rw [← hfront, Bytes.take?_append, bigEndian_two]
    simp only [List.cons_append, List.nil_append, hread]
    rw [if_neg (by omega), List.append_assoc]

theorem size_le_addToCount {delta : Int} {message bytes : Bytes}
    (h : addToCount delta message = .ok bytes) : Header.size ≤ bytes.length := by
  obtain ⟨front, count, rest, hfront, -, -, -, -, rfl⟩ := addToCount_eq_ok.1 h
  have hsize : Header.size = countOffset + 2 := rfl
  simp only [List.length_append, bigEndian_length, hfront, hsize]
  omega

theorem addToCount_neg {delta : Int} {message bytes : Bytes}
    (h : addToCount delta message = .ok bytes) : addToCount (-delta) bytes = .ok message := by
  obtain ⟨front, count, rest, hfront, hcount, rfl, hlow, hhigh, rfl⟩ := addToCount_eq_ok.1 h
  refine addToCount_eq_ok.2 ⟨front, (count + delta).toNat, rest, hfront, by omega, rfl, by omega,
    by omega, ?_⟩
  rw [Int.toNat_of_nonneg hlow, show count + delta + -delta = (count : Int) by omega,
    Int.toNat_natCast]

theorem encode_around {m : Message} (h : m.Countable) :
    m.encode = bigEndian 2 m.header.id.toNat ++ m.counted.middle ++
      (bigEndian 2 m.additionals.length ++ m.body) := by
  have hcount : m.counted.arcount.toNat = m.additionals.length := Message.count_toNat h.additionals
  rw [Message.encode, Header.encode_eq, hcount]
  simp only [List.append_assoc]
  rfl

theorem around_length (m : Message) (id : UInt16) :
    (bigEndian 2 id.toNat ++ m.counted.middle).length = countOffset := by
  rw [List.length_append, bigEndian_length, Header.middle_length]
  rfl

theorem addToCount_push {m : Message} {r : ResourceRecord} (h : (m.push r).Countable) :
    addToCount 1 m.encode = .ok ((m.push r).counted.encode ++ m.body) := by
  obtain ⟨hm, hroom⟩ := h.of_push
  have hcount : (m.push r).counted.arcount.toNat = m.additionals.length + 1 :=
    Message.length_additionals_push m r ▸ Message.count_toNat h.additionals
  refine addToCount_eq_ok.2 ⟨_, m.additionals.length, m.body, around_length m m.header.id,
    by omega, encode_around hm, by omega, by omega, ?_⟩
  rw [Header.encode_eq, hcount]
  simp only [List.append_assoc]
  rfl

/-- a record more is counted just if the count of additional records has room for it -/
theorem addToCount_encode_eq_ok {m : Message} (h : m.Countable) (r : ResourceRecord)
    {bytes : Bytes} :
    addToCount 1 m.encode = .ok bytes ↔
      m.additionals.length < 65535 ∧ bytes = (m.push r).counted.encode ++ m.body := by
  constructor
  · intro hadd
    obtain ⟨front, count, rest, hfront, hcount, hencode, -, hmore, -⟩ := addToCount_eq_ok.1 hadd
    have room : m.additionals.length < 65535 := by
      rw [encode_around h] at hencode
      obtain ⟨-, hencode⟩ :=
        List.append_inj hencode ((around_length m m.header.id).trans hfront.symm)
      obtain ⟨hspell, -⟩ := List.append_inj hencode (by simp only [bigEndian_length])
      have hsame : m.additionals.length = count := bigEndian_inj (w := 2)
        (Nat.lt_succ_of_le h.additionals) (Nat.lt_succ_of_le hcount) hspell
      omega
    exact ⟨room, Except.ok.inj (hadd.symm.trans (addToCount_push (h.push r room)))⟩
  · rintro ⟨room, rfl⟩
    exact addToCount_push (h.push r room)

theorem cut_at_count {bytes : Bytes} (h : Header.size ≤ bytes.length) :
    ∃ front c1 c0 rest, bytes = front ++ (c1 :: c0 :: rest) ∧ front.length = countOffset := by
  have hlength : bytes.length = countOffset + 2 + (bytes.length - Header.size) :=
    (Nat.add_sub_cancel' h).symm
  have hfront : (bytes.take countOffset).length = countOffset := by
    rw [List.length_take]
    omega
  obtain ⟨c1, c0, rest, hrest⟩ : ∃ c1 c0 rest, bytes.drop countOffset = c1 :: c0 :: rest := by
    have hlen : 2 ≤ (bytes.drop countOffset).length := by
      rw [List.length_drop]
      omega
    match hdrop : bytes.drop countOffset with
    | c1 :: c0 :: rest => exact ⟨c1, c0, rest, rfl⟩
    | [_] | [] => simp [hdrop] at hlen
  exact ⟨bytes.take countOffset, c1, c0, rest, by rw [← hrest, List.take_append_drop], hfront⟩

/-- the count does not depend on what is added after the header -/
theorem addToCount_append {bytes : Bytes} (h : Header.size ≤ bytes.length) (delta : Int)
    (ending : Bytes) :
    addToCount delta (bytes ++ ending) = (addToCount delta bytes).map (· ++ ending) := by
  obtain ⟨front, c1, c0, rest, rfl, hfront⟩ := cut_at_count h
  unfold addToCount
  rw [List.append_assoc, ← hfront, Bytes.take?_append, Bytes.take?_append]
  dsimp only [List.cons_append]
  split
  · rfl
  · simp only [Except.map, List.append_assoc]

end Tsig

end TransactionKey
