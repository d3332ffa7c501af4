import TransactionKey.Proofs.Decoder.Ranged
import TransactionKey.Proofs.Message.Places
import TransactionKey.Proofs.ResourceRecord.Data

/-!
# Records and messages by offsets

Reading a record or a message keeps an offset, which each part moves on: the data of a record is cut
out between two offsets, the preceding records are counted down from the sum of three counts, and
what follows a message is what its length exceeds the last offset by.

* `expandByOffset_yields`         embedded names are written out within the data of their record;
* `decodeByOffset_performs`       records;
* `decodeByOffset_yields`         messages;
* `lastAdditionalByOffset_yields` the search for the last additional record.
-/

namespace TransactionKey

namespace ResourceRecord

/-! ## record data -/

/-- writes out `names` names from an offset on behind what is `done`, and copies what is left
before `stop` -/
def expandNamesByOffset (m : Bytes) (stop : Nat) :
    (names offset : Nat) → (done : Bytes) → Ranged Unit Bytes
  | 0, offset, done => do
    let rest ← m.slice? offset stop
    return done ++ rest
  | names + 1, offset, done =>
    match Name.decode.readAt m offset with
    | .error _ => throw ()
    | .ok (name, next) =>
      if stop < next then throw ()
      else
        match (Name.ofText name.toText).toWire with
        | .error _ => throw ()
        | .ok wire => expandNamesByOffset m stop names next (done ++ wire)

/-- the data from `start` to `stop` with its names written out -/
def expandByOffset (m : Bytes) (type : RecordType) (start stop : Nat) : Ranged Unit Bytes := do
  let raw ← need () (m.slice? start stop)
  match type.layout? with
  | none => return raw
  | some layout =>
    let front ← need () (raw.slice? 0 layout.fixed)
    expandNamesByOffset m stop layout.names (start + layout.fixed) front

section
variable {m : Bytes} {start stop : Nat}

theorem expandNamesByOffset_yields (hstop : stop ≤ m.length) (names : Nat) {offset : Nat}
    (hoffset : offset ≤ stop) (done : Bytes) :
    (expandNamesByOffset m stop names offset done).Yields
      (need () ((expandNames m names (stop - offset) (m.drop offset)).map (done ++ ·))) := by
  induction names generalizing offset done with
  | zero => exact .then (.operation (Bytes.slice?_of_le hoffset hstop)) rfl
  | succ names ih =>
    unfold expandNamesByOffset expandNames Decoder.readAt
    cases Name.decode m (m.drop offset) with
    | error e => rfl
    | ok item =>
      obtain ⟨name, n⟩ := item
      dsimp only
      by_cases hroom : stop < offset + n
      · have hshort : stop - offset < n := by omega
        rw [if_pos hroom, if_pos hshort]
        rfl
      · have hfits : ¬ stop - offset < n := by omega
        rw [if_neg hroom, if_neg hfits]
        cases (Name.ofText name.toText).toWire with
        | error e => rfl
        | ok wire =>
          have hrest := @ih (offset + n) (Nat.not_lt.1 hroom) (done ++ wire)
          rw [Nat.sub_add_eq, ← List.drop_drop] at hrest
          simp only [List.append_assoc] at hrest
          dsimp only
          rw [Option.map_map]
          exact hrest

/-- data that is not all there is refused; other data is written out as `expand` does -/
theorem expandByOffset_yields (m : Bytes) (type : RecordType) (start stop : Nat) :
    (expandByOffset m type start stop).Yields (need ()
      (if start ≤ stop ∧ stop ≤ m.length then expand m type (stop - start) (m.drop start)
        else none)) := by
  by_cases hrange : start ≤ stop ∧ stop ≤ m.length
  · obtain ⟨hle, hstop⟩ := hrange
    have hlength : (m.extract start stop).length = stop - start := by
      rw [List.extract_eq_take_drop, List.length_take, List.length_drop]
      omega
    rw [if_pos ⟨hle, hstop⟩]
    refine .needed (Bytes.slice?_of_le hle hstop) ?_
    cases hlayout : type.layout? with
    | none =>
      rw [expand_bare hlayout]
      rfl
    | some layout =>
      by_cases hfixed : layout.fixed ≤ stop - start
      · have hfront : Bytes.slice? (m.extract start stop) 0 layout.fixed =
            some ((m.drop start).take layout.fixed) := by
          rw [Bytes.slice?_of_le (Nat.zero_le _) (hlength ▸ hfixed)]
          show some (((m.drop start).take (stop - start)).take layout.fixed) = _
          rw [List.take_take, Nat.min_eq_left hfixed]
        have hnames := @expandNamesByOffset_yields m stop hstop layout.names
          (start + layout.fixed) (by omega) ((m.drop start).take layout.fixed)
        rw [Nat.sub_add_eq, ← List.drop_drop] at hnames
        rw [expand_layout hlayout hfixed]
        exact .needed hfront hnames
      · rw [expand_short hlayout (Nat.not_le.1 hfixed)]
        exact .missing (Bytes.slice?_beyond (by omega))
  · rw [if_neg hrange]
    exact .missing (if_neg hrange)

end

/-! ## records -/

/-- the data from `start` to `stop`, as it stands unless its names can be written out -/
def dataByOffset (m : Bytes) (type : RecordType) (start stop : Nat) : Ranged WireError Bytes := do
  match ← (expandByOffset m type start stop).attempt with
  | some data => return data
  | none => m.slice? start stop

def decodeByOffset : Decoder.ByOffset ResourceRecord := fun m offset => do
  let (name, offset) ← Name.decode.readAt m offset
  let type ← need WireError.badRecord (m.number? offset 2)
  let rclass ← need WireError.badRecord (m.number? (offset + 2) 2)
  let ttl ← need WireError.badRecord (m.number? (offset + 4) 4)
  let size ← need WireError.badRecord (m.number? (offset + 8) 2)
  let start := offset + 10
  let stop := start + size
  if m.length < stop then throw .badRecord
  else do
    let type := RecordType.ofCode (UInt16.ofNat type)
    let rdata ← dataByOffset m type start stop
    if maxData < rdata.length then throw (.badRdata (.tooLong rdata.length))
    else
      return ({ name, type, rdata
                rclass := .ofCode (UInt16.ofNat rclass)
                ttl := UInt32.ofNat ttl
                rdlength := UInt16.ofNat rdata.length }, stop)

theorem dataByOffset_yields {m : Bytes} (type : RecordType) {start stop : Nat} (hle : start ≤ stop)
    (hstop : stop ≤ m.length) :
    (dataByOffset m type start stop).Yields
      (.ok ((expand m type (stop - start) (m.drop start)).getD (m.extract start stop))) := by
  have hexpand := expandByOffset_yields m type start stop
  rw [if_pos ⟨hle, hstop⟩] at hexpand
  refine .then hexpand.attempt ?_
  cases expand m type (stop - start) (m.drop start) with
  | some data => rfl
  | none => exact .operation (Bytes.slice?_of_le hle hstop)

theorem decodeFields_short {rest : Bytes} (h : rest.length < 10) (name : Name) (m : Bytes) :
    decodeFields name m rest = .error .badRecord := by
  unfold decodeFields
  split
  · simp only [List.length_cons] at h
    omega
  · rfl

/-- the ten bytes between the owner and the data -/
theorem exists_fields {head : Bytes} (h : head.length = 10) :
    ∃ t1 t0 c1 c0 l3 l2 l1 l0 n1 n0, head = [t1, t0, c1, c0, l3, l2, l1, l0, n1, n0] :=
  match head, h with
  | [_, _, _, _, _, _, _, _, _, _], _ => ⟨_, _, _, _, _, _, _, _, _, _, rfl⟩

theorem decodeByOffset_performs : Decoder.Performs decodeByOffset decode := by
  intro m offset
  rw [decode, Decoder.readAt_bind_eq]
  refine (Ranged.Yields.answer _).bind fun item hname => ?_
  obtain ⟨name, offset⟩ := item
  have hoffset : offset ≤ m.length := (Name.decode_advances.readAt hname).2
  dsimp only
  unfold Decoder.readAt
  by_cases hfields : offset + 10 ≤ m.length
  case neg =>
    have hlast : m.number? (offset + 8) 2 = none := Bytes.number?_beyond (by omega)
    have hshort : (m.drop offset).length < 10 := by
      rw [List.length_drop]
      omega
    rw [decodeFields_short hshort]
    -- whichever of the fields is missing, the error is the same
    exact .needed_error fun _ _ => .needed_error fun _ _ => .needed_error fun _ _ => .missing hlast
  case pos =>
    obtain ⟨head, hlength, hsplit, hnumber⟩ := Bytes.exists_head hfields
    rw [hsplit]
    obtain ⟨t1, t0, c1, c0, l3, l2, l1, l0, n1, n0, rfl⟩ := exists_fields hlength
    have htype : m.number? offset 2 = some (ofBigEndian [t1, t0]) := hnumber 0 2 (by omega)
    have hclass : m.number? (offset + 2) 2 = some (ofBigEndian [c1, c0]) :=
      hnumber 2 2 (by omega)
    have httl : m.number? (offset + 4) 4 = some (ofBigEndian [l3, l2, l1, l0]) :=
      hnumber 4 4 (by omega)
    have hsize : m.number? (offset + 8) 2 = some (ofBigEndian [n1, n0]) := hnumber 8 2 (by omega)
    refine .needed htype (.needed hclass (.needed httl (.needed hsize ?_)))
    unfold decodeFields
    dsimp only [List.cons_append, List.nil_append]
    generalize ofBigEndian [n1, n0] = size
    by_cases hroom : offset + 10 + size ≤ m.length
    · have hdata := dataByOffset_yields (.ofCode (UInt16.ofNat (ofBigEndian [t1, t0])))
        (Nat.le_add_right (offset + 10) size) hroom
      rw [Nat.add_sub_cancel_left] at hdata
      rw [if_neg (Nat.not_lt.2 hroom), Bytes.take?_drop hroom]
      refine .then hdata ?_
      dsimp only
      generalize (expand m _ size (m.drop (offset + 10))).getD _ = rdata
      by_cases hlong : maxData < rdata.length
      · rw [if_pos hlong, if_pos hlong]
        rfl
      · rw [if_neg hlong, if_neg hlong, Nat.add_assoc]
        rfl
    · have hshort := Nat.not_le.1 hroom
      rw [if_pos hshort, Bytes.take?_drop_eq_none hshort hfields]
      rfl

end ResourceRecord

/-- nothing that reading a question does has a range -/
def Question.decodeByOffset : Decoder.ByOffset Question := fun m offset =>
  Question.decode.readAt m offset

theorem Question.decodeByOffset_performs :
    Decoder.Performs Question.decodeByOffset Question.decode := fun _ _ => rfl

namespace Message

/-! ## messages -/

/-- the sections after a header -/
def sectionsByOffset (h : Header) : Decoder.ByOffset Message := fun m offset => do
  let (questions, next) ← Question.decodeByOffset.many h.qdcount.toNat m offset
  let (answers, next) ← ResourceRecord.decodeByOffset.many h.ancount.toNat m next
  let (authorities, next) ← ResourceRecord.decodeByOffset.many h.nscount.toNat m next
  let (additionals, next) ← ResourceRecord.decodeByOffset.many h.arcount.toNat m next
  return (⟨h, questions, answers, authorities, additionals⟩, next)

def decodeByOffset (bytes : Bytes) : Ranged WireError Message := do
  let (h, next) ← Header.decode.readAt bytes 0
  let (m, next) ← sectionsByOffset h bytes next
  if next ≠ bytes.length then throw (.trailing (← sub? bytes.length next))
  else return m

/-- the offset at which the last additional record begins -/
def lastAdditionalByOffset (bytes : Bytes) : Ranged WireError (Option Nat) := do
  let (h, next) ← Header.decode.readAt bytes 0
  if h.arcount = 0 then return none
  else do
    let (_, next) ← Question.decodeByOffset.many h.qdcount.toNat bytes next
    let preceding ← sub? (h.ancount.toNat + h.nscount.toNat + h.arcount.toNat) 1
    let (_, next) ← ResourceRecord.decodeByOffset.many preceding bytes next
    return some next

theorem sectionsByOffset_performs (h : Header) :
    Decoder.Performs (sectionsByOffset h) (decodeSections h) := by
  have hquestions := Question.decodeByOffset_performs.many h.qdcount.toNat
  have hrecords := ResourceRecord.decodeByOffset_performs.many
  intro m offset
  unfold decodeSections
  rw [Decoder.readAt_bind_eq]
  refine (hquestions m offset).bind fun questions _ => ?_
  rw [Decoder.readAt_bind_eq]
  refine (hrecords _ m _).bind fun answers _ => ?_
  rw [Decoder.readAt_bind_eq]
  refine (hrecords _ m _).bind fun authorities _ => ?_
  rw [Decoder.readAt_bind_eq]
  exact (hrecords _ m _).bind fun additionals _ => rfl

theorem decodeByOffset_yields (bytes : Bytes) : (decodeByOffset bytes).Yields (decode bytes) := by
  rw [decode_eq, Decoder.readAt_bind_eq]
  rw [bind_assoc]
  refine (Ranged.Yields.answer _).bind fun item hheader => ?_
  obtain ⟨h, start⟩ := item
  refine (sectionsByOffset_performs h bytes start).bind fun item hsections => ?_
  obtain ⟨m, next⟩ := item
  have hstart : start ≤ bytes.length := (Header.decode_advances.readAt hheader).2
  have hle : next ≤ bytes.length := (decodeSections_bounded h).readAt hsections hstart
  dsimp only
  by_cases hall : next ≠ bytes.length
  · rw [if_pos hall, if_pos hall]
    exact .then (.operation (sub?_of_le hle)) rfl
  · rw [if_neg hall, if_neg hall]
    rfl

theorem lastAdditionalByOffset_yields (bytes : Bytes) :
    (lastAdditionalByOffset bytes).Yields (lastAdditionalOffset bytes) := by
  rw [lastAdditionalOffset_eq_bind]
  refine (Ranged.Yields.answer _).bind fun item _ => ?_
  obtain ⟨h, start⟩ := item
  dsimp only
  by_cases hnone : h.arcount = 0
  · rw [if_pos hnone, if_pos hnone]
    rfl
  · have hsome : 0 < h.arcount.toNat :=
      Nat.pos_of_ne_zero fun hzero => hnone (UInt16.toNat_inj.1 hzero)
    have hcount : sub? (h.ancount.toNat + h.nscount.toNat + h.arcount.toNat) 1 =
        some (precedingRecords h) := sub?_of_le (by omega)
    rw [if_neg hnone, if_neg hnone, walk, Decoder.readAt_bind_eq, bind_assoc]
    refine (Question.decodeByOffset_performs.many _ _ _).bind fun questions _ => ?_
    refine .then (.operation hcount) ?_
    exact (ResourceRecord.decodeByOffset_performs.many _ _ _).bind fun records _ => rfl

end Message

end TransactionKey
