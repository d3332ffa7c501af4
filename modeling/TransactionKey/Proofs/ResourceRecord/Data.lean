import TransactionKey.Proofs.Message.Kept

/-!
# The data of a record outside its message

Reading a record writes out the names in its data if they all decode, and keeps the data as it stands
if one of them does not.  Data that was kept may still hold a compression pointer (`points`), and then
what it is read as depends on the message.

* `expand_plain`       data that was written out holds its names in full;
* `expand_points`      and no pointers;
* `expand_congr`       data without pointers is read the same in every message;
* `expand_length_le`   and does not grow;
* `decodeFields_bare`  a record whose type embeds no names is spelt by its fields;
* `Received.reads`     a record that was read and written again is read as it was, unless its data
                       holds a pointer.
-/

namespace TransactionKey.ResourceRecord

/-! ## names that are written out -/

theorem expandNames_plain {m : Bytes} {names room : Nat} {rest data : Bytes}
    (h : expandNames m names room rest = some data) :
    ∃ (ns : List Name) (tail : Bytes), data = ns.flatMap Name.encode ++ tail ∧ ns.length = names ∧
      ∀ name ∈ ns, name.Encodable ∧ ∀ label ∈ name.proper, Name.DotFree label := by
  induction names generalizing room rest data with
  | zero => exact ⟨[], data, rfl, rfl, List.forall_mem_nil _⟩
  | succ names ih =>
    obtain ⟨name, n, others, -, -, hencodable, hothers, rfl⟩ := expandNames_succ_eq_some.1 h
    obtain ⟨ns, tail, rfl, rfl, hall⟩ := ih hothers
    refine ⟨name.respelt :: ns, tail, ?_, rfl, ?_⟩
    · rw [List.flatMap_cons, List.append_assoc]
    · exact List.forall_mem_cons.2 ⟨⟨hencodable, Name.ofText_dotFree _⟩, hall⟩

theorem expand_plain {m : Bytes} {type : RecordType} {size : Nat} {rest data : Bytes}
    (hsize : size ≤ rest.length) (h : expand m type size rest = some data) :
    PlainNames type data := by
  intro layout hlayout
  by_cases hfixed : layout.fixed ≤ size
  · rw [expand_layout hlayout hfixed] at h
    obtain ⟨names, hnames, rfl⟩ := Option.map_eq_some_iff.1 h
    obtain ⟨ns, tail, rfl, hlength, hall⟩ := expandNames_plain hnames
    refine ⟨rest.take layout.fixed, ns, tail, rfl, ?_, hlength, hall⟩
    rw [List.length_take]
    omega
  · rw [expand_short hlayout (Nat.not_le.1 hfixed)] at h
    cases h

/-! ## pointers -/

/-- whether one of the first names in the bytes goes on at another place of the message -/
def namesPoint : (names : Nat) → (bytes : Bytes) → Bool
  | 0, _ => false
  | names + 1, bytes =>
    match Name.run [] 0 bytes with
    | .error _ => false
    | .ok ⟨_, taken, none⟩ => namesPoint names (bytes.drop taken)
    | .ok ⟨_, _, some _⟩ => true

/-- whether the data holds a compression pointer where its type embeds names -/
def points (type : RecordType) (rdata : Bytes) : Bool :=
  match type.layout? with
  | none => false
  | some layout => namesPoint layout.names (rdata.drop layout.fixed)

theorem namesPoint_full {names : List Name}
    (h : ∀ name ∈ names, ∀ label ∈ name.proper, Name.IsLabel label) (tail : Bytes) :
    namesPoint names.length (names.flatMap Name.encode ++ tail) = false := by
  induction names with
  | nil => rfl
  | cons name names ih =>
    have hrun := Name.run_encode (h name (List.mem_cons_self ..))
      (names.flatMap Name.encode ++ tail)
    rw [List.flatMap_cons, List.append_assoc, List.length_cons, namesPoint]
    simp only [hrun, List.drop_left]
    exact ih fun n hn => h n (List.mem_cons_of_mem _ hn)

/-- names that stand in full are no pointers -/
theorem FullNames.points_eq {type : RecordType} {rdata : Bytes} (h : FullNames type rdata) :
    points type rdata = false := by
  unfold points
  split
  · rfl
  · rename_i layout hlayout
    obtain ⟨fixed, names, tail, rfl, hfixed, hnames, hall⟩ := h layout hlayout
    rw [← hfixed, ← hnames, List.drop_left]
    exact namesPoint_full (fun name hn label hl => (hall name hn label hl).1) tail

/-- data that was written out holds no pointers -/
theorem expand_points {m : Bytes} {type : RecordType} {size : Nat} {rest data : Bytes}
    (hsize : size ≤ rest.length) (h : expand m type size rest = some data) :
    points type data = false := (expand_plain hsize h).full.points_eq

/-- a name that does not end in the data does not fit them -/
theorem expandNames_overrun {data : Bytes} {e : WireError} (h : Name.run [] 0 data = .error e)
    (m rest : Bytes) (names : Nat) :
    expandNames m (names + 1) data.length (data ++ rest) = none := by
  unfold expandNames
  split
  · rfl
  · rename_i name n hname
    rw [if_pos (Name.decode_overrun h hname)]

/-- a name without pointers is written out in front of the others -/
theorem expandNames_within {data : Bytes} {labels : List String} {taken : Nat}
    (h : Name.run [] 0 data = .ok ⟨labels, taken, none⟩) (m rest : Bytes) (names : Nat) :
    expandNames m (names + 1) data.length (data ++ rest) =
      match (Name.ofText (Name.toText ("" :: labels).reverse)).toWire with
      | .error _ => none
      | .ok wire =>
        (expandNames m names (data.drop taken).length (data.drop taken ++ rest)).map
          (wire ++ ·) := by
  obtain ⟨hle, hread⟩ := Name.decode_within h m rest
  have hrest : (data ++ rest).drop taken = data.drop taken ++ rest :=
    List.drop_append_of_le_length hle
  rw [List.length_drop, expandNames]
  simp only [hread, hrest]
  exact if_neg (Nat.not_lt.2 hle)

theorem expandNames_congr {names : Nat} {data : Bytes} (h : namesPoint names data = false)
    (m m' rest rest' : Bytes) :
    expandNames m names data.length (data ++ rest) =
      expandNames m' names data.length (data ++ rest') := by
  induction names generalizing data with
  | zero => rw [expandNames, expandNames, List.take_left, List.take_left]
  | succ names ih =>
    unfold namesPoint at h
    split at h
    · rename_i e hrun
      rw [expandNames_overrun hrun, expandNames_overrun hrun]
    · rename_i labels taken hrun
      rw [expandNames_within hrun, expandNames_within hrun, ih h]
    · cases h

theorem expandNames_length_le {names : Nat} {data : Bytes} (h : namesPoint names data = false)
    {m rest data' : Bytes} (hd : expandNames m names data.length (data ++ rest) = some data') :
    data'.length ≤ data.length := by
  induction names generalizing data data' with
  | zero =>
    rw [expandNames, List.take_left] at hd
    exact Nat.le_of_eq (congrArg List.length (Option.some.inj hd).symm)
  | succ names ih =>
    unfold namesPoint at h
    split at h
    · rename_i e hrun
      rw [expandNames_overrun hrun] at hd
      cases hd
    · rename_i labels taken hrun
      rw [expandNames_within hrun] at hd
      split at hd
      · cases hd
      · rename_i wire hwire
        obtain ⟨others, hothers, rfl⟩ := Option.map_eq_some_iff.1 hd
        obtain ⟨-, rfl⟩ := Name.toWire_eq_ok.1 hwire
        -- the name takes up no more than its bytes, nor do the others
        have hname := Name.encode_ofText_toText_length ("" :: labels).reverse
        rw [Name.encode_of_run hrun] at hname
        calc (_ ++ others).length ≤ (data.take taken).length + (data.drop taken).length := by
              rw [List.length_append]
              exact Nat.add_le_add hname (ih h hothers)
          _ = data.length := by rw [← List.length_append, List.take_append_drop]
    · cases h

/-- what the data of a type is written out as, by what its names are written out as -/
theorem expand_eq_expandNames {type : RecordType} {layout : NameLayout} {data : Bytes}
    (hlayout : type.layout? = some layout) (hfixed : layout.fixed ≤ data.length) (m rest : Bytes) :
    let names := data.drop layout.fixed
    expand m type data.length (data ++ rest) =
      (expandNames m layout.names names.length (names ++ rest)).map
        (data.take layout.fixed ++ ·) := by
  intro names
  rw [expand_layout hlayout hfixed, List.take_append_of_le_length hfixed,
    List.drop_append_of_le_length hfixed, List.length_drop]

section
variable {type : RecordType} {data : Bytes} (h : points type data = false)
include h

theorem namesPoint_of_points {layout : NameLayout} (hlayout : type.layout? = some layout) :
    namesPoint layout.names (data.drop layout.fixed) = false := by
  unfold points at h
  rwa [hlayout] at h

theorem expand_congr (m m' rest rest' : Bytes) :
    expand m type data.length (data ++ rest) = expand m' type data.length (data ++ rest') := by
  cases hlayout : type.layout? with
  | none => rw [expand_bare hlayout, expand_bare hlayout, List.take_left, List.take_left]
  | some layout =>
    by_cases hfixed : layout.fixed ≤ data.length
    · rw [expand_eq_expandNames hlayout hfixed, expand_eq_expandNames hlayout hfixed,
        expandNames_congr (namesPoint_of_points h hlayout) m m' rest rest']
    · have hshort := Nat.not_le.1 hfixed
      rw [expand_short hlayout hshort, expand_short hlayout hshort]

theorem expand_length_le {m rest data' : Bytes}
    (hd : expand m type data.length (data ++ rest) = some data') :
    data'.length ≤ data.length := by
  cases hlayout : type.layout? with
  | none =>
    rw [expand_bare hlayout, List.take_left] at hd
    exact Nat.le_of_eq (congrArg List.length (Option.some.inj hd).symm)
  | some layout =>
    by_cases hfixed : layout.fixed ≤ data.length
    · rw [expand_eq_expandNames hlayout hfixed] at hd
      obtain ⟨names, hnames, rfl⟩ := Option.map_eq_some_iff.1 hd
      have hle := expandNames_length_le (namesPoint_of_points h hlayout) hnames
      calc (_ ++ names).length
          ≤ (data.take layout.fixed).length + (data.drop layout.fixed).length := by
            rw [List.length_append]
            exact Nat.add_le_add_left hle _
        _ = data.length := by rw [← List.length_append, List.take_append_drop]
    · rw [expand_short hlayout (Nat.not_le.1 hfixed)] at hd
      cases hd

end

/-! ## records as they are read -/

/-- whether the data of the record holds a pointer, for the type as it is read -/
def pointing (r : ResourceRecord) : Bool := points (.ofCode r.type.code) r.rdata

/-- the data held pointers, and written out they are too long -/
def Swollen (r : ResourceRecord) (e : WireError) : Prop :=
  r.pointing = true ∧ ∃ n, maxData < n ∧ e = .badRdata (.tooLong n)

theorem reading_length_le {r : ResourceRecord} (h : r.pointing = false) (m rest : Bytes) :
    (r.reading m rest).length ≤ r.rdata.length := by
  unfold reading
  cases hdata : expand m (.ofCode r.type.code) r.rdata.length (r.rdata ++ rest) with
  | none => exact Nat.le_refl _
  | some data => exact expand_length_le h hdata

theorem Outgrown.swollen {r : ResourceRecord} {e : WireError} (h : r.Outgrown e)
    (hsize : r.rdata.length ≤ maxData) : r.Swollen e := by
  obtain ⟨m, rest, hlong, rfl⟩ := h
  refine ⟨?_, _, hlong, rfl⟩
  by_contra hp
  have hle := reading_length_le (Bool.eq_false_iff.2 hp) m rest
  omega

/-- in the form in which records are read; the names in the data stand in full, unless they did not
decode where the data stood -/
structure Received (r : ResourceRecord) : Prop extends r.InForm where
  data : PlainNames r.type r.rdata ∨
    ∃ m rest, expand m r.type r.rdata.length (r.rdata ++ rest) = none

theorem decodeFields_returns {name : Name} (hname : name.Complete) :
    (decodeFields name).Returns Received := by
  intro m bytes r n h
  obtain ⟨w, rest, rfl, hsize, hroom, rfl, rfl⟩ := decodeFields_eq_ok.1 h
  have htype : (RecordType.ofCode w.type.code).Canonical :=
    congrArg _ (RecordType.code_ofCode _)
  have hclass : (RecordClass.ofCode w.rclass.code).Canonical :=
    congrArg _ (RecordClass.code_ofCode _)
  refine ⟨⟨hname, htype, hclass, Message.count_toNat hroom⟩, ?_⟩
  show PlainNames (.ofCode w.type.code) (w.reading m rest) ∨ _
  cases hdata : expand m (.ofCode w.type.code) w.rdata.length (w.rdata ++ rest) with
  | some data =>
    have hlength : w.rdata.length ≤ (w.rdata ++ rest).length := by
      rw [List.length_append]
      exact Nat.le_add_right _ _
    have hreading : w.reading m rest = data := by
      rw [reading, hdata, Option.getD_some]
    rw [hreading]
    exact .inl (expand_plain hlength hdata)
  | none =>
    have hreading : w.reading m rest = w.rdata := by
      rw [reading, hdata, Option.getD_none]
    rw [hreading]
    exact .inr ⟨m, rest, hdata⟩

theorem decode_returns : Decoder.Returns decode Received :=
  Name.decode_returns.bind fun _ ⟨labels, hlabels, hname⟩ =>
    decodeFields_returns ⟨labels, fun label hl => (hlabels label hl).1, hname⟩

section
variable {r : ResourceRecord}

theorem Received.settled (h : r.Received) (hp : r.pointing = false) :
    Settled r.type r.rdata := by
  unfold pointing at hp
  rw [h.type] at hp
  rcases h.data with hplain | ⟨m, rest, hnone⟩
  · exact hplain.full.settled
  · intro m' rest' data hdata
    rw [expand_congr hp m' m rest' rest, hnone] at hdata
    cases hdata

theorem Received.kept (h : r.Received) (hp : r.pointing = false) (hname : r.name.Encodable) :
    r.Kept :=
  ⟨h.toInForm, hname, h.settled hp⟩

/-- the same record, or one with other data, whose data held pointers -/
def RereadAs (r r' : ResourceRecord) : Prop :=
  r' = r ∨ r.pointing = true ∧
    ∃ data, r' = { r with rdata := data, rdlength := UInt16.ofNat data.length }

/-- a record that was read and written is read again, or its data has swollen -/
theorem Received.reads (h : r.Received) (hname : r.name.Encodable) :
    Decoder.Reads decode r.encode r.RereadAs r.Swollen := by
  cases hp : r.pointing with
  | false => exact (h.kept hp hname).accepts.reads (.inl rfl)
  | true =>
    refine (decode_reads hname h.size).mono ?_ fun e he => he.swollen h.size
    rintro r' ⟨m, rest, rfl⟩
    exact .inr ⟨hp, r.reading m rest, h.seen_eq _⟩

end

/-! ## records whose type embeds no names -/

section
variable {r : ResourceRecord} {m bytes : Bytes} {n : Nat}

/-- what such a record is read from begins with its fields -/
theorem decodeFields_bare {name : Name} (h : decodeFields name m bytes = .ok (r, n))
    (hbare : r.type.layout? = none) :
    r.name = name ∧ n = r.fields.length ∧ ∃ rest, bytes = r.fields ++ rest := by
  obtain ⟨w, rest, rfl, -, -, rfl, rfl⟩ := decodeFields_eq_ok.1 h
  have hreading : w.reading m rest = w.rdata := by
    have hbare : (RecordType.ofCode w.type.code).layout? = none := hbare
    rw [reading, expand_bare hbare, List.take_left]
    rfl
  have hfields : ({ w.seen (w.reading m rest) with name } : ResourceRecord).fields = w.fields := by
    unfold fields seen
    rw [hreading, RecordType.code_ofCode, RecordClass.code_ofCode]
  rw [hfields]
  exact ⟨rfl, rfl, rest, rfl⟩

theorem InForm.decodeFields_append (h : r.InForm) (hbare : r.type.layout? = none) (rest : Bytes) :
    decodeFields r.name m (r.fields ++ rest) = .ok (r, r.fields.length) := by
  have hplain := plainNames_bare hbare r.rdata
  rw [ResourceRecord.decodeFields_append r.name h.size,
    hplain.full.settled.reading_eq h.type, if_neg (Nat.not_lt.2 h.size), h.seen_eq, ← h.length,
    UInt16.ofNat_toNat]

end

end TransactionKey.ResourceRecord
