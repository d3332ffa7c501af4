import TransactionKey.Proofs.Decoder.Placed
import TransactionKey.Proofs.ResourceRecord.Data

/-!
# The names in the data of a record, where the record stands

`DataAt` says where the data of a record stands in a message, and `Embeds` which names stand in it: one
after the other, the first after the fixed bytes, the last within the data, though each of them may go
on elsewhere in the message.  Reading writes out exactly the data that embeds names (`expand_eq_some`),
each name as its dotted text spells it.

* `unexpanded_of_pointing`   a record that holds a pointer was kept as it stood;
* `readAt_expanded`          what a record is read as: the fixed bytes, the names without compression
                             and the bytes after them, or the bytes as they stand;
* `readAt_anywhere`          a record whose names were written out is read the same in any other
                             message.
-/

namespace TransactionKey.ResourceRecord

/-! ## names that stand in data -/

/-- the names in the data of a layout from `start` to `stop`, and where the last of them ends -/
structure Embeds (m : Bytes) (layout : NameLayout) (start stop : Nat) (names : List Name)
    (next : Nat) : Prop where
  fixed : start + layout.fixed ≤ stop
  count : names.length = layout.names
  placed : Name.decode.Placed m (start + layout.fixed) names next
  within : next ≤ stop

section
variable {m : Bytes} {layout : NameLayout} {start stop next next' : Nat} {names names' : List Name}

theorem Embeds.unique (h : Embeds m layout start stop names next)
    (h' : Embeds m layout start stop names' next') : names' = names ∧ next' = next :=
  h.placed.unique h'.placed (h'.count.trans h.count.symm)

theorem Embeds.isLabel (h : Embeds m layout start stop names next) :
    ∀ name ∈ names, ∀ label ∈ name.proper, Name.IsLabel label := by
  intro name hname
  obtain ⟨first, last, hread⟩ := h.placed.mem hname
  exact Name.labels_of_readAt hread

end

/-! ## writing them out -/

section
variable {m : Bytes} {type : RecordType} {layout : NameLayout} {count start stop : Nat}

theorem expandNames_eq_some (hle : start ≤ stop) {data : Bytes} :
    expandNames m count (stop - start) (m.drop start) = some data ↔
      ∃ names next, names.length = count ∧ Name.decode.Placed m start names next ∧ next ≤ stop ∧
        (∀ name ∈ names, name.respelt.Encodable) ∧
        data = names.flatMap (fun name => name.respelt.encode) ++ m.extract next stop := by
  induction count generalizing start data with
  | zero =>
    rw [expandNames, Option.some.injEq]
    constructor
    · intro h
      exact ⟨[], start, rfl, .nil start, hle, List.forall_mem_nil _, h.symm⟩
    · intro h
      obtain ⟨names, next, hcount, hplaced, -, -, rfl⟩ := h
      obtain rfl := List.eq_nil_of_length_eq_zero hcount
      cases hplaced
      rfl
  | succ count ih =>
    rw [expandNames_succ_eq_some]
    constructor
    · intro h
      obtain ⟨name, n, others, hname, hroom, hencodable, hothers, rfl⟩ := h
      have hread : Name.decode.readAt m start = .ok (name, start + n) :=
        Decoder.readAt_eq_ok.2 ⟨n, hname, rfl⟩
      rw [List.drop_drop, Nat.sub_sub] at hothers
      obtain ⟨names, next, rfl, hplaced, hwithin, hall, rfl⟩ := (ih (by omega)).1 hothers
      refine ⟨name :: names, next, rfl, .cons hread hplaced, hwithin,
        List.forall_mem_cons.2 ⟨hencodable, hall⟩, ?_⟩
      rw [List.flatMap_cons, List.append_assoc]
    · intro h
      obtain ⟨names, next, hcount, hplaced, hwithin, hall, rfl⟩ := h
      cases hplaced with
      | nil => cases hcount
      | @cons _ second _ name names hread hrest =>
        obtain ⟨n, hname, rfl⟩ := Decoder.readAt_eq_ok.1 hread
        obtain ⟨hencodable, hall⟩ := List.forall_mem_cons.1 hall
        -- the first name ends where the others begin, which is within the room
        have hnext : start + n ≤ next := hrest.le
        have hothers : expandNames m count (stop - (start + n)) (m.drop (start + n)) =
            some (names.flatMap (fun name => name.respelt.encode) ++ m.extract next stop) :=
          (ih (by omega)).2 ⟨names, next, Nat.succ.inj hcount, hrest, hwithin, hall, rfl⟩
        rw [← Nat.sub_sub, ← List.drop_drop] at hothers
        refine ⟨name, n, _, hname, by omega, hencodable, hothers, ?_⟩
        rw [List.flatMap_cons, List.append_assoc]

section
variable (hlayout : type.layout? = some layout) (hle : start ≤ stop)
include hlayout hle

/-- what the data of a type with embedded names is written out as: the fixed bytes, each name as its
dotted text spells it, and the bytes after the last name -/
theorem expand_eq_some {data : Bytes} :
    expand m type (stop - start) (m.drop start) = some data ↔
      ∃ names next, Embeds m layout start stop names next ∧
        (∀ name ∈ names, name.respelt.Encodable) ∧
        data = m.extract start (start + layout.fixed) ++
          (names.flatMap (fun name => name.respelt.encode) ++ m.extract next stop) := by
  have hfront : (m.drop start).take layout.fixed = m.extract start (start + layout.fixed) := by
    rw [List.extract_eq_take_drop, Nat.add_sub_cancel_left]
  by_cases hroom : start + layout.fixed ≤ stop
  case neg =>
    have hshort : stop - start < layout.fixed := by omega
    rw [expand_short hlayout hshort]
    refine iff_of_false nofun fun h => ?_
    obtain ⟨names, next, hembeds, -⟩ := h
    exact hroom hembeds.fixed
  case pos =>
    have hfixed : layout.fixed ≤ stop - start := by omega
    rw [expand_layout hlayout hfixed, List.drop_drop, Nat.sub_sub, hfront]
    simp only [Option.map_eq_some_iff, expandNames_eq_some hroom]
    constructor
    · intro h
      obtain ⟨_, ⟨names, next, hcount, hplaced, hwithin, hall, rfl⟩, rfl⟩ := h
      exact ⟨names, next, ⟨hroom, hcount, hplaced, hwithin⟩, hall, rfl⟩
    · intro h
      obtain ⟨names, next, hembeds, hall, rfl⟩ := h
      exact ⟨_, ⟨names, next, hembeds.count, hembeds.placed, hembeds.within, hall, rfl⟩, rfl⟩

/-- the data is left as it stands if no names stand there, or one of them cannot be written -/
theorem expand_eq_none :
    expand m type (stop - start) (m.drop start) = none ↔
      ∀ names next, Embeds m layout start stop names next →
        ∃ name ∈ names, ¬ name.respelt.Encodable := by
  constructor
  · intro hnone names next hembeds
    by_contra hall
    have hencodable : ∀ name ∈ names, name.respelt.Encodable := by
      intro name hn
      by_contra hnot
      exact hall ⟨name, hn, hnot⟩
    have hsome := (expand_eq_some hlayout hle).2 ⟨names, next, hembeds, hencodable, rfl⟩
    rw [hnone] at hsome
    cases hsome
  · intro hnot
    cases hsome : expand m type (stop - start) (m.drop start) with
    | none => rfl
    | some data =>
      obtain ⟨names, next, hembeds, hencodable, -⟩ := (expand_eq_some hlayout hle).1 hsome
      obtain ⟨name, hn, hrefused⟩ := hnot names next hembeds
      exact absurd (hencodable name hn) hrefused

end

end

/-! ## where the data of a record stands -/

/-- the data of the record at a place stands from `start` to `stop`: after its owner and the ten bytes
of its other fields, as many bytes as the last two of these say; the first two are its type -/
structure DataAt (m : Bytes) (place : Nat) (type : RecordType) (start stop : Nat) : Prop where
  owner : ∃ name next, Name.decode.readAt m place = .ok (name, next) ∧ start = next + 10
  type : type = .ofCode (UInt16.ofNat (ofBigEndian (m.extract (start - 10) (start - 8))))
  size : stop = start + ofBigEndian (m.extract (start - 2) start)
  within : stop ≤ m.length

section
variable {m : Bytes} {place start stop past : Nat} {r : ResourceRecord}

theorem DataAt.unique {type type' : RecordType} {start' stop' : Nat}
    (h : DataAt m place type start stop) (h' : DataAt m place type' start' stop') :
    start' = start ∧ stop' = stop := by
  obtain ⟨name, next, hname, rfl⟩ := h.owner
  obtain ⟨name', next', hname', rfl⟩ := h'.owner
  rw [hname] at hname'
  obtain ⟨rfl, rfl⟩ := Prod.mk.inj (Except.ok.inj hname')
  exact ⟨rfl, h'.size.trans h.size.symm⟩

theorem DataAt.le {type : RecordType} (h : DataAt m place type start stop) : start ≤ stop := by
  rw [h.size]
  exact Nat.le_add_right _ _

theorem DataAt.size_le {type : RecordType} (h : DataAt m place type start stop) :
    stop - start ≤ (m.drop start).length := by
  rw [List.length_drop]
  exact Nat.sub_le_sub_right h.within start

/-- the places of the fields of a record that stands after an owner -/
theorem dataAt_of_fields {name : Name} {next : Nat} {w : ResourceRecord} {rest : Bytes}
    (hname : Name.decode.readAt m place = .ok (name, next)) (hbytes : m.drop next = w.fields ++ rest)
    (hsize : w.rdata.length ≤ maxData) :
    DataAt m place (.ofCode w.type.code) (next + 10) (next + w.fields.length) where
  owner := ⟨name, next, hname, rfl⟩
  type := by
    have htype : m.extract next (next + 2) = bigEndian 2 w.type.code.toNat := by
      rw [List.extract_eq_take_drop, hbytes, Nat.add_sub_cancel_left]
      rfl
    show _ = RecordType.ofCode (UInt16.ofNat (ofBigEndian (m.extract next (next + 2))))
    rw [htype, ofBigEndian_uint16]
  size := by
    have hlength : m.extract (next + 8) (next + 10) = bigEndian 2 w.rdata.length := by
      rw [List.extract_eq_take_drop, ← List.drop_drop, hbytes, Nat.add_sub_add_left]
      rfl
    show _ = next + 10 + ofBigEndian (m.extract (next + 8) (next + 10))
    rw [hlength, ofBigEndian_bigEndian_of_lt (Nat.lt_succ_of_le hsize), fields_length]
    omega
  within := by
    have hwhole := congrArg List.length hbytes
    have hpos : 10 ≤ w.fields.length := by
      rw [fields_length]
      exact Nat.le_add_right _ _
    rw [List.length_drop, List.length_append] at hwhole
    omega

/-- a record that is read ends where its data does, and the data is what the bytes there are written
out as, or these bytes -/
theorem dataAt_of_readAt (h : decode.readAt m place = .ok (r, past)) :
    ∃ start, DataAt m place r.type start past ∧
      r.rdata = (expand m r.type (past - start) (m.drop start)).getD (m.extract start past) := by
  obtain ⟨name, next, hname, hread⟩ := Decoder.readAt_bind.1 h
  obtain ⟨n, hfields, rfl⟩ := Decoder.readAt_eq_ok.1 hread
  obtain ⟨w, rest, hbytes, hsize, -, rfl, rfl⟩ := decodeFields_eq_ok.1 hfields
  have hlength : next + w.fields.length - (next + 10) = w.rdata.length := by
    rw [fields_length]
    omega
  have hdata : m.drop (next + 10) = w.rdata ++ rest := by
    rw [← List.drop_drop, hbytes]
    rfl
  refine ⟨next + 10, dataAt_of_fields hname hbytes hsize, ?_⟩
  rw [List.extract_eq_take_drop, hdata, hlength, List.take_left]
  rfl

theorem rdata_of_readAt (h : decode.readAt m place = .ok (r, past))
    (hdata : DataAt m place r.type start stop) :
    r.rdata = (expand m r.type (past - start) (m.drop start)).getD (m.extract start past) := by
  obtain ⟨start', hdata', hr⟩ := dataAt_of_readAt h
  obtain ⟨rfl, rfl⟩ := hdata'.unique hdata
  exact hr

theorem rdata_of_expand_none (h : decode.readAt m place = .ok (r, past))
    (hdata : DataAt m place r.type start stop)
    (hnone : expand m r.type (past - start) (m.drop start) = none) :
    r.rdata = m.extract start past := by
  rw [rdata_of_readAt h hdata, hnone]
  rfl

theorem readAt_inForm (h : decode.readAt m place = .ok (r, past)) : r.InForm := by
  obtain ⟨n, hread, -⟩ := Decoder.readAt_eq_ok.1 h
  exact (decode_returns hread).toInForm

/-- the data of a record was kept as it stands from `start` to `stop`: it was not written out, since
its names do not all stand there, or one of them cannot be written -/
structure Unexpanded (r : ResourceRecord) (m : Bytes) (start stop : Nat) : Prop where
  unwritten : expand m r.type (stop - start) (m.drop start) = none
  names : ∀ layout, r.type.layout? = some layout → ∀ names next,
    Embeds m layout start stop names next → ∃ name ∈ names, ¬ name.respelt.Encodable
  data : r.rdata = m.extract start stop

/-- only data that was kept as it stands holds pointers -/
theorem unexpanded_of_pointing (h : decode.readAt m place = .ok (r, past))
    (hp : r.pointing = true) : ∃ start, DataAt m place r.type start past ∧
      r.Unexpanded m start past := by
  obtain ⟨start, hdata, hr⟩ := dataAt_of_readAt h
  refine ⟨start, hdata, ?_⟩
  cases hexpand : expand m r.type (past - start) (m.drop start) with
  | none =>
    refine ⟨hexpand, ?_, rdata_of_expand_none h hdata hexpand⟩
    intro layout hlayout
    exact (expand_eq_none hlayout hdata.le).1 hexpand
  | some data =>
    rw [hexpand] at hr
    obtain rfl : r.rdata = data := hr
    unfold pointing at hp
    rw [(readAt_inForm h).type, expand_points hdata.size_le hexpand] at hp
    cases hp

/-! ## what a record is read as -/

/-- **a record that is read ends where its data does, and states the length of what it holds: if its
type embeds names, and all of them stand there without dots in their labels and within the limit for
names, the fixed bytes, the names without compression and the bytes after them; and the bytes as they
stand if its type embeds none, if one does not stand there, or if one without dots is too long** -/
theorem readAt_expanded (h : decode.readAt m place = .ok (r, past)) :
    ∃ start, DataAt m place r.type start past ∧ r.rdlength.toNat = r.rdata.length ∧
      (r.type.layout? = none → r.rdata = m.extract start past) ∧
      ∀ layout, r.type.layout? = some layout →
        (∀ names next, Embeds m layout start past names next →
          (∀ name ∈ names, (∀ label ∈ name.proper, Name.DotFree label) ∧ name.wireLength ≤ 255) →
          r.rdata = m.extract start (start + layout.fixed) ++
            (names.flatMap Name.encode ++ m.extract next past)) ∧
        ((∀ names next, ¬ Embeds m layout start past names next) →
          r.rdata = m.extract start past) ∧
        ∀ names next, Embeds m layout start past names next →
          (∃ name ∈ names, (∀ label ∈ name.proper, Name.DotFree label) ∧ 255 < name.wireLength) →
          r.rdata = m.extract start past := by
  obtain ⟨start, hdata, hr⟩ := dataAt_of_readAt h
  refine ⟨start, hdata, (readAt_inForm h).length, ?_, ?_⟩
  · intro hbare
    rw [hr, expand_bare hbare m]
    rfl
  intro layout hlayout
  refine ⟨?_, ?_, ?_⟩
  · intro names next hembeds hnames
    have hencodable : ∀ name ∈ names, name.respelt.Encodable := by
      intro name hn
      obtain ⟨hdotFree, hshort⟩ := hnames name hn
      have hlabels := hembeds.isLabel name hn
      rw [Name.respelt_of_dotFree hdotFree]
      exact Name.Encodable.normal ⟨fun label hl => (hlabels label hl).2, hshort⟩
    have hexpand :=
      (expand_eq_some hlayout hdata.le).2 ⟨names, next, hembeds, hencodable, rfl⟩
    rw [hr, hexpand, Name.flatMap_encode_respelt fun name hn => (hnames name hn).1]
    rfl
  · intro hnot
    apply rdata_of_expand_none h hdata
    rw [expand_eq_none hlayout hdata.le]
    intro names next hembeds
    exact absurd hembeds (hnot names next)
  · intro names next hembeds hlong
    obtain ⟨name, hn, hdotFree, hlong⟩ := hlong
    apply rdata_of_expand_none h hdata
    rw [expand_eq_none hlayout hdata.le]
    intro names' next' hembeds'
    obtain ⟨rfl, rfl⟩ := hembeds.unique hembeds'
    refine ⟨name, hn, fun hencodable => ?_⟩
    have hshort := hencodable.2
    rw [Name.respelt_of_dotFree hdotFree, Name.wireLength_normal] at hshort
    omega

/-- a name, and a record of its zone whose owner and data point to it -/
def zoneBytes : Bytes :=
  Name.encode ["example"] ++
    [192, 0, 0, 6, 0, 1, 0, 0, 0, 60, 0, 11, 2, 110, 115, 192, 0, 192, 0, 0, 0, 0, 1]

def zone : ResourceRecord where
  name := ["example", ""]
  type := .soa
  ttl := 60
  rdlength := 25
  rdata := Name.encode ["ns", "example"] ++ (Name.encode ["example"] ++ [0, 0, 0, 1])

theorem zone_read : decode.readAt zoneBytes 9 = .ok (zone, 32) := by decide +kernel

theorem zone_data : DataAt zoneBytes 9 .soa 21 32 where
  owner := ⟨["example", ""], 11, by decide +kernel, rfl⟩
  type := by decide +kernel
  size := by decide +kernel
  within := by decide +kernel

theorem zone_names :
    Embeds zoneBytes ⟨0, 2⟩ 21 32 [["ns", "example", ""], ["example", ""]] 28 where
  fixed := by decide
  count := rfl
  placed := by
    have hserver : Name.decode.readAt zoneBytes 21 = .ok (["ns", "example", ""], 26) := by
      decide +kernel
    exact .cons hserver (.cons (by decide +kernel) (.nil 28))
  within := by decide

theorem readAt_expanded_zone :
    decode.readAt zoneBytes 9 = .ok (zone, 32) ∧
      zone.rdata = [["ns", "example", ""], ["example", ""]].flatMap Name.encode ++
        zoneBytes.extract 28 32 := by
  obtain ⟨start, hdata, -, -, hnames⟩ := readAt_expanded zone_read
  obtain ⟨rfl, -⟩ := zone_data.unique hdata
  obtain ⟨hwritten, -, -⟩ := hnames ⟨0, 2⟩ rfl
  refine ⟨zone_read, ?_⟩
  rw [hwritten _ _ zone_names (by decide)]
  decide +kernel

/-! ## in another message -/

/-- data whose names were written out holds them in full -/
theorem plainNames_of_readAt (h : decode.readAt m place = .ok (r, past))
    (hdata : DataAt m place r.type start past)
    (hexpanded : r.type.layout? = none ∨
      ∃ data, expand m r.type (past - start) (m.drop start) = some data) :
    PlainNames r.type r.rdata := by
  rcases hexpanded with hbare | ⟨data, hsome⟩
  · exact plainNames_bare hbare r.rdata
  · rw [rdata_of_readAt h hdata, hsome]
    exact expand_plain hdata.size_le hsome

/-- **a record whose type embeds no names, or whose names were written out when it was read, is read
as it is wherever it is written, whatever stands before and after it** -/
theorem readAt_anywhere (h : decode.readAt m place = .ok (r, past))
    (hdata : DataAt m place r.type start past)
    (hexpanded : r.type.layout? = none ∨
      ∃ data, expand m r.type (past - start) (m.drop start) = some data)
    {wire : Bytes} (hwire : r.toWire = .ok wire) (before after : Bytes) :
    decode.readAt (before ++ wire ++ after) before.length =
      .ok (r, before.length + wire.length) := by
  obtain ⟨hname, rfl⟩ := toWire_eq_ok.1 hwire
  have hplain := plainNames_of_readAt h hdata hexpanded
  have hkept : r.Kept := ⟨readAt_inForm h, hname, hplain.full.settled⟩
  rw [List.append_assoc]
  refine Decoder.readAt_eq_ok.2 ⟨r.encode.length, ?_, rfl⟩
  rw [List.drop_left]
  exact hkept.accepts _ after

/-- in the other message the same two bytes would point elsewhere -/
theorem readAt_anywhere_zone :
    decode.readAt zoneBytes 9 = .ok (zone, 32) ∧ DataAt zoneBytes 9 .soa 21 32 ∧
      expand zoneBytes .soa 11 (zoneBytes.drop 21) = some zone.rdata ∧
      zone.toWire = .ok zone.encode ∧
      decode.readAt ([0, 192, 0] ++ zone.encode ++ [192]) 3 =
        .ok (zone, 3 + zone.encode.length) := by
  have hexpand : expand zoneBytes .soa 11 (zoneBytes.drop 21) = some zone.rdata := by
    decide +kernel
  have hwire : zone.toWire = .ok zone.encode := by decide +kernel
  exact ⟨zone_read, zone_data, hexpand, hwire,
    readAt_anywhere zone_read zone_data (.inr ⟨_, hexpand⟩) hwire [0, 192, 0] [192]⟩

end

end TransactionKey.ResourceRecord
