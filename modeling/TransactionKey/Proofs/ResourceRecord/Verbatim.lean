import TransactionKey.Proofs.ResourceRecord.Expansion

/-!
# Data without compression

Names without pointers are written out as dotted text spells them, and a label with a dot in it is
spelt there as several.  So data that holds no pointers is read as it stands just if none of the names
that are written out has such a label.

* `encode_of_placed`      names that stand one after the other without pointers, and their bytes;
* `readAt_verbatim_iff`   which data without pointers is read as it stands.
-/

namespace TransactionKey.ResourceRecord

variable {m : Bytes} {place start stop next past : Nat}

/-! ## parts of a message -/

theorem drop_extract (m : Bytes) (start stop n : Nat) :
    (m.extract start stop).drop n = m.extract (start + n) stop := by
  simp only [List.extract_eq_take_drop]
  rw [List.drop_take, List.drop_drop, Nat.sub_sub]

theorem take_extract {n : Nat} (m : Bytes) (h : start + n ≤ stop) :
    (m.extract start stop).take n = m.extract start (start + n) := by
  have hmin : min n (stop - start) = start + n - start := by omega
  simp only [List.extract_eq_take_drop]
  rw [List.take_take, hmin]

theorem extract_append_drop (m : Bytes) (h : start ≤ stop) :
    m.extract start stop ++ m.drop stop = m.drop start := by
  have hsum : start + (stop - start) = stop := by omega
  have hsplit := List.take_append_drop (stop - start) (m.drop start)
  rwa [List.drop_drop, hsum] at hsplit

/-! ## names without pointers -/

/-- such names are spelt by the bytes that they take up -/
theorem encode_of_placed {names : List Name} (hplaced : Name.decode.Placed m start names next)
    (hwithin : next ≤ stop) (hstop : stop ≤ m.length)
    (hp : namesPoint names.length (m.extract start stop) = false) :
    m.extract start stop = names.flatMap Name.encode ++ m.extract next stop := by
  induction hplaced with
  | nil => rfl
  | @cons start second next name names hread hrest ih =>
    obtain ⟨n, hname, rfl⟩ := Decoder.readAt_eq_ok.1 hread
    have hend : start + n ≤ stop := Nat.le_trans hrest.le hwithin
    have hlength : (m.extract start stop).length = stop - start := by
      rw [List.extract_eq_take_drop, List.length_take, List.length_drop]
      omega
    rw [← extract_append_drop m (Nat.le_trans (Nat.le_add_right _ _) hend)] at hname
    rw [List.length_cons, namesPoint] at hp
    -- the name ends in the data: its run can neither fail there nor go on elsewhere
    cases hrun : Name.run [] 0 (m.extract start stop) with
    | error e =>
      have hover := Name.decode_overrun hrun hname
      omega
    | ok result =>
      obtain ⟨labels, taken, goesOn⟩ := result
      rw [hrun] at hp
      cases goesOn with
      | some place => cases hp
      | none =>
        obtain ⟨-, hplain⟩ := Name.decode_within hrun m (m.drop stop)
        obtain ⟨rfl, rfl⟩ := Prod.mk.inj (Except.ok.inj (hname.symm.trans hplain))
        have hothers := drop_extract m start stop n
        dsimp only at hp
        rw [hothers] at hp
        rw [List.flatMap_cons, Name.encode_of_run hrun, List.append_assoc, ← ih hwithin hp,
          ← hothers, List.take_append_drop]

/-- so data without pointers is the fixed bytes, the names and the bytes after them -/
theorem Embeds.extract_eq {type : RecordType} {layout : NameLayout} {names : List Name}
    (h : Embeds m layout start stop names next) (hlayout : type.layout? = some layout)
    (hstop : stop ≤ m.length) (hp : points type (m.extract start stop) = false) :
    m.extract start stop = m.extract start (start + layout.fixed) ++
      (names.flatMap Name.encode ++ m.extract next stop) := by
  have hnames := namesPoint_of_points hp hlayout
  rw [drop_extract, ← h.count] at hnames
  rw [← encode_of_placed h.placed h.within hstop hnames, ← take_extract m h.fixed, ← drop_extract,
    List.take_append_drop]

/-! ## what a record is read as -/

section
variable {r : ResourceRecord}

/-- **data without compression pointers is read as it stands just if no label of its names holds a dot;
names that do not all stand there, or cannot be written as dotted text spells them, do not count** -/
theorem readAt_verbatim_iff (h : decode.readAt m place = .ok (r, past))
    (hdata : DataAt m place r.type start past)
    (hp : points r.type (m.extract start past) = false) :
    r.rdata = m.extract start past ↔
      ∀ layout names next, r.type.layout? = some layout →
        Embeds m layout start past names next → (∀ name ∈ names, name.respelt.Encodable) →
        ∀ name ∈ names, ∀ label ∈ name.proper, Name.DotFree label := by
  have hr := rdata_of_readAt h hdata
  constructor
  · intro hsame layout names next hlayout hembeds hencodable
    have hexpand := (expand_eq_some hlayout hdata.le).2 ⟨names, next, hembeds, hencodable, rfl⟩
    rw [hr, hexpand, Option.getD_some, hembeds.extract_eq hlayout hdata.within hp] at hsame
    have hnames := List.append_cancel_right (List.append_cancel_left hsame)
    exact Name.dotFree_of_flatMap_respelt hembeds.isLabel hencodable hnames.symm
  · intro hdotFree
    cases hlayout : r.type.layout? with
    | none =>
      rw [hr, expand_bare hlayout m]
      rfl
    | some layout =>
      cases hexpand : expand m r.type (past - start) (m.drop start) with
      | none => exact rdata_of_expand_none h hdata hexpand
      | some data =>
        obtain ⟨names, next, hembeds, hencodable, rfl⟩ :=
          (expand_eq_some hlayout hdata.le).1 hexpand
        have hsame := Name.flatMap_encode_respelt
          (hdotFree layout names next hlayout hembeds hencodable)
        rw [hr, hexpand, Option.getD_some, hsame, hembeds.extract_eq hlayout hdata.within hp]

end

/-- a record that was written is read as it stands -/
theorem readAt_verbatim_iff_zone :
    decode.readAt zone.encode 0 = .ok (zone, 44) ∧ DataAt zone.encode 0 .soa 19 44 ∧
      points .soa (zone.encode.extract 19 44) = false ∧ zone.rdata = zone.encode.extract 19 44 := by
  have hread : decode.readAt zone.encode 0 = .ok (zone, 44) := by decide +kernel
  have hdata : DataAt zone.encode 0 .soa 19 44 :=
    ⟨⟨["example", ""], 9, by decide +kernel, rfl⟩, by decide +kernel, by decide +kernel,
      by decide +kernel⟩
  have hp : points .soa (zone.encode.extract 19 44) = false := by decide +kernel
  have hserver : Name.decode.readAt zone.encode 19 = .ok (["ns", "example", ""], 31) := by
    decide +kernel
  have hnames : Embeds zone.encode ⟨0, 2⟩ 19 44 [["ns", "example", ""], ["example", ""]] 40 :=
    ⟨by decide, rfl, .cons hserver (.cons (by decide +kernel) (.nil 40)), by decide⟩
  refine ⟨hread, hdata, hp, (readAt_verbatim_iff hread hdata hp).2 ?_⟩
  intro layout names next hlayout hembeds _
  obtain rfl := Option.some.inj hlayout
  obtain ⟨rfl, rfl⟩ := hnames.unique hembeds
  decide

/-- a record whose data is a name of one label, `a.b`, and what it is read as -/
def dottedAliasBytes : Bytes := [0, 0, 5, 0, 1, 0, 0, 0, 0, 0, 5, 3, 97, 46, 98, 0]

def splitAlias : ResourceRecord where
  name := [""]
  type := .cname
  rdlength := 5
  rdata := Name.encode ["a", "b"]

theorem readAt_dottedAlias :
    decode.readAt dottedAliasBytes 0 = .ok (splitAlias, 16) ∧
      DataAt dottedAliasBytes 0 .cname 11 16 ∧
      points .cname (dottedAliasBytes.extract 11 16) = false ∧
      splitAlias.rdata ≠ dottedAliasBytes.extract 11 16 := by
  refine ⟨by decide +kernel, ?_, by decide +kernel, by decide +kernel⟩
  exact ⟨⟨[""], 1, by decide +kernel, rfl⟩, by decide +kernel, by decide +kernel, by decide +kernel⟩

end TransactionKey.ResourceRecord
