import Mathlib.Data.List.Flatten
import TransactionKey.Proofs.Name
import TransactionKey.Proofs.Text.Lower

/-!
# Names as dotted text, and names in canonical form

* `ofText_toText`         dotted text keeps a name whose labels hold no dots;
* `ofText_dotFree`        no label of a name that a text spells holds a dot;
* `dotFree_of_encode_respelt`   and only such names are written as their dotted text spells them;
* `canonicalWire_inj`     canonical forms on the wire are self-delimiting.
-/

namespace TransactionKey.Name

/-! ## dotted text -/

/-- a label that dotted text keeps whole -/
def DotFree (label : String) : Prop := '.' ∉ label.toList

instance (label : String) : Decidable (DotFree label) := inferInstanceAs (Decidable (¬ _))

def parts (cs : List Char) : List (List Char) := (fields cs).1 :: (fields cs).2

theorem parts_dot (cs : List Char) : parts ('.' :: cs) = [] :: parts cs := rfl

theorem parts_cons {c : Char} (h : c ≠ '.') (cs : List Char) :
    parts (c :: cs) = (c :: (fields cs).1) :: (fields cs).2 := by
  simp [parts, fields, h]

theorem parts_append_dot (cs ds : List Char) : parts (cs ++ '.' :: ds) = parts cs ++ parts ds := by
  induction cs with
  | nil => exact parts_dot ds
  | cons c cs ih =>
    by_cases hc : c = '.'
    · rw [hc, List.cons_append, parts_dot, parts_dot, ih]
      rfl
    · unfold parts at ih
      rw [List.cons_append] at ih
      obtain ⟨hfirst, hothers⟩ := List.cons.inj ih
      rw [List.cons_append, parts_cons hc, parts_cons hc, hfirst, hothers]
      rfl

theorem parts_part {part : List Char} (h : '.' ∉ part) : parts part = [part] := by
  induction part with
  | nil => rfl
  | cons c part ih =>
    rw [List.mem_cons, not_or] at h
    obtain ⟨hfirst, hothers⟩ := List.cons.inj (ih h.2)
    rw [parts_cons (Ne.symm h.1), hfirst, hothers]

theorem ofText_eq (text : String) :
    ofText text = ((parts text.toList).filter (· ≠ [])).map String.ofList ++ [""] := rfl

theorem toText_normal (name : Name) : name.normal.toText = name.toText := by
  unfold toText
  rw [proper_normal]

theorem parts_join (labels : List String) :
    parts (String.join (labels.map (· ++ "."))).toList =
      labels.flatMap (fun label => parts label.toList) ++ [[]] := by
  induction labels with
  | nil => rfl
  | cons label labels ih =>
    rw [List.map_cons, String.join_cons, String.toList_append, String.toList_append,
      List.append_assoc, show ".".toList = ['.'] from rfl, List.singleton_append,
      parts_append_dot, ih, List.flatMap_cons, List.append_assoc]

theorem parts_toText (name : Name) : (parts name.toText.toList).filter (· ≠ []) =
    (name.proper.flatMap fun label => parts label.toList).filter (· ≠ []) := by
  unfold toText
  split
  · rename_i hnil
    rw [hnil]
    rfl
  · rw [parts_join, List.filter_append]
    exact List.append_nil _

theorem proper_ofText (text : String) :
    (ofText text).proper = ((parts text.toList).filter (· ≠ [])).map String.ofList := by
  rw [ofText_eq]
  refine proper_complete fun label hl => ?_
  obtain ⟨part, hpart, rfl⟩ := List.mem_map.1 hl
  have hne : part ≠ [] := of_decide_eq_true (List.mem_filter.1 hpart).2
  exact fun h => hne (by rw [← String.toList_ofList (l := part), h]; rfl)

/-- a name that a text spells is complete -/
theorem ofText_normal (text : String) : (ofText text).normal = ofText text := by
  rw [normal, proper_ofText, ← ofText_eq]

theorem ofText_toText {name : Name} (h : ∀ label ∈ name.proper, DotFree label) :
    ofText name.toText = name.normal := by
  have hparts : (name.proper.flatMap fun label => parts label.toList).filter (· ≠ []) =
      name.proper.map String.toList := by
    have hsingle : (name.proper.flatMap fun label => parts label.toList) =
        name.proper.flatMap fun label => [label.toList] := by
      refine List.flatMap_congr fun label hl => ?_
      exact parts_part (h label hl)
    rw [hsingle, ← List.map_eq_flatMap, List.filter_eq_self]
    intro part hp
    obtain ⟨label, hl, rfl⟩ := List.mem_map.1 hp
    exact decide_eq_true fun h0 => (mem_proper.1 hl).2 (String.toList_eq_nil_iff.1 h0)
  rw [ofText_eq, parts_toText, hparts, List.map_map, normal]
  congr 1
  simp

/-- the name that the dotted text of a name spells -/
def respelt (name : Name) : Name := ofText name.toText

theorem respelt_of_dotFree {name : Name} (h : ∀ label ∈ name.proper, DotFree label) :
    name.respelt = name.normal := ofText_toText h

theorem flatMap_encode_respelt {names : List Name}
    (h : ∀ name ∈ names, ∀ label ∈ name.proper, DotFree label) :
    names.flatMap (fun name => name.respelt.encode) = names.flatMap encode := by
  refine List.flatMap_congr fun name hn => ?_
  rw [respelt_of_dotFree (h name hn), encode_normal]

theorem not_mem_parts {cs part : List Char} (h : part ∈ parts cs) : '.' ∉ part := by
  induction cs generalizing part with
  | nil =>
    rw [List.mem_singleton.1 h]
    exact List.not_mem_nil
  | cons c cs ih =>
    by_cases hc : c = '.'
    · rw [hc, parts_dot] at h
      rcases List.mem_cons.1 h with rfl | h
      · exact List.not_mem_nil
      · exact ih h
    · rw [parts_cons hc] at h
      rcases List.mem_cons.1 h with rfl | h
      · rw [List.mem_cons, not_or]
        exact ⟨Ne.symm hc, ih (List.mem_cons_self ..)⟩
      · exact ih (List.mem_cons_of_mem _ h)

theorem ofText_dotFree (text : String) : ∀ label ∈ (ofText text).proper, DotFree label := by
  intro label hl
  obtain ⟨hmem, hne⟩ := mem_proper.1 hl
  rw [ofText_eq, List.mem_append, List.mem_singleton, or_iff_left hne] at hmem
  obtain ⟨part, hpart, rfl⟩ := List.mem_map.1 hmem
  unfold DotFree
  rw [String.toList_ofList]
  exact not_mem_parts (List.mem_filter.1 hpart).1

/-- only a name without dots in its labels is written as its dotted text spells it -/
theorem dotFree_of_encode_respelt {name : Name} (hlabels : ∀ label ∈ name.proper, IsLabel label)
    (hencodable : name.respelt.Encodable) {rest rest' : Bytes}
    (h : name.encode ++ rest = name.respelt.encode ++ rest') :
    (∀ label ∈ name.proper, DotFree label) ∧ rest = rest' := by
  have hread := decodePlain_accepts_labels hlabels [] rest
  rw [h, decodePlain_accepts hencodable [] rest'] at hread
  obtain ⟨hname, hlength⟩ := Prod.mk.inj (Except.ok.inj hread)
  refine ⟨?_, (List.append_inj h hlength.symm).2⟩
  rw [← proper_normal, ← hname, proper_normal]
  exact ofText_dotFree name.toText

theorem dotFree_of_flatMap_respelt {names : List Name}
    (hlabels : ∀ name ∈ names, ∀ label ∈ name.proper, IsLabel label)
    (hencodable : ∀ name ∈ names, name.respelt.Encodable)
    (h : names.flatMap encode = names.flatMap fun name => name.respelt.encode) :
    ∀ name ∈ names, ∀ label ∈ name.proper, DotFree label := by
  induction names with
  | nil => exact List.forall_mem_nil _
  | cons name names ih =>
    obtain ⟨hname, hnames⟩ := List.forall_mem_cons.1 hlabels
    obtain ⟨hfirst, hothers⟩ := List.forall_mem_cons.1 hencodable
    rw [List.flatMap_cons, List.flatMap_cons] at h
    obtain ⟨hdotFree, hrest⟩ := dotFree_of_encode_respelt hname hfirst h
    exact List.forall_mem_cons.2 ⟨hdotFree, ih hnames hothers hrest⟩

/-- a label with dots in it is spelt as several, in as many bytes -/
theorem spell_parts (cs : List Char) :
    (spell ((parts cs).map String.ofList)).length =
      (cs.flatMap String.utf8EncodeChar).length + 1 := by
  have hpart (part : List Char) : (Text.utf8 (String.ofList part)).length =
      (part.flatMap String.utf8EncodeChar).length := by
    rw [Text.utf8_eq_flatMap, String.toList_ofList]
  induction cs with
  | nil => rfl
  | cons c cs ih =>
    by_cases hc : c = '.'
    · rw [hc, parts_dot, List.map_cons, spell_cons, List.length_cons, List.length_append, ih,
        List.flatMap_cons, List.length_append]
      have hempty : (Text.utf8 (String.ofList [])).length = 0 := hpart []
      have hdot : (String.utf8EncodeChar '.').length = 1 := rfl
      omega
    · rw [parts, List.map_cons, spell_cons, List.length_cons, List.length_append, hpart] at ih
      rw [parts_cons hc, List.map_cons, spell_cons, List.length_cons, List.length_append, hpart,
        List.flatMap_cons, List.length_append, List.flatMap_cons, List.length_append]
      omega

theorem spell_flatMap_parts (labels : List String) :
    (spell ((labels.flatMap fun label => parts label.toList).map String.ofList)).length =
      (spell labels).length := by
  induction labels with
  | nil => rfl
  | cons label labels ih =>
    have hlabel := spell_parts label.toList
    rw [← Text.utf8_eq_flatMap] at hlabel
    rw [List.flatMap_cons, List.map_append, spell, List.flatMap_append, List.length_append,
      spell_cons, List.length_cons, List.length_append, ← ih]
    unfold spell at hlabel ⊢
    omega

/-- the name that the dotted form of a name spells takes up no more bytes -/
theorem encode_ofText_toText_length (name : Name) :
    (ofText name.toText).encode.length ≤ name.encode.length := by
  let all := name.proper.flatMap fun label => parts label.toList
  have hkept : ((all.filter (· ≠ [])).map String.ofList).Sublist (all.map String.ofList) :=
    List.filter_sublist.map _
  rw [encode_eq, encode_eq, List.length_append, List.length_append, proper_ofText, parts_toText,
    ← spell_flatMap_parts name.proper]
  exact Nat.add_le_add_right (hkept.flatMap _).length_le 1

/-! ## canonical form -/

theorem proper_canonical (name : Name) :
    name.canonical.proper = name.proper.map Text.lowerAscii := by
  unfold canonical proper
  rw [List.filter_map]
  congr 1
  refine List.filter_congr fun label _ => ?_
  simp [Text.lowerAscii_eq_empty]

theorem encodable_canonical {name : Name} : name.canonical.Encodable ↔ name.Encodable := by
  simp only [Encodable, wireLength, proper_canonical, List.forall_mem_map, List.foldl_map,
    Text.utf8ByteSize_lowerAscii]

theorem Encodable.canonical {name : Name} (h : name.Encodable) : name.canonical.Encodable :=
  encodable_canonical.2 h

theorem canonicalWire_inj {a b : Name} {v w r s : Bytes} (ha : a.canonicalWire = .ok v)
    (hb : b.canonicalWire = .ok w) (h : v ++ r = w ++ s) : v = w ∧ r = s := by
  obtain ⟨hea, rfl⟩ := canonicalWire_eq_ok.1 ha
  obtain ⟨heb, rfl⟩ := canonicalWire_eq_ok.1 hb
  exact encode_append_inj hea.canonical heb.canonical h

end TransactionKey.Name
