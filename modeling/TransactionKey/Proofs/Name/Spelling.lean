import TransactionKey.Proofs.Name.Dotted

/-!
# Texts that spell the same name

The empty parts between the dots of a text do not count in the name that it spells, so a text with
its final dot and one without spell the same name.

* `ofText_lowerAscii`    a lowered text spells the name in canonical form;
* `sameAscii_iff`        texts are alike up to case just if they spell the same name, up to case,
                         with the same empty parts;
* `toText_ofText_iff`    which texts are the dotted form of the name that they spell;
* `canonicalWire_eq_iff` names have the same canonical bytes just if they are the same up to case.
-/

namespace TransactionKey.Name

/-! ## lowered texts -/

theorem parts_map {f : Char → Char} (hf : ∀ c, f c = '.' ↔ c = '.') (cs : List Char) :
    parts (cs.map f) = (parts cs).map (List.map f) := by
  induction cs with
  | nil => rfl
  | cons c cs ih =>
    by_cases hc : c = '.'
    · rw [List.map_cons, (hf c).2 hc, hc, parts_dot, parts_dot, ih]
      rfl
    · obtain ⟨hfirst, hothers⟩ := List.cons.inj ih
      rw [List.map_cons, parts_cons (mt (hf c).1 hc), parts_cons hc, hfirst, hothers]
      rfl

theorem parts_lowerAscii (text : String) : parts (Text.lowerAscii text).toList =
    (parts text.toList).map (List.map Char.toLower) := by
  rw [Text.lowerAscii, String.toList_map, parts_map Text.toLower_eq_dot]

/-- lowering the letters of a dotted text lowers those of its labels -/
theorem ofText_lowerAscii (text : String) :
    ofText (Text.lowerAscii text) = (ofText text).canonical := by
  have hkept (ps : List (List Char)) : ((ps.map (List.map Char.toLower)).filter (· ≠ [])).map
      String.ofList = ((ps.filter (· ≠ [])).map String.ofList).map Text.lowerAscii := by
    rw [List.filter_map, List.map_map, List.map_map]
    have hsame : ((fun p => decide (p ≠ [])) ∘ List.map Char.toLower) =
        fun p => decide (p ≠ []) := by
      funext p
      simp
    rw [hsame]
    refine List.map_congr_left fun p _ => ?_
    show String.ofList (p.map Char.toLower) = Text.lowerAscii (String.ofList p)
    rw [Text.lowerAscii_eq_ofList, String.toList_ofList]
  have hroot : [""].map Text.lowerAscii = [""] :=
    congrArg (fun label => [label]) (Text.lowerAscii_eq_empty.2 rfl)
  rw [ofText_eq, parts_lowerAscii, hkept, ofText_eq, canonical, List.map_append, hroot]

theorem toText_canonical (name : Name) : name.canonical.toText = Text.lowerAscii name.toText := by
  have hjoin (labels : List String) :
      String.join ((labels.map Text.lowerAscii).map (· ++ ".")) =
        Text.lowerAscii (String.join (labels.map (· ++ "."))) := by
    induction labels with
    | nil => exact (Text.lowerAscii_eq_empty.2 rfl).symm
    | cons label labels ih =>
      rw [List.map_cons, List.map_cons, String.join_cons, ih, List.map_cons, String.join_cons,
        Text.lowerAscii_append, Text.lowerAscii_append, Text.lowerAscii_dot]
  unfold toText
  rw [proper_canonical]
  cases name.proper with
  | nil => exact Text.lowerAscii_dot.symm
  | cons label labels => exact hjoin (label :: labels)

/-! ## empty parts -/

/-- which of the parts between the dots of a text are empty -/
def gaps (text : String) : List Bool := (parts text.toList).map List.isEmpty

theorem intercalate_parts (cs : List Char) : ['.'].intercalate (parts cs) = cs := by
  induction cs with
  | nil => rfl
  | cons c cs ih =>
    by_cases hc : c = '.'
    · rw [hc, parts_dot]
      conv => rhs; rw [← ih]
      rfl
    · rw [parts_cons hc]
      conv => rhs; rw [← ih, parts]
      cases (fields cs).2 <;> rfl

theorem eq_of_gaps {ps qs : List (List Char)} (hkept : ps.filter (· ≠ []) = qs.filter (· ≠ []))
    (hgaps : ps.map List.isEmpty = qs.map List.isEmpty) : ps = qs := by
  induction ps generalizing qs with
  | nil => exact (List.map_eq_nil_iff.1 hgaps.symm).symm
  | cons p ps ih =>
    cases qs with
    | nil => cases hgaps
    | cons q qs =>
      obtain ⟨hempty, hgaps⟩ := List.cons.inj hgaps
      have hiff : p = [] ↔ q = [] := by
        rw [← List.isEmpty_iff, ← List.isEmpty_iff, hempty]
      by_cases hp : p = []
      · have hq : q = [] := hiff.1 hp
        rw [List.filter_cons_of_neg (by simpa using hp),
          List.filter_cons_of_neg (by simpa using hq)] at hkept
        rw [hp, hq, ih hkept hgaps]
      · have hq : q ≠ [] := mt hiff.2 hp
        rw [List.filter_cons_of_pos (by simpa using hp),
          List.filter_cons_of_pos (by simpa using hq)] at hkept
        obtain ⟨hsame, hkept⟩ := List.cons.inj hkept
        rw [hsame, ih hkept hgaps]

theorem ofText_eq_iff {s t : String} : ofText s = ofText t ↔
    (parts s.toList).filter (· ≠ []) = (parts t.toList).filter (· ≠ []) := by
  have hinj : Function.Injective String.ofList := fun a b h => by
    rw [← String.toList_ofList (l := a), h, String.toList_ofList]
  rw [ofText_eq, ofText_eq, List.append_left_inj]
  exact (List.map_injective_iff.2 hinj).eq_iff

/-- a text is determined by the name that it spells and by its empty parts -/
theorem text_eq_iff {s t : String} : s = t ↔ ofText s = ofText t ∧ gaps s = gaps t := by
  constructor
  · rintro rfl
    exact ⟨rfl, rfl⟩
  · rintro ⟨hname, hgaps⟩
    have hparts : parts s.toList = parts t.toList := eq_of_gaps (ofText_eq_iff.1 hname) hgaps
    have hjoin := congrArg (['.'].intercalate ·) hparts
    simp only [intercalate_parts] at hjoin
    exact String.toList_inj.1 hjoin

theorem gaps_lowerAscii (text : String) : gaps (Text.lowerAscii text) = gaps text := by
  rw [gaps, parts_lowerAscii, List.map_map, gaps]
  refine List.map_congr_left fun part _ => ?_
  cases part <;> rfl

theorem sameAscii_iff {s t : String} : Text.sameAscii s t = true ↔
    (ofText s).canonical = (ofText t).canonical ∧ gaps s = gaps t := by
  rw [Text.sameAscii, beq_iff_eq, text_eq_iff, ofText_lowerAscii, ofText_lowerAscii,
    gaps_lowerAscii, gaps_lowerAscii]

/-- a text is the dotted form of the name that it spells just if it has the empty parts of that
form -/
theorem toText_ofText_iff {text : String} :
    (ofText text).toText = text ↔ gaps (ofText text).toText = gaps text := by
  rw [text_eq_iff, ofText_toText (ofText_dotFree text), ofText_normal]
  exact and_iff_right rfl

/-- the empty parts of dotted forms depend on the names up to case only -/
theorem gaps_toText_congr {a b : Name} (h : a.canonical = b.canonical) :
    gaps a.toText = gaps b.toText := by
  rw [← gaps_lowerAscii, ← toText_canonical, h, toText_canonical, gaps_lowerAscii]

/-! ## names up to case -/

theorem canonical_ofText_normal (text : String) :
    (ofText text).canonical.normal = (ofText text).canonical := by
  rw [← ofText_lowerAscii, ofText_normal]

theorem encode_inj {a b : Name} (ha : a.Encodable) (hb : b.Encodable) (h : a.encode = b.encode) :
    a.normal = b.normal := by
  have hread := decodePlain_accepts ha [] []
  rw [h, decodePlain_accepts hb [] []] at hread
  exact (Prod.mk.inj (Except.ok.inj hread)).1.symm

theorem canonicalWire_eq_iff {s t : String} (h : (ofText s).Encodable) :
    (ofText s).canonicalWire = (ofText t).canonicalWire ↔
      (ofText s).canonical = (ofText t).canonical := by
  have hs := canonicalWire_eq_ok.2 ⟨h, rfl⟩
  rw [hs]
  constructor
  · intro hwire
    obtain ⟨ht, hencode⟩ := canonicalWire_eq_ok.1 hwire.symm
    rw [← canonical_ofText_normal s, ← canonical_ofText_normal t]
    exact encode_inj h.canonical ht.canonical hencode
  · intro hname
    have ht : (ofText t).Encodable := encodable_canonical.1 (hname ▸ h.canonical)
    exact (canonicalWire_eq_ok.2 ⟨ht, congrArg encode hname⟩).symm

end TransactionKey.Name
