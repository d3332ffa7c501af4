import TransactionKey.Proofs.Decoder.Placed
import TransactionKey.Proofs.Name.Spelling
import TransactionKey.Proofs.Name.Walk

/-!
# Names without compression

`decodePlain` accepts the names that stand in full where they are read: labels and a zero byte
(`decodePlain_spelt`).

* `Walk.spelt`           a walk without pointers is a name that stands in full;
* `reachesRoot`          whether length bytes lead from one to the next to a zero byte;
* `decodePlain_scanned`  a plain name is one that is read with pointers allowed, once such a scan has
                         succeeded;
* `readPlain_iff`        which names are plain, and that a plain name is written as it stood;
* `readAt_ofText`        the name of a text is read back wherever its wire form stands.
-/

namespace TransactionKey.Name

/-! ## names that stand in full -/

theorem encode_root {labels : List String} (h : ∀ label ∈ labels, IsLabel label) :
    encode (labels ++ [""]) = spell labels ++ [0] := by
  rw [encode_eq, proper_complete fun label hl => (h label hl).1]

/-- labels and a zero byte are read whole -/
theorem decodePlain_accepts_spell {labels : List String} (h : ∀ label ∈ labels, IsLabel label) :
    decodePlain.Accepts (spell labels ++ [0]) (labels ++ [""]) := by
  have hproper : proper (labels ++ [""]) = labels := proper_complete fun label hl => (h label hl).1
  have haccepts : decodePlain.Accepts (encode (labels ++ [""])) (normal (labels ++ [""])) :=
    decodePlain_accepts_labels (by rwa [hproper])
  rwa [encode_root h, normal, hproper] at haccepts

/-- what is read as a plain name are labels and a zero byte -/
theorem decodePlain_spelt {m r : Bytes} {name : Name} {n : Nat} :
    decodePlain m r = .ok (name, n) ↔
      ∃ labels rest, (∀ label ∈ labels, IsLabel label) ∧ r = spell labels ++ 0 :: rest ∧
        name = labels ++ [""] ∧ n = (spell labels).length + 1 := by
  constructor
  · intro h
    unfold decodePlain at h
    split at h
    case h_1 => cases h
    case h_3 => cases h
    case h_2 found taken hrun =>
    obtain ⟨rfl, rfl⟩ := Prod.mk.inj (Except.ok.inj h)
    obtain ⟨labels, stop, rest, hlabels, -, rfl, hresult⟩ := run_eq_ok.1 hrun
    obtain ⟨rfl, rfl, hnext⟩ := Run.mk.inj hresult
    cases stop with
    | pointer => cases hnext
    | root =>
      refine ⟨labels, rest, hlabels, ?_, ?_, ?_⟩
      · rw [List.append_assoc]
        rfl
      · rw [List.append_nil, List.reverse_cons, List.reverse_reverse]
      · rw [Nat.zero_add, List.length_append]
        rfl
  · intro h
    obtain ⟨labels, rest, hlabels, rfl, rfl, rfl⟩ := h
    have hread := decodePlain_accepts_spell hlabels m rest
    rwa [List.append_assoc, List.length_append] at hread

section
variable {message : Bytes} {place past pointers : Nat} {labels : List String}

theorem drop_label {label : String} {len : UInt8} {rest : Bytes}
    (hdrop : message.drop place = len :: (Text.utf8 label ++ rest)) :
    message.drop (place + 1 + label.utf8ByteSize) = rest := by
  rw [Nat.add_assoc, ← List.drop_drop, hdrop, Nat.add_comm 1, List.drop_succ_cons,
    ← Text.utf8_length, List.drop_left]

theorem spell_length_cons (label : String) (labels : List String) :
    (spell (label :: labels)).length = 1 + label.utf8ByteSize + (spell labels).length := by
  rw [spell_cons, List.length_cons, List.length_append, Text.utf8_length]
  omega

/-- along labels that end with a zero byte no pointer is followed -/
theorem walk_spell (h : ∀ label ∈ labels, IsLabel label) {rest : Bytes}
    (hdrop : message.drop place = spell labels ++ 0 :: rest) :
    Walk message place labels 0 (place + ((spell labels).length + 1)) := by
  induction labels generalizing place with
  | nil => exact .root hdrop
  | cons label labels ih =>
    obtain ⟨hlabel, hlabels⟩ := List.forall_mem_cons.1 h
    rw [spell_cons, List.cons_append, List.append_assoc] at hdrop
    have hpast : place + ((spell (label :: labels)).length + 1) =
        place + 1 + label.utf8ByteSize + ((spell labels).length + 1) := by
      rw [spell_length_cons]
      omega
    rw [hpast]
    exact .label hlabel hdrop (ih hlabels (drop_label hdrop))

/-- a walk that follows no pointer goes along a name that stands in full -/
theorem Walk.spelt (h : Walk message place labels pointers past) (hnone : pointers = 0) :
    (∀ label ∈ labels, IsLabel label) ∧ past = place + ((spell labels).length + 1) ∧
      ∃ rest, message.drop place = spell labels ++ 0 :: rest := by
  induction h with
  | @root place rest hdrop => exact ⟨List.forall_mem_nil _, rfl, rest, hdrop⟩
  | @label place pointers past label labels rest hlabel hdrop _ ih =>
    obtain ⟨hlabels, rfl, rest', hnext⟩ := ih hnone
    rw [drop_label hdrop] at hnext
    subst hnext
    refine ⟨List.forall_mem_cons.2 ⟨hlabel, hlabels⟩, ?_, rest', ?_⟩
    · rw [spell_length_cons]
      omega
    · rw [hdrop, spell_cons, List.cons_append, List.append_assoc]
  | pointer => cases hnone

end

/-! ## a scan before the reading -/

/-- whether length bytes lead from one to the next, each over the label before it, to a zero byte; the
labels are not looked at -/
def reachesRoot : Bytes → Bool
  | [] => false
  | len :: rest =>
    if len = 0 then true
    else if 63 < len then false
    else reachesRoot (rest.drop len.toNat)
termination_by bs => bs.length
decreasing_by simp only [List.length_drop, List.length_cons]; omega

/-- a scan passes over labels, and tells a zero byte from a pointer -/
theorem reachesRoot_spell {labels : List String} (h : ∀ label ∈ labels, IsLabel label)
    {stop : Stop} (hs : stop.Marked) (rest : Bytes) :
    reachesRoot (spell labels ++ stop.bytes ++ rest) = stop.next.isNone := by
  induction labels with
  | nil =>
    cases stop with
    | root =>
      show reachesRoot (0 :: rest) = true
      rw [reachesRoot, if_pos rfl]
    | pointer high low =>
      have hmark : high &&& 0xC0 = 0xC0 := hs
      have hzero : high ≠ 0 := by
        rintro rfl
        exact absurd hmark (by decide)
      have hlong : 63 < high := by
        refine UInt8.not_le.1 fun hle => ?_
        have hsmall := not_marked (UInt8.le_iff_toNat_le.1 hle)
        rw [UInt8.ofNat_toNat] at hsmall
        exact hsmall hmark
      show reachesRoot (high :: low :: rest) = false
      rw [reachesRoot, if_neg hzero, if_pos hlong]
  | cons label labels ih =>
    obtain ⟨hlabel, hlabels⟩ := List.forall_mem_cons.1 h
    obtain ⟨hlen, -, hzero, hshort⟩ := hlabel.lengthByte
    rw [spell_cons, List.cons_append, List.cons_append, List.append_assoc, List.append_assoc,
      reachesRoot, if_neg hzero, if_neg hshort, hlen, ← Text.utf8_length, List.drop_left,
      ← List.append_assoc]
    exact ih hlabels

theorem run_eq_error {done : List String} {taken : Nat} {r : Bytes} {e : WireError}
    (h : run done taken r = .error e) : e = .badLabel := by
  fun_induction run done taken r with
  | case1 | case2 | case5 | case6 | case7 => exact (Except.error.inj h).symm
  | case3 | case4 => cases h
  | case8 done taken len rest _ _ _ raw tail _ label _ ih => exact ih h

/-- a plain name is what is read with pointers allowed, after a scan for its zero byte -/
theorem decodePlain_scanned (m r : Bytes) :
    decodePlain m r = if reachesRoot r then decode m r else .error .badLabel := by
  unfold decodePlain decode
  cases hrun : run [] 0 r with
  | error e =>
    obtain rfl := run_eq_error hrun
    exact (ite_self _).symm
  | ok result =>
    obtain ⟨labels, stop, rest, hlabels, hs, rfl, rfl⟩ := run_eq_ok.1 hrun
    rw [reachesRoot_spell hlabels hs]
    cases stop <;> rfl

theorem readPlain_eq_error {message : Bytes} {place : Nat} {e : WireError}
    (h : decodePlain.readAt message place = .error e) : e = .badLabel := by
  unfold Decoder.readAt decodePlain at h
  cases hrun : run [] 0 (message.drop place) with
  | error fault =>
    rw [hrun] at h
    obtain rfl := Except.error.inj h
    exact run_eq_error hrun
  | ok result =>
    obtain ⟨labels, taken, next⟩ := result
    rw [hrun] at h
    cases next with
    | none => cases h
    | some next => exact (Except.error.inj h).symm

/-! ## which names are plain -/

/-- a name is plain just if it stands in full where it is read with pointers allowed -/
theorem decodePlain_iff_decode {m r : Bytes} {name : Name} {n : Nat} :
    decodePlain m r = .ok (name, n) ↔ decode m r = .ok (name, n) ∧ r.take n = name.encode := by
  constructor
  · intro h
    refine ⟨?_, (decodePlain_eq_ok h).2.symm⟩
    rw [decodePlain_scanned] at h
    split at h
    · exact h
    · cases h
  · intro h
    obtain ⟨hread, hbytes⟩ := h
    have hlength : name.encode.length = n := by
      rw [← hbytes]
      exact List.length_take_of_le (decode_bounded hread)
    obtain ⟨labels, hlabels, rfl⟩ := decode_returns hread
    have hplain := decodePlain_accepts_spell hlabels m (r.drop n)
    rwa [← encode_root hlabels, hlength, ← hbytes, List.take_append_drop] at hplain

/-- **a name is read as plain just if it is read with pointers allowed and the bytes that it takes up
are its labels, each after its length, and a zero byte; that is, if the walk along it follows no
pointer.  It is then written as it stood, if it can be written, and every other name is refused**: what
is done is to scan for the zero byte, and then to read with pointers allowed -/
theorem readPlain_iff (message : Bytes) (place : Nat) :
    (∀ name past, decodePlain.readAt message place = .ok (name, past) ↔
      decode.readAt message place = .ok (name, past) ∧ message.extract place past = name.encode) ∧
    (∀ name past, decodePlain.readAt message place = .ok (name, past) ↔
      ∃ labels, Walk message place labels 0 past ∧ name = labels ++ [""]) ∧
    (∀ name past, decodePlain.readAt message place = .ok (name, past) →
      ∀ wire, name.toWire = .ok wire → wire = message.extract place past) ∧
    ((∀ name past, decode.readAt message place = .ok (name, past) →
        message.extract place past ≠ name.encode) →
      decodePlain.readAt message place = .error .badLabel) ∧
    decodePlain.readAt message place =
      if reachesRoot (message.drop place) then decode.readAt message place
      else .error .badLabel := by
  have hiff : ∀ name past, decodePlain.readAt message place = .ok (name, past) ↔
      decode.readAt message place = .ok (name, past) ∧
        message.extract place past = name.encode := by
    intro name past
    simp only [Decoder.readAt_eq_ok, decodePlain_iff_decode]
    constructor
    · intro h
      obtain ⟨n, ⟨hread, hbytes⟩, rfl⟩ := h
      refine ⟨⟨n, hread, rfl⟩, ?_⟩
      rwa [List.extract_eq_take_drop, Nat.add_sub_cancel_left]
    · intro h
      obtain ⟨⟨n, hread, rfl⟩, hbytes⟩ := h
      refine ⟨n, ⟨hread, ?_⟩, rfl⟩
      rwa [List.extract_eq_take_drop, Nat.add_sub_cancel_left] at hbytes
  refine ⟨hiff, ?_, ?_, ?_, ?_⟩
  · intro name past
    rw [Decoder.readAt_eq_ok]
    constructor
    · intro h
      obtain ⟨n, hread, rfl⟩ := h
      obtain ⟨labels, rest, hlabels, hdrop, rfl, rfl⟩ := decodePlain_spelt.1 hread
      exact ⟨labels, walk_spell hlabels hdrop, rfl⟩
    · intro h
      obtain ⟨labels, hwalk, rfl⟩ := h
      obtain ⟨hlabels, rfl, rest, hdrop⟩ := hwalk.spelt rfl
      exact ⟨_, decodePlain_spelt.2 ⟨labels, rest, hlabels, hdrop, rfl, rfl⟩, rfl⟩
  · intro name past h wire hwire
    rw [((hiff name past).1 h).2]
    exact (toWire_eq_ok.1 hwire).2
  · intro hother
    cases hplain : decodePlain.readAt message place with
    | ok item =>
      obtain ⟨hread, hbytes⟩ := (hiff item.1 item.2).1 hplain
      exact absurd hbytes (hother _ _ hread)
    | error e => rw [readPlain_eq_error hplain]
  · unfold Decoder.readAt
    rw [decodePlain_scanned]
    cases reachesRoot (message.drop place) <;> rfl

/-- a name that stands in full, and one that goes on there -/
def pairOfNames : Bytes := [1, 107, 0, 1, 97, 192, 0]

/-- the first name is plain, and the second one is refused -/
theorem readPlain_iff_pairOfNames :
    decode.readAt pairOfNames 0 = .ok (["k", ""], 3) ∧
      pairOfNames.extract 0 3 = encode ["k", ""] ∧
      decodePlain.readAt pairOfNames 0 = .ok (["k", ""], 3) ∧
      toWire ["k", ""] = .ok [1, 107, 0] ∧ [1, 107, 0] = pairOfNames.extract 0 3 ∧
      decode.readAt pairOfNames 3 = .ok (["a", "k", ""], 7) ∧
      decodePlain.readAt pairOfNames 3 = .error .badLabel := by
  have hfirst : decode.readAt pairOfNames 0 = .ok (["k", ""], 3) := by decide +kernel
  have hbytes : pairOfNames.extract 0 3 = encode ["k", ""] := by decide +kernel
  have hwire : toWire ["k", ""] = .ok [1, 107, 0] := by decide +kernel
  have hsecond : decode.readAt pairOfNames 3 = .ok (["a", "k", ""], 7) := by decide +kernel
  obtain ⟨hplain, -, hwritten, -⟩ := readPlain_iff pairOfNames 0
  obtain ⟨-, -, -, hrefused, -⟩ := readPlain_iff pairOfNames 3
  have hread : decodePlain.readAt pairOfNames 0 = .ok (["k", ""], 3) :=
    (hplain _ _).2 ⟨hfirst, hbytes⟩
  refine ⟨hfirst, hbytes, hread, hwire, hwritten _ _ hread _ hwire, hsecond, hrefused ?_⟩
  intro name past h
  obtain ⟨rfl, rfl⟩ := Prod.mk.inj (Except.ok.inj (h.symm.trans hsecond))
  decide +kernel

/-! ## names of texts -/

/-- the name of a text, as it is spelt or in canonical form -/
def ofTextIn (lowered : Bool) (text : String) : Name :=
  if lowered then (ofText text).canonical else ofText text

/-- the wire form of that name -/
def textWire (lowered : Bool) (text : String) : Except WireError Bytes :=
  if lowered then (ofText text).canonicalWire else (ofText text).toWire

section
variable {lowered : Bool} {text : String}

theorem textWire_eq_ok {wire : Bytes} : textWire lowered text = .ok wire ↔
    (ofText text).Encodable ∧ wire = (ofTextIn lowered text).encode := by
  cases lowered with
  | false => exact toWire_eq_ok
  | true => exact canonicalWire_eq_ok

theorem ofTextIn_encodable (h : (ofText text).Encodable) : (ofTextIn lowered text).Encodable := by
  cases lowered with
  | false => exact h
  | true => exact h.canonical

theorem ofTextIn_normal : (ofTextIn lowered text).normal = ofTextIn lowered text := by
  cases lowered with
  | false => exact ofText_normal text
  | true => exact canonical_ofText_normal text

/-- lowering the letters of the labels lowers the bytes of the wire form: no length is a letter -/
theorem encode_canonical {name : Name} (h : name.Encodable) :
    name.canonical.encode = name.encode.map Text.lowerByte := by
  have hlength {n : Nat} (hn : n ≤ 63) : Text.lowerByte (UInt8.ofNat n) = UInt8.ofNat n := by
    refine if_neg fun hletter => ?_
    have hlow := UInt8.le_iff_toNat_le.1 hletter.1
    rw [UInt8.toNat_ofNat', show (65 : UInt8).toNat = 65 from rfl] at hlow
    omega
  have hspell : ∀ label ∈ name.proper,
      UInt8.ofNat (Text.lowerAscii label).utf8ByteSize :: Text.utf8 (Text.lowerAscii label) =
        (UInt8.ofNat label.utf8ByteSize :: Text.utf8 label).map Text.lowerByte := by
    intro label hl
    rw [Text.utf8ByteSize_lowerAscii, Text.utf8_lowerAscii, List.map_cons, hlength (h.1 label hl)]
  rw [encode_eq, encode_eq, proper_canonical, spell, spell, List.flatMap_map, List.map_append,
    List.map_flatMap, List.flatMap_congr hspell]
  rfl

end

/-- **the wire form of the name that a text spells, canonical or not, is read as that name wherever it
stands, with pointers allowed or not, and taken up whole.  A text is written as its name's dotted form
is, and the canonical form has the same bytes but for ASCII letters, which are lowered** -/
theorem readAt_ofText (text : String) :
    (∀ lowered wire, textWire lowered text = .ok wire → ∀ front back : Bytes,
      decode.readAt (front ++ wire ++ back) front.length =
        .ok (ofTextIn lowered text, front.length + wire.length) ∧
      decodePlain.readAt (front ++ wire ++ back) front.length =
        .ok (ofTextIn lowered text, front.length + wire.length)) ∧
    (∀ lowered, textWire lowered (ofText text).toText = textWire lowered text) ∧
    textWire true text = (textWire false text).map (List.map Text.lowerByte) := by
  refine ⟨?_, ?_, ?_⟩
  · intro lowered wire hwire front back
    obtain ⟨hencodable, rfl⟩ := textWire_eq_ok.1 hwire
    have hname : (ofTextIn lowered text).Encodable := ofTextIn_encodable hencodable
    have hread := (decode_accepts hname).readAt front back
    have hplain := (decodePlain_accepts hname).readAt front back
    rw [ofTextIn_normal] at hread hplain
    exact ⟨hread, hplain⟩
  · intro lowered
    have hname : ofText (ofText text).toText = ofText text := by
      rw [ofText_toText (ofText_dotFree text), ofText_normal]
    unfold textWire
    rw [hname]
  · by_cases h : (ofText text).Encodable
    · rw [textWire_eq_ok.2 ⟨h, rfl⟩, textWire_eq_ok.2 ⟨h, rfl⟩]
      exact congrArg Except.ok (encode_canonical h)
    · show (ofText text).canonicalWire = (ofText text).toWire.map (List.map Text.lowerByte)
      unfold canonicalWire toWire
      cases hcheck : (ofText text).check with
      | error e => rfl
      | ok u => exact absurd (check_eq_ok.1 hcheck) h

/-- a name among bytes that look like pointers is read between them, and its letters are lowered -/
theorem readAt_ofText_amongPointers :
    textWire true "Key.Example." = .ok [3, 107, 101, 121, 7, 101, 120, 97, 109, 112, 108, 101, 0] ∧
      decode.readAt [192, 3, 107, 101, 121, 7, 101, 120, 97, 109, 112, 108, 101, 0, 192] 1 =
        .ok (["key", "example", ""], 14) ∧
      decodePlain.readAt [192, 3, 107, 101, 121, 7, 101, 120, 97, 109, 112, 108, 101, 0, 192] 1 =
        .ok (["key", "example", ""], 14) := by
  have hwire : textWire true "Key.Example." =
      .ok [3, 107, 101, 121, 7, 101, 120, 97, 109, 112, 108, 101, 0] := by decide +kernel
  have hname : ofTextIn true "Key.Example." = ["key", "example", ""] := by decide +kernel
  obtain ⟨hread, hplain⟩ := (readAt_ofText "Key.Example.").1 true _ hwire [192] [192]
  rw [hname] at hread hplain
  exact ⟨hwire, hread, hplain⟩

end TransactionKey.Name
