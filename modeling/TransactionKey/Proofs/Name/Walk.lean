import TransactionKey.Proofs.Name

/-!
# The walk along a compressed name

A name in a message is a walk: labels that stand one after the other, pointers to other places where
they go on, and a zero byte.  Nothing keeps a walk from coming back to a place where it has been, so
its pointers are counted.

* `Walk`             the labels of a name, its pointers, and where it ends at its own place;
* `item?`            the label, pointer or zero byte that some bytes begin with;
* `Cursor.turn`      one turn of the loop along a walk, an item at a time (`Cursor.turn_cases`);
* `Cursor.finishes`  the loop ends: a turn spends a pointer or some of the bytes that are left;
* `readAt_walk`      reading a name is this loop, and it reads exactly the walks with few pointers.
-/

namespace TransactionKey.Name

/-- the labels of the name at a place, the pointers on the way to its zero byte, and the place past
it: past the first pointer, or past the zero byte if there is none -/
inductive Walk (message : Bytes) : (place : Nat) → List String → (pointers past : Nat) → Prop where
  | root {place : Nat} {rest : Bytes} :
      message.drop place = 0 :: rest → Walk message place [] 0 (place + 1)
  | label {place pointers past : Nat} {label : String} {labels : List String} {rest : Bytes} :
      IsLabel label →
      message.drop place = UInt8.ofNat label.utf8ByteSize :: (Text.utf8 label ++ rest) →
      Walk message (place + 1 + label.utf8ByteSize) labels pointers past →
      Walk message place (label :: labels) pointers past
  | pointer {place pointers past : Nat} {high low : UInt8} {labels : List String} {rest : Bytes} :
      high &&& 0xC0 = 0xC0 →
      message.drop place = high :: low :: rest →
      Walk message (target high low) labels pointers past →
      Walk message place labels (pointers + 1) (place + 2)

/-! ## items -/

/-- what a name goes on with -/
inductive Item where
  | root
  | label (label : String)
  | pointer (high low : UInt8)

def Item.bytes : Item → Bytes
  | .root => [0]
  | .label text => UInt8.ofNat text.utf8ByteSize :: Text.utf8 text
  | .pointer high low => [high, low]

/-- whether the first byte tells the item from others -/
def Item.Marked : Item → Prop
  | .root => True
  | .label text => IsLabel text
  | .pointer high _ => high &&& 0xC0 = 0xC0

/-- the item that the bytes begin with -/
def item? : Bytes → Option Item
  | [] => none
  | len :: rest =>
    if len &&& 0xC0 = 0xC0 then rest.head?.map (Item.pointer len)
    else if len = 0 then some .root
    else if 63 < len then none
    else
      match Bytes.take? len.toNat rest with
      | none => none
      | some (raw, _) => (Text.ofUtf8? raw).map Item.label

theorem item?_append (item : Item) (h : item.Marked) (rest : Bytes) :
    item? (item.bytes ++ rest) = some item := by
  cases item with
  | root => rfl
  | pointer high low =>
    have hmark : high &&& 0xC0 = 0xC0 := h
    show item? (high :: low :: rest) = _
    rw [item?, if_pos hmark]
    rfl
  | label label =>
    obtain ⟨hlen, hmark, hzero, hshort⟩ := IsLabel.lengthByte h
    have htake : Bytes.take? label.utf8ByteSize (Text.utf8 label ++ rest) =
        some (Text.utf8 label, rest) := Bytes.take?_append (Text.utf8 label) rest
    show item? (UInt8.ofNat label.utf8ByteSize :: (Text.utf8 label ++ rest)) = _
    rw [item?, if_neg hmark, if_neg hzero, if_neg hshort, hlen, htake]
    simp only [Text.ofUtf8?_utf8, Option.map_some]

theorem item?_eq_some {r : Bytes} {item : Item} (h : item? r = some item) :
    item.Marked ∧ ∃ rest, r = item.bytes ++ rest := by
  fun_cases item? r with
  | case1 | case4 | case5 => simp_all [item?]
  | case2 len rest hmark =>
    rw [item?, if_pos hmark] at h
    obtain ⟨low, hlow, rfl⟩ := Option.map_eq_some_iff.1 h
    obtain ⟨tail, rfl⟩ := List.head?_eq_some_iff.1 hlow
    exact ⟨hmark, tail, rfl⟩
  | case3 rest hmark =>
    obtain rfl := Option.some.inj h
    exact ⟨trivial, rest, rfl⟩
  | case6 len rest hmark hzero hshort raw tail htake =>
    rw [item?, if_neg hmark, if_neg hzero, if_neg hshort, htake] at h
    obtain ⟨label, htext, rfl⟩ := Option.map_eq_some_iff.1 h
    obtain ⟨rfl, hraw⟩ := Bytes.take?_eq_some htake
    obtain rfl := Text.utf8_of_ofUtf8? htext
    have hsize : label.utf8ByteSize = len.toNat := hraw
    refine ⟨⟨?_, ?_⟩, tail, ?_⟩
    · intro hempty
      rw [hempty] at hsize
      exact hzero (UInt8.toNat_inj.1 hsize.symm)
    · rw [hsize]
      exact UInt8.le_iff_toNat_le.1 (UInt8.not_lt.1 hshort)
    · rw [Item.bytes, hsize, UInt8.ofNat_toNat]
      rfl

/-- a run reads an item and goes on after a label -/
theorem run_eq (done : List String) (taken : Nat) (r : Bytes) :
    run done taken r =
      match item? r with
      | none => .error .badLabel
      | some .root => .ok ⟨done, taken + 1, none⟩
      | some (.pointer high low) => .ok ⟨done, taken + 2, some (target high low)⟩
      | some (.label label) =>
        run (label :: done) (taken + 1 + label.utf8ByteSize) (r.drop (1 + label.utf8ByteSize)) := by
  cases hitem : item? r with
  | some item =>
    obtain ⟨hmark, rest, rfl⟩ := item?_eq_some hitem
    cases item with
    | root =>
      have hroot : Stop.Marked .root := trivial
      exact run_stop done taken hroot rest
    | pointer high low =>
      have hpointer : Stop.Marked (.pointer high low) := hmark
      exact run_stop done taken hpointer rest
    | label label =>
      have hdrop : (Item.label label).bytes.length = 1 + label.utf8ByteSize := by
        rw [Item.bytes, List.length_cons, Text.utf8_length, Nat.add_comm]
      dsimp only
      rw [← hdrop, List.drop_left]
      exact run_label done taken hmark rest
  | none =>
    fun_cases item? r with
    | case3 => cases hitem
    | case1 => rw [run]
    | case2 len rest hmark =>
      rw [item?, if_pos hmark, Option.map_eq_none_iff, List.head?_eq_none_iff] at hitem
      rw [hitem, run, if_pos hmark]
    | case4 len rest hmark hzero hlong =>
      unfold run
      rw [if_neg hmark, if_neg hzero, if_pos hlong]
    | case5 len rest hmark hzero hshort htake =>
      unfold run
      rw [if_neg hmark, if_neg hzero, if_neg hshort, htake]
    | case6 len rest hmark hzero hshort raw tail htake =>
      rw [item?, if_neg hmark, if_neg hzero, if_neg hshort, htake] at hitem
      unfold run
      rw [if_neg hmark, if_neg hzero, if_neg hshort, htake]
      simp only [Option.map_eq_none_iff.1 hitem]

theorem run_shift (k : Nat) (labels : List String) (taken : Nat) (r : Bytes) :
    run labels (k + taken) r =
      (run labels taken r).map fun result => { result with taken := k + result.taken } := by
  fun_induction run labels taken r with
  | case8 labels taken len rest hmark hzero hshort raw tail htake label htext ih =>
    rw [← ih]
    conv => lhs; unfold run
    simp only [hmark, hzero, hshort, htake, htext, if_false, Nat.add_assoc]
  | case1 | case2 | case3 | case4 | case5 | case6 | case7 =>
    unfold run
    simp [*, Except.map, Nat.add_assoc]

/-! ## turns -/

/-- how far the reading of a name has come: its labels, last one first, the place where it goes on, the
place past its first pointer if it has had one, and its pointers so far -/
structure Cursor where
  labels : List String
  place : Nat
  past : Option Nat
  pointers : Nat

namespace Cursor

/-- at the beginning of a name -/
def start (place : Nat) : Cursor := ⟨[], place, none, 0⟩

/-- what is read if the name ends before the place `next` -/
def name (c : Cursor) (next : Nat) : Name × Nat := (c.labels.reverse ++ [""], c.past.getD next)

def withLabel (c : Cursor) (label : String) : Cursor :=
  { c with labels := label :: c.labels, place := c.place + 1 + label.utf8ByteSize }

def withPointer (c : Cursor) (high low : UInt8) : Cursor where
  labels := c.labels
  place := target high low
  past := some (c.past.getD (c.place + 2))
  pointers := c.pointers + 1

/-- the loop goes on after a label or a pointer, or it ends -/
def take (c : Cursor) : Item → Cursor ⊕ Except WireError (Name × Nat)
  | .root => .inr (.ok (c.name (c.place + 1)))
  | .label label => .inl (c.withLabel label)
  | .pointer high low =>
    if c.pointers < maxPointers then .inl (c.withPointer high low) else .inr (.error .badLabel)

/-- one turn: the next item is taken, if there is one -/
def turn (message : Bytes) (c : Cursor) : Cursor ⊕ Except WireError (Name × Nat) :=
  match item? (message.drop c.place) with
  | none => .inr (.error .badLabel)
  | some item => c.take item

/-- the loop ends with a result after so many turns -/
inductive Ends (message : Bytes) : Cursor → (turns : Nat) → Except WireError (Name × Nat) → Prop where
  | last {c : Cursor} {result : Except WireError (Name × Nat)} :
      c.turn message = .inr result → Ends message c 1 result
  | next {c c' : Cursor} {turns : Nat} {result : Except WireError (Name × Nat)} :
      c.turn message = .inl c' → Ends message c' turns result → Ends message c (turns + 1) result

section
variable {message : Bytes} {c c' : Cursor} {turns : Nat}

theorem take_pointer (c : Cursor) (high low : UInt8) :
    c.take (.pointer high low) =
      if c.pointers < maxPointers then .inl (c.withPointer high low)
      else .inr (.error .badLabel) := rfl

theorem turn_eq_take {item : Item} {rest : Bytes} (hmark : item.Marked)
    (hdrop : message.drop c.place = item.bytes ++ rest) : c.turn message = c.take item := by
  unfold turn
  rw [hdrop, item?_append item hmark]

theorem turn_cases (message : Bytes) (c : Cursor) :
    c.turn message = .inr (.error .badLabel) ∨
      ∃ item rest, item.Marked ∧ message.drop c.place = item.bytes ++ rest ∧
        c.turn message = c.take item := by
  cases hitem : item? (message.drop c.place) with
  | none =>
    refine .inl ?_
    unfold turn
    rw [hitem]
  | some item =>
    obtain ⟨hmark, rest, hdrop⟩ := item?_eq_some hitem
    exact .inr ⟨item, rest, hmark, hdrop, turn_eq_take hmark hdrop⟩

/-! ## the loop ends -/

/-- a bound for the turns that are left: a pass over the message for each pointer that is left, and
the bytes that are left of this one -/
def left (message : Bytes) (c : Cursor) : Nat :=
  (maxPointers - c.pointers) * (message.length + 1) + (message.length - c.place) + 1

theorem turn_left (hroom : c.pointers ≤ maxPointers) (h : c.turn message = .inl c') :
    c'.pointers ≤ maxPointers ∧ c'.left message < c.left message := by
  rcases turn_cases message c with hend | ⟨item, rest, -, hdrop, hturn⟩
  · rw [hend] at h
    cases h
  rw [hturn] at h
  cases item with
  | root => cases h
  | label label =>
    obtain rfl := Sum.inl.inj h
    have hin : c.place < message.length := by
      by_contra hout
      rw [List.drop_eq_nil_of_le (Nat.le_of_not_lt hout)] at hdrop
      cases hdrop
    refine ⟨hroom, ?_⟩
    simp only [left, withLabel]
    omega
  | pointer high low =>
    rw [take_pointer] at h
    by_cases hfew : c.pointers < maxPointers
    · rw [if_pos hfew] at h
      obtain rfl := Sum.inl.inj h
      have hspent : maxPointers - c.pointers = (maxPointers - (c.pointers + 1)) + 1 := by omega
      refine ⟨hfew, ?_⟩
      simp only [left, withPointer, hspent, Nat.add_mul, Nat.one_mul]
      omega
    · rw [if_neg hfew] at h
      cases h

theorem finishes (message : Bytes) (hroom : c.pointers ≤ maxPointers) :
    ∃ turns result, turns ≤ c.left message ∧ Ends message c turns result := by
  induction hleft : c.left message using Nat.strongRecOn generalizing c with
  | ind left ih =>
    subst hleft
    cases hturn : c.turn message with
    | inr result => exact ⟨1, result, Nat.le_add_left 1 _, .last hturn⟩
    | inl c' =>
      obtain ⟨hroom', hless⟩ := turn_left hroom hturn
      obtain ⟨turns, result, hle, hends⟩ := ih _ hless hroom' rfl
      exact ⟨turns + 1, result, by omega, .next hturn hends⟩

/-! ## the loop is the reading -/

/-- what reading the rest of the name gives -/
def reading (message : Bytes) (c : Cursor) : Except WireError (Name × Nat) :=
  match run c.labels c.place (message.drop c.place) with
  | .error e => .error e
  | .ok ⟨labels, past, none⟩ => .ok (labels.reverse ++ [""], c.past.getD past)
  | .ok ⟨labels, past, some place⟩ =>
    match follow message labels place (maxPointers - c.pointers) with
    | .error e => .error e
    | .ok labels => .ok (labels.reverse ++ [""], c.past.getD past)

theorem reading_start (message : Bytes) (place : Nat) :
    (start place).reading message = decode.readAt message place := by
  have hrun : run [] place (message.drop place) =
      (run [] 0 (message.drop place)).map fun result => { result with taken := place + result.taken } :=
    run_shift place [] 0 _
  unfold reading Decoder.readAt decode start
  dsimp only
  rw [hrun]
  cases run [] 0 (message.drop place) with
  | error e => rfl
  | ok result =>
    obtain ⟨labels, taken, next⟩ := result
    cases next with
    | none => simp [Except.map]
    | some next =>
      simp only [Except.map, Nat.sub_zero]
      cases follow message labels next maxPointers <;> simp

/-- a turn leaves the same to be read -/
theorem reading_turn (hroom : c.pointers ≤ maxPointers) :
    c.reading message =
      match c.turn message with
      | .inl c' => c'.reading message
      | .inr result => result := by
  unfold turn
  conv => lhs; unfold reading
  rw [run_eq]
  cases hitem : item? (message.drop c.place) with
  | none => rfl
  | some item =>
    cases item with
    | root => rfl
    | label label =>
      dsimp only [take]
      unfold reading withLabel
      simp only [List.drop_drop, Nat.add_assoc]
    | pointer high low =>
      dsimp only
      rw [take_pointer]
      by_cases hfew : c.pointers < maxPointers
      · have hspent : maxPointers - c.pointers = (maxPointers - (c.pointers + 1)) + 1 := by omega
        have hrun := run_shift (target high low) c.labels 0 (message.drop (target high low))
        rw [Nat.add_zero] at hrun
        rw [if_pos hfew, hspent, follow]
        unfold reading withPointer
        dsimp only
        rw [hrun]
        cases run c.labels 0 (message.drop (target high low)) with
        | error e => rfl
        | ok result =>
          obtain ⟨labels, taken, next⟩ := result
          cases next <;> rfl
      · have hnone : maxPointers - c.pointers = 0 := by omega
        rw [if_neg hfew, hnone]
        rfl

theorem Ends.reading_eq {result : Except WireError (Name × Nat)} (h : Ends message c turns result)
    (hroom : c.pointers ≤ maxPointers) : c.reading message = result := by
  induction h with
  | last hturn => rw [reading_turn hroom, hturn]
  | next hturn _ ih =>
    rw [reading_turn hroom, hturn]
    exact ih (turn_left hroom hturn).1

/-! ## the loop follows walks -/

theorem Ends.error {e : WireError} (h : Ends message c turns (.error e)) : e = .badLabel := by
  generalize hresult : (Except.error e : Except WireError (Name × Nat)) = result at h
  induction h with
  | next _ _ ih => exact ih hresult
  | @last c _ hturn =>
    subst hresult
    rcases turn_cases message c with hend | ⟨item, rest, -, -, htake⟩
    · cases hend.symm.trans hturn
      rfl
    rw [htake] at hturn
    cases item with
    | root => cases hturn
    | label label => cases hturn
    | pointer high low =>
      rw [take_pointer] at hturn
      split at hturn
      · cases hturn
      · cases hturn
        rfl

/-- the loop takes every walk that leaves it enough pointers -/
theorem ends_of_walk {place pointers past : Nat} {labels : List String}
    (h : Walk message place labels pointers past) (hplace : c.place = place)
    (hroom : c.pointers + pointers ≤ maxPointers) :
    ∃ turns, Ends message c turns (.ok (c.labels.reverse ++ (labels ++ [""]), c.past.getD past)) := by
  induction h generalizing c with
  | @root place rest hdrop =>
    subst hplace
    have hroot : Item.root.Marked := trivial
    exact ⟨1, .last (turn_eq_take hroot hdrop)⟩
  | @label place pointers past label labels rest hlabel hdrop _ ih =>
    subst hplace
    have hmark : (Item.label label).Marked := hlabel
    have hturn : c.turn message = .inl (c.withLabel label) := turn_eq_take hmark hdrop
    obtain ⟨turns, hends⟩ := ih (c := c.withLabel label) rfl hroom
    have hlabels : (c.withLabel label).labels.reverse ++ (labels ++ [""]) =
        c.labels.reverse ++ (label :: labels ++ [""]) := by
      simp [withLabel]
    rw [hlabels] at hends
    exact ⟨turns + 1, .next hturn hends⟩
  | @pointer place pointers past high low labels rest hhigh hdrop _ ih =>
    subst hplace
    have hmark : (Item.pointer high low).Marked := hhigh
    have hturn : c.turn message = .inl (c.withPointer high low) := by
      rw [turn_eq_take hmark hdrop]
      exact if_pos (by omega)
    have hroom' : (c.withPointer high low).pointers + pointers ≤ maxPointers := by
      simp only [withPointer]
      omega
    obtain ⟨turns, hends⟩ := ih rfl hroom'
    exact ⟨turns + 1, .next hturn hends⟩

/-- and no others -/
theorem Ends.walk {result : Name × Nat} (h : Ends message c turns (.ok result))
    (hroom : c.pointers ≤ maxPointers) :
    ∃ labels pointers past, Walk message c.place labels pointers past ∧
      c.pointers + pointers ≤ maxPointers ∧
      result = (c.labels.reverse ++ (labels ++ [""]), c.past.getD past) := by
  generalize hok : (Except.ok result : Except WireError (Name × Nat)) = outcome at h
  induction h with
  | @last c _ hturn =>
    subst hok
    rcases turn_cases message c with hend | ⟨item, rest, -, hdrop, htake⟩
    · cases hend.symm.trans hturn
    rw [htake] at hturn
    cases item with
    | root =>
      obtain rfl := Except.ok.inj (Sum.inr.inj hturn)
      exact ⟨[], 0, _, .root hdrop, hroom, rfl⟩
    | label label => cases hturn
    | pointer high low =>
      rw [take_pointer] at hturn
      split at hturn <;> cases hturn
  | @next c c' _ _ hturn _ ih =>
    obtain ⟨labels, pointers, past, hwalk, hfew, rfl⟩ := ih (turn_left hroom hturn).1 hok
    rcases turn_cases message c with hend | ⟨item, rest, hmark, hdrop, htake⟩
    · cases hend.symm.trans hturn
    rw [htake] at hturn
    cases item with
    | root => cases hturn
    | label label =>
      obtain rfl := Sum.inl.inj hturn
      refine ⟨label :: labels, pointers, past, .label hmark hdrop hwalk, hfew, ?_⟩
      simp [withLabel]
    | pointer high low =>
      rw [take_pointer] at hturn
      split at hturn
      · obtain rfl := Sum.inl.inj hturn
        refine ⟨labels, pointers + 1, c.place + 2, .pointer hmark hdrop hwalk, ?_, rfl⟩
        simp only [withPointer] at hfew
        omega
      · cases hturn

end

end Cursor

/-- **reading a name at any place ends, in no more turns than it takes to pass over the message once
for each pointer that may be followed and once before; what is read are exactly the walks with few
enough pointers, and where there is none the name is refused** -/
theorem readAt_walk (message : Bytes) (place : Nat) :
    (∃ turns, turns ≤ (maxPointers + 1) * (message.length + 1) ∧
      Cursor.Ends message (.start place) turns (decode.readAt message place)) ∧
    (∀ name past, decode.readAt message place = .ok (name, past) ↔
      ∃ labels pointers, Walk message place labels pointers past ∧ pointers ≤ maxPointers ∧
        name = labels ++ [""]) ∧
    ((∀ labels pointers past, Walk message place labels pointers past → maxPointers < pointers) →
      decode.readAt message place = .error .badLabel) := by
  have hzero : (Cursor.start place).pointers = 0 := rfl
  have hstart : (Cursor.start place).pointers ≤ maxPointers := Nat.zero_le _
  obtain ⟨turns, result, hturns, hends⟩ := Cursor.finishes message hstart
  have hresult : decode.readAt message place = result := by
    rw [← Cursor.reading_start]
    exact hends.reading_eq hstart
  have hread : ∀ name past, decode.readAt message place = .ok (name, past) ↔
      ∃ labels pointers, Walk message place labels pointers past ∧ pointers ≤ maxPointers ∧
        name = labels ++ [""] := by
    intro name past
    constructor
    · intro h
      rw [hresult.symm.trans h] at hends
      obtain ⟨labels, pointers, past', hwalk, hfew, heq⟩ := hends.walk hstart
      obtain ⟨rfl, rfl⟩ := Prod.mk.inj heq
      rw [hzero, Nat.zero_add] at hfew
      exact ⟨labels, pointers, hwalk, hfew, rfl⟩
    · intro h
      obtain ⟨labels, pointers, hwalk, hfew, rfl⟩ := h
      obtain ⟨turns', hends'⟩ := Cursor.ends_of_walk (c := .start place) hwalk rfl
        (hzero ▸ (Nat.zero_add pointers).symm ▸ hfew)
      rw [← Cursor.reading_start]
      exact hends'.reading_eq hstart
  refine ⟨⟨turns, ?_, hresult ▸ hends⟩, hread, ?_⟩
  · have hleft : (Cursor.start place).left message ≤ (maxPointers + 1) * (message.length + 1) := by
      simp only [Cursor.left, hzero, Nat.sub_zero, Nat.add_mul, Nat.one_mul]
      omega
    exact Nat.le_trans hturns hleft
  · intro hnone
    cases hdecode : decode.readAt message place with
    | error e =>
      rw [hresult.symm.trans hdecode] at hends
      rw [hends.error]
    | ok item =>
      obtain ⟨name, past⟩ := item
      obtain ⟨labels, pointers, hwalk, hfew, -⟩ := (hread name past).1 hdecode
      exact absurd (hnone labels pointers past hwalk) (Nat.not_lt.2 hfew)

/-! ## an example -/

/-- no walk leads on from a pointer to itself -/
theorem not_walk_of_target {message rest : Bytes} {place pointers past : Nat} {high low : UInt8}
    {labels : List String} (hmark : high &&& 0xC0 = 0xC0)
    (hdrop : message.drop place = high :: low :: rest) (hself : target high low = place) :
    ¬ Walk message place labels pointers past := by
  have hpointer : item? (message.drop place) = some (.pointer high low) := by
    rw [hdrop]
    exact item?_append (.pointer high low) hmark rest
  intro h
  induction h with
  | root hroot =>
    rw [hroot, show item? (0 :: _) = some .root from rfl] at hpointer
    cases hpointer
  | @label _ _ _ label _ rest' hlabel htext _ _ =>
    rw [htext] at hpointer
    cases (item?_append (.label label) hlabel rest').symm.trans hpointer
  | @pointer _ _ _ high' low' _ rest' hmark' hdrop' _ ih =>
    obtain ⟨rfl, hbytes⟩ := List.cons.inj (hdrop'.symm.trans hdrop)
    obtain ⟨rfl, -⟩ := List.cons.inj hbytes
    rw [hself] at ih
    exact ih hdrop rfl hpointer

/-- a label, a pointer to it, and a pointer to itself -/
def selfPointer : Bytes := [1, 107, 0, 192, 0, 192, 5]

/-- the first pointer is followed, and the second one is refused -/
theorem readAt_walk_selfPointer :
    decode.readAt selfPointer 3 = .ok (["k", ""], 5) ∧
      decode.readAt selfPointer 5 = .error .badLabel := by
  have hlabel : selfPointer.drop 0 =
      UInt8.ofNat "k".utf8ByteSize :: (Text.utf8 "k" ++ selfPointer.drop 2) := by decide
  have hwalk : Walk selfPointer 3 ["k"] 1 5 :=
    .pointer (by decide) rfl (.label ⟨by decide, by decide⟩ hlabel (.root rfl))
  obtain ⟨-, hread, -⟩ := readAt_walk selfPointer 3
  obtain ⟨-, -, hrefused⟩ := readAt_walk selfPointer 5
  exact ⟨(hread _ _).2 ⟨_, _, hwalk, by decide, rfl⟩, hrefused fun labels pointers past h =>
    absurd h (not_walk_of_target (by decide) rfl rfl)⟩

end TransactionKey.Name
