import TransactionKey.Proofs.Decoder.Placed

/-!
# Reading by offsets

A reader that keeps offsets into a message slices it and subtracts offsets, and takes it for granted
that these stay in range.  In a `Ranged` computation they are partial: where one of them goes out of
range, there is no answer at all, not even an error.  `Yields c x` says that this does not happen and
that the answer is `x`.

* `slice?`, `overwrite?`, `sub?`   the operations that have a range;
* `number?`, `need`                reading that is refused where there are too few bytes;
* `Yields.bind`, `Yields.then`     one computation after another stays in range;
* `Performs c d`                   by offsets, `c` reads what `d` reads, and stays in range.
-/

namespace TransactionKey

variable {ε ε' α β : Type}

/-! ## operations with a range -/

namespace Bytes

/-- the bytes from one offset to another -/
def slice? (bs : Bytes) (start stop : Nat) : Option Bytes :=
  if start ≤ stop ∧ stop ≤ bs.length then some (bs.extract start stop) else none

/-- the bytes with others written over those that stand from `start` on -/
def overwrite? (bs : Bytes) (start : Nat) (new : Bytes) : Option Bytes :=
  if start + new.length ≤ bs.length then
    some (bs.take start ++ new ++ bs.drop (start + new.length))
  else none

/-- the number that `width` bytes spell -/
def number? (bs : Bytes) (offset width : Nat) : Option Nat :=
  (bs.slice? offset (offset + width)).map ofBigEndian

variable {bs : Bytes} {start stop offset width : Nat}

theorem slice?_of_le (hle : start ≤ stop) (hroom : stop ≤ bs.length) :
    bs.slice? start stop = some (bs.extract start stop) := if_pos ⟨hle, hroom⟩

theorem slice?_beyond (h : bs.length < stop) : bs.slice? start stop = none :=
  if_neg fun hrange => Nat.not_le.2 h hrange.2

/-- the bytes of some width at an offset are the head of what is left there -/
theorem take?_drop (hroom : offset + width ≤ bs.length) :
    take? width (bs.drop offset) =
      some (bs.extract offset (offset + width), bs.drop (offset + width)) := by
  have hlength : ((bs.drop offset).take width).length = width := by
    rw [List.length_take, List.length_drop]
    omega
  rw [take?, if_pos hlength, List.drop_drop, List.extract_eq_take_drop, Nat.add_sub_cancel_left]

theorem take?_drop_eq_none (hshort : bs.length < offset + width) (hoffset : offset ≤ bs.length) :
    take? width (bs.drop offset) = none := by
  rw [take?_eq_none, List.length_drop]
  omega

theorem slice?_eq_take? (hoffset : offset ≤ bs.length) :
    bs.slice? offset (offset + width) = (take? width (bs.drop offset)).map Prod.fst := by
  by_cases hroom : offset + width ≤ bs.length
  · rw [slice?_of_le (Nat.le_add_right ..) hroom, take?_drop hroom]
    rfl
  · have hshort := Nat.not_le.1 hroom
    rw [slice?_beyond hshort, take?_drop_eq_none hshort hoffset]
    rfl

theorem number?_beyond (h : bs.length < offset + width) : bs.number? offset width = none := by
  rw [number?, slice?_beyond h]
  rfl

/-- the bytes of some width at an offset, and the numbers that are read from there on -/
theorem exists_head (hroom : offset + width ≤ bs.length) :
    ∃ head : Bytes, head.length = width ∧ bs.drop offset = head ++ bs.drop (offset + width) ∧
      ∀ k w, k ≤ width → bs.number? (offset + k) w =
        (take? w ((head ++ bs.drop (offset + width)).drop k)).map fun part => ofBigEndian part.1 := by
  have hsplit := List.take_append_drop width (bs.drop offset)
  rw [List.drop_drop] at hsplit
  refine ⟨(bs.drop offset).take width, ?_, hsplit.symm, ?_⟩
  · rw [List.length_take, List.length_drop]
    omega
  · intro k w hk
    rw [hsplit, List.drop_drop, number?, slice?_eq_take? (by omega), Option.map_map]
    rfl

theorem number?_append (front part back : Bytes) :
    number? (front ++ (part ++ back)) front.length part.length = some (ofBigEndian part) := by
  have hoffset : front.length ≤ (front ++ (part ++ back)).length := by
    rw [List.length_append]
    exact Nat.le_add_right ..
  rw [number?, slice?_eq_take? hoffset, List.drop_left, take?_append]
  rfl

/-- as many bytes are written over others as there are -/
theorem overwrite?_append {old new : Bytes} (h : new.length = old.length) (front back : Bytes) :
    overwrite? (front ++ (old ++ back)) front.length new = some (front ++ (new ++ back)) := by
  have hroom : front.length + new.length ≤ (front ++ (old ++ back)).length := by
    rw [List.length_append, List.length_append]
    omega
  rw [overwrite?, if_pos hroom, List.take_left, ← List.drop_drop, List.drop_left,
    List.drop_left' h.symm, List.append_assoc]

end Bytes

/-- the difference of two numbers, the second of which is not the greater -/
def sub? (a b : Nat) : Option Nat := if b ≤ a then some (a - b) else none

theorem sub?_of_le {a b : Nat} (h : b ≤ a) : sub? a b = some (a - b) := if_pos h

/-- what must be there, or else the answer is an error -/
def need (e : ε) : Option α → Except ε α
  | some a => .ok a
  | none => .error e

/-! ## computations with operations that have a range -/

/-- `none` is an operation out of its range; an error is an answer like others -/
abbrev Ranged (ε : Type) := ExceptT ε Option

namespace Ranged

/-- no operation goes out of its range, and the answer is `x` -/
def Yields (c : Ranged ε α) (x : Except ε α) : Prop := c.run = some x

/-- a computation that only answers -/
theorem Yields.answer (x : Except ε α) : Yields (liftM x : Ranged ε α) x := rfl

theorem Yields.bind {c : Ranged ε α} {x : Except ε α} {f : α → Ranged ε β} {g : α → Except ε β}
    (hc : c.Yields x) (hf : ∀ a, x = .ok a → (f a).Yields (g a)) : (c >>= f).Yields (x >>= g) := by
  show (c.run >>= ExceptT.bindCont f) = some (x >>= g)
  rw [hc]
  cases x with
  | error e => rfl
  | ok a => exact hf a rfl

theorem Yields.then {c : Ranged ε α} {a : α} {f : α → Ranged ε β} {x : Except ε β}
    (hc : c.Yields (.ok a)) (hf : (f a).Yields x) : (c >>= f).Yields x := by
  show (c.run >>= ExceptT.bindCont f) = some x
  rw [hc]
  exact hf

/-- an operation in its range -/
theorem Yields.operation {o : Option α} {a : α} (h : o = some a) :
    Yields (liftM o : Ranged ε α) (.ok a) := by
  subst h
  rfl

/-- after what must be there -/
theorem Yields.needed {e : ε} {o : Option α} {a : α} {f : α → Ranged ε β} {x : Except ε β}
    (h : o = some a) (hf : (f a).Yields x) : ((liftM (need e o) : Ranged ε α) >>= f).Yields x := by
  subst h
  exact hf

theorem Yields.missing {e : ε} {o : Option α} {f : α → Ranged ε β} (h : o = none) :
    ((liftM (need e o) : Ranged ε α) >>= f).Yields (.error e) := by
  subst h
  rfl

theorem Yields.guard {c : Prop} [Decidable c] {e : ε} {f : PUnit → Ranged ε α}
    {g : PUnit → Except ε α} {y : Ranged ε α} {x : Except ε α} (h : ¬ c → y.Yields x) :
    (if c then MonadExcept.throw e >>= f else y : Ranged ε α).Yields
      (if c then MonadExcept.throw e >>= g else x) := by
  by_cases hc : c
  · rw [if_pos hc, if_pos hc]
    rfl
  · rw [if_neg hc, if_neg hc]
    exact h hc

/-- what is needed may be missing, if what follows fails with the same error -/
theorem Yields.needed_error {e : ε} {o : Option α} {f : α → Ranged ε β}
    (h : ∀ a, o = some a → (f a).Yields (.error e)) :
    ((liftM (need e o) : Ranged ε α) >>= f).Yields (.error e) := by
  cases o with
  | none => exact .missing rfl
  | some a => exact .needed rfl (h a rfl)

/-- the answer without the reason for a failure -/
def attempt (c : Ranged ε α) : Ranged ε' (Option α) := ExceptT.lift (c.run.map Except.toOption)

theorem Yields.attempt {c : Ranged ε α} {x : Except ε α} (h : c.Yields x) :
    Yields (c.attempt : Ranged ε' (Option α)) (.ok x.toOption) := by
  show (Except.ok <$> c.run.map _ : Option (Except ε' (Option α))) = _
  rw [h]
  rfl

/-- the errors are worded anew -/
def onError (f : ε → ε') (c : Ranged ε α) : Ranged ε' α := ExceptT.mk (c.run.map (Except.mapError f))

theorem Yields.onError {c : Ranged ε α} {x : Except ε α} (h : c.Yields x) (f : ε → ε') :
    (c.onError f).Yields (x.mapError f) := by
  show c.run.map _ = _
  rw [h]
  rfl

end Ranged

namespace Decoder

/-! ## decoders that keep offsets -/

/-- reads an item at an offset of a message, and gives the offset just past it -/
abbrev ByOffset (α : Type) := (message : Bytes) → (offset : Nat) → Ranged WireError (α × Nat)

/-- reads `count` items one after the other -/
def ByOffset.many (c : ByOffset α) : (count : Nat) → ByOffset (List α)
  | 0 => fun _ offset => return ([], offset)
  | count + 1 => fun m offset => do
    let (item, next) ← c m offset
    let (items, past) ← many c count m next
    return (item :: items, past)

/-- every operation stays in range, wherever the reading begins, and what is read is what `d` reads -/
def Performs (c : ByOffset α) (d : Decoder α) : Prop :=
  ∀ m offset, (c m offset).Yields (d.readAt m offset)

theorem Performs.many {c : ByOffset α} {d : Decoder α} (h : Performs c d) (count : Nat) :
    Performs (c.many count) (Decoder.many d count) := by
  induction count with
  | zero => exact fun m offset => rfl
  | succ count ih =>
    intro m offset
    rw [many_succ, readAt_bind_eq]
    refine (h m offset).bind fun item _ => ?_
    rw [readAt_bind_eq]
    exact (ih m item.2).bind fun items _ => rfl

end Decoder

end TransactionKey
