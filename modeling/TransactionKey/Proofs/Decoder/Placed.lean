import TransactionKey.Proofs.Decoder

/-!
# Items that stand one after the other

`Placed d message offset items past` says where the items of a list stand in a message: the first at
`offset`, each other one just past the one before it, and the last ends at `past`.

* `many_readAt`         a run of items reads exactly the lists of its length that are placed;
* `many_readAt_error`   a run fails just if an item fails after fewer than its length were read;
* `Placed.unique`       no two lists of one length are placed at the same offset;
* `Placed.append`, `Placed.split`   a list is placed in two parts.
-/

namespace TransactionKey.Decoder

variable {α β : Type} {d : Decoder α} {e : α → Decoder β} {m : Bytes} {offset next past : Nat}

/-! ## reading at an offset -/

theorem readAt_zero : d.readAt m 0 = d m m := by
  unfold readAt
  rw [List.drop_zero]
  cases d m m with
  | error fault => rfl
  | ok item =>
    obtain ⟨a, n⟩ := item
    show Except.ok (a, 0 + n) = .ok (a, n)
    rw [Nat.zero_add]

theorem Bounded.readAt (hd : d.Bounded) {a : α} (h : d.readAt m offset = .ok (a, past))
    (hoffset : offset ≤ m.length) : past ≤ m.length := by
  obtain ⟨n, hread, rfl⟩ := readAt_eq_ok.1 h
  have hle := hd hread
  rw [List.length_drop] at hle
  omega

/-- what is read at an offset ends after it, and within the message -/
theorem Advances.readAt (hd : d.Advances) {a : α} (h : d.readAt m offset = .ok (a, past)) :
    offset < past ∧ past ≤ m.length := by
  obtain ⟨n, hread, rfl⟩ := readAt_eq_ok.1 h
  obtain ⟨hpos, hle⟩ := hd hread
  rw [List.length_drop] at hle
  omega

/-- accepted bytes are read wherever they stand -/
theorem Accepts.readAt {bytes : Bytes} {a : α} (h : d.Accepts bytes a) (front back : Bytes) :
    d.readAt (front ++ bytes ++ back) front.length = .ok (a, front.length + bytes.length) := by
  rw [List.append_assoc]
  refine readAt_eq_ok.2 ⟨bytes.length, ?_, rfl⟩
  rw [List.drop_left]
  exact h _ back

theorem readAt_pure {a b : α} :
    (pure a).readAt m offset = .ok (b, past) ↔ b = a ∧ past = offset := by
  show Except.ok (a, offset + 0) = .ok (b, past) ↔ _
  rw [Nat.add_zero, Except.ok.injEq, Prod.mk.injEq, eq_comm, eq_comm (a := offset)]

theorem readAt_bind_eq : (d.bind e).readAt m offset =
    d.readAt m offset >>= fun item => (e item.1).readAt m item.2 := by
  unfold readAt bind
  cases d m (m.drop offset) with
  | error fault => rfl
  | ok item =>
    obtain ⟨a, n⟩ := item
    show _ = (e a).readAt m (offset + n)
    unfold readAt
    dsimp only
    rw [List.drop_drop]
    cases e a m (m.drop (offset + n)) with
    | error fault => rfl
    | ok part => exact congrArg (fun past => Except.ok (part.1, past)) (Nat.add_assoc ..).symm

theorem readAt_bind {b : β} :
    (d.bind e).readAt m offset = .ok (b, past) ↔
      ∃ a next, d.readAt m offset = .ok (a, next) ∧ (e a).readAt m next = .ok (b, past) := by
  simp only [readAt_eq_ok, bind_eq_ok]
  constructor
  · intro h
    obtain ⟨n, ⟨a, k, l, hd, he, rfl⟩, rfl⟩ := h
    rw [List.drop_drop] at he
    exact ⟨a, offset + k, ⟨k, hd, rfl⟩, l, he, (Nat.add_assoc ..).symm⟩
  · intro h
    obtain ⟨a, next, ⟨k, hd, rfl⟩, l, he, rfl⟩ := h
    rw [← List.drop_drop] at he
    exact ⟨k + l, ⟨a, k, l, hd, he, rfl⟩, Nat.add_assoc ..⟩

theorem readAt_bind_error {fault : WireError} :
    (d.bind e).readAt m offset = .error fault ↔
      d.readAt m offset = .error fault ∨
        ∃ a next, d.readAt m offset = .ok (a, next) ∧ (e a).readAt m next = .error fault := by
  unfold readAt bind
  cases d m (m.drop offset) with
  | error first => simp
  | ok item =>
    obtain ⟨a, n⟩ := item
    simp only [List.drop_drop, reduceCtorEq, false_or, Except.ok.injEq, Prod.mk.injEq]
    constructor
    · intro h
      refine ⟨a, offset + n, ⟨rfl, rfl⟩, ?_⟩
      cases he : e a m (m.drop (offset + n)) with
      | error second => simpa [he] using h
      | ok part => simp [he] at h
    · intro h
      obtain ⟨_, _, ⟨rfl, rfl⟩, h⟩ := h
      cases he : e a m (m.drop (offset + n)) with
      | error second => simpa [he] using h
      | ok part => simp [he] at h

/-! ## places -/

/-- the items stand one after the other from an offset to an offset -/
inductive Placed (d : Decoder α) (m : Bytes) : Nat → List α → Nat → Prop where
  | nil (offset : Nat) : Placed d m offset [] offset
  | cons {offset next past : Nat} {item : α} {items : List α} :
      d.readAt m offset = .ok (item, next) → Placed d m next items past →
        Placed d m offset (item :: items) past

theorem Placed.append {xs ys : List α} (h : Placed d m offset xs next)
    (h' : Placed d m next ys past) : Placed d m offset (xs ++ ys) past := by
  induction h with
  | nil => exact h'
  | cons hread _ ih => exact .cons hread (ih h')

theorem Placed.mem {items : List α} {item : α} (h : Placed d m offset items past)
    (hmem : item ∈ items) : ∃ start stop, d.readAt m start = .ok (item, stop) := by
  induction h with
  | nil => cases hmem
  | @cons offset next past first items hread _ ih =>
    rcases List.mem_cons.1 hmem with rfl | hmem
    · exact ⟨offset, next, hread⟩
    · exact ih hmem

theorem Placed.split {xs ys : List α} (h : Placed d m offset (xs ++ ys) past) :
    ∃ next, Placed d m offset xs next ∧ Placed d m next ys past := by
  induction xs generalizing offset with
  | nil => exact ⟨offset, .nil offset, h⟩
  | cons x xs ih =>
    cases h with
    | cons hread hrest =>
      obtain ⟨next, hxs, hys⟩ := ih hrest
      exact ⟨next, .cons hread hxs, hys⟩

theorem Placed.le {items : List α} (h : Placed d m offset items past) : offset ≤ past := by
  induction h with
  | nil => exact Nat.le_refl _
  | cons hread _ ih =>
    obtain ⟨n, -, rfl⟩ := readAt_eq_ok.1 hread
    exact Nat.le_trans (Nat.le_add_right _ n) ih

/-! ## runs -/

/-- a run reads the items that are placed one after the other -/
theorem many_readAt {count : Nat} {items : List α} :
    (many d count).readAt m offset = .ok (items, past) ↔
      items.length = count ∧ Placed d m offset items past := by
  induction count generalizing offset past items with
  | zero =>
    have hnone : many d 0 = pure [] := rfl
    rw [hnone, readAt_pure, List.length_eq_zero_iff]
    constructor
    · intro h
      obtain ⟨rfl, rfl⟩ := h
      exact ⟨rfl, .nil past⟩
    · intro h
      obtain ⟨rfl, hplaced⟩ := h
      cases hplaced
      exact ⟨rfl, rfl⟩
  | succ count ih =>
    simp only [many_succ, readAt_bind, readAt_pure, ih]
    constructor
    · intro h
      obtain ⟨a, next, hread, others, _, ⟨rfl, hplaced⟩, rfl, rfl⟩ := h
      exact ⟨rfl, .cons hread hplaced⟩
    · intro h
      obtain ⟨hlength, hplaced⟩ := h
      cases hplaced with
      | nil => cases hlength
      | cons hread hrest =>
        exact ⟨_, _, hread, _, past, ⟨Nat.succ.inj hlength, hrest⟩, rfl, rfl⟩

/-- two lists of one length that stand at the same place are the same -/
theorem Placed.unique {past' : Nat} {xs ys : List α} (h : Placed d m offset xs past)
    (h' : Placed d m offset ys past') (hlength : ys.length = xs.length) :
    ys = xs ∧ past' = past := by
  have hrun : (many d xs.length).readAt m offset = .ok (xs, past) := many_readAt.2 ⟨rfl, h⟩
  rw [many_readAt.2 ⟨hlength, h'⟩] at hrun
  exact Prod.mk.inj (Except.ok.inj hrun)

/-- a run fails where the first of its items does that fails -/
theorem many_readAt_error {count : Nat} {fault : WireError} :
    (many d count).readAt m offset = .error fault ↔
      ∃ items next, items.length < count ∧ Placed d m offset items next ∧
        d.readAt m next = .error fault := by
  induction count generalizing offset with
  | zero =>
    have hnone : many d 0 = pure [] := rfl
    rw [hnone]
    refine iff_of_false nofun fun h => ?_
    obtain ⟨items, _, hlength, -⟩ := h
    exact Nat.not_lt_zero _ hlength
  | succ count ih =>
    have hpure (a : α) (others : List α) (o : Nat) :
        (pure (a :: others)).readAt m o ≠ .error fault := nofun
    simp only [many_succ, readAt_bind_error, hpure, and_false, exists_false, or_false, ih]
    constructor
    · intro h
      rcases h with hfirst | ⟨a, next, hread, items, last, hlength, hplaced, hfault⟩
      · exact ⟨[], offset, Nat.succ_pos _, .nil offset, hfirst⟩
      · exact ⟨a :: items, last, Nat.succ_lt_succ hlength, .cons hread hplaced, hfault⟩
    · intro h
      obtain ⟨items, last, hlength, hplaced, hfault⟩ := h
      cases hplaced with
      | nil => exact .inl hfault
      | cons hread hrest =>
        exact .inr ⟨_, _, hread, _, last, Nat.lt_of_succ_lt_succ hlength, hrest, hfault⟩

/-- an item that fails after `items` fails a run of that length or more, and if the run ends before it,
what is read after the run -/
theorem Placed.many_bind_error {count : Nat} {f : List α → Decoder β} {items : List α}
    {fault : WireError} (h : Placed d m offset items next) (hfault : d.readAt m next = .error fault)
    (hafter : ∀ front back start, items.length = count + back.length →
      Placed d m start back next → (f front).readAt m start = .error fault) :
    ((many d count).bind f).readAt m offset = .error fault := by
  rw [readAt_bind_error]
  by_cases hwithin : items.length < count
  · exact .inl (many_readAt_error.2 ⟨items, next, hwithin, h, hfault⟩)
  · have hcount : count ≤ items.length := Nat.not_lt.1 hwithin
    rw [← List.take_append_drop count items] at h
    obtain ⟨start, hfront, hback⟩ := h.split
    have hrun : (many d count).readAt m offset = .ok (items.take count, start) :=
      many_readAt.2 ⟨List.length_take_of_le hcount, hfront⟩
    have hlength : items.length = count + (items.drop count).length := by
      rw [List.length_drop]
      omega
    exact .inr ⟨_, start, hrun, hafter _ _ start hlength hback⟩

end TransactionKey.Decoder
