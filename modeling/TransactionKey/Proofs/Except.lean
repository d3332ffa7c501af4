import TransactionKey.Bytes

/-!
# Steps that may fail

What the success of a sequence of steps, or of one step for each item of a list, amounts to.
-/

namespace TransactionKey

variable {ε α β : Type}

theorem bind_eq_ok {x : Except ε α} {f : α → Except ε β} {b : β} :
    x >>= f = .ok b ↔ ∃ a, x = .ok a ∧ f a = .ok b := by
  cases x with
  | error e => simp [bind, Except.bind]
  | ok a => simp [bind, Except.bind]

theorem bind_eq_error {x : Except ε α} {f : α → Except ε β} {e : ε} :
    x >>= f = .error e ↔ x = .error e ∨ ∃ a, x = .ok a ∧ f a = .error e := by
  cases x with
  | error e' => simp [bind, Except.bind]
  | ok a => simp [bind, Except.bind]

/-- a last step that cannot fail adds no errors -/
theorem bind_pure_eq_error {x : Except ε α} {f : α → β} {e : ε} :
    (x >>= fun a => pure (f a)) = .error e ↔ x = .error e := by
  cases x with
  | error e' => simp [bind, Except.bind]
  | ok a => simp [bind, Except.bind, pure, Except.pure]

theorem bind_congr_ok {x : Except ε α} {f g : α → Except ε β} (h : ∀ a, x = .ok a → f a = g a) :
    x >>= f = x >>= g := by
  cases x with
  | error e => rfl
  | ok a => exact h a rfl

theorem pure_eq_ok {a b : α} : (pure a : Except ε α) = .ok b ↔ b = a := by
  simp [pure, Except.pure, eq_comm]

theorem guard_eq_ok {c : Prop} [Decidable c] {e : ε} {f : PUnit → Except ε α} {x : Except ε α}
    {a : α} : (if c then throw e >>= f else x) = .ok a ↔ ¬ c ∧ x = .ok a := by
  split
  · rename_i hc
    exact iff_of_false nofun fun h => h.1 hc
  · rename_i hc
    exact (and_iff_right hc).symm

theorem guard_eq_error {c : Prop} [Decidable c] {e e' : ε} {f : PUnit → Except ε α}
    {x : Except ε α} :
    (if c then throw e >>= f else x) = .error e' ↔ c ∧ e' = e ∨ ¬ c ∧ x = .error e' := by
  have hthrow : (throw e : Except ε PUnit) >>= f = .error e' ↔ e' = e :=
    ⟨fun h => (Except.error.inj h).symm, fun h => h ▸ rfl⟩
  split
  · rename_i hc
    simp [hthrow, hc]
  · rename_i hc
    simp [hc]

/-- the error of a step that is taken for every item of a list is that of some item -/
theorem exists_of_mapM_error {f : α → Except ε β} {xs : List α} {e : ε}
    (h : xs.mapM f = .error e) : ∃ x ∈ xs, f x = .error e := by
  induction xs with
  | nil => cases h
  | cons x xs ih =>
    rw [List.mapM_cons, bind_eq_error] at h
    rcases h with hx | ⟨y, -, hrest⟩
    · exact ⟨x, List.mem_cons_self .., hx⟩
    · obtain ⟨x', hmem, hx'⟩ := ih (bind_pure_eq_error.1 hrest)
      exact ⟨x', List.mem_cons_of_mem _ hmem, hx'⟩

/-- a step that succeeds exactly on the items with `P`, taken for every item of a list -/
theorem mapM_eq_ok {f : α → Except ε β} {P : α → Prop} {g : α → β}
    (h : ∀ x y, f x = .ok y ↔ P x ∧ y = g x) (xs : List α) (ys : List β) :
    xs.mapM f = .ok ys ↔ (∀ x ∈ xs, P x) ∧ ys = xs.map g := by
  induction xs generalizing ys with
  | nil => simp [pure, Except.pure, eq_comm]
  | cons x xs ih =>
    rw [List.mapM_cons, bind_eq_ok, List.forall_mem_cons, List.map_cons]
    constructor
    · rintro ⟨y, hy, hrest⟩
      obtain ⟨zs, hzs, hpure⟩ := bind_eq_ok.1 hrest
      obtain ⟨hx, rfl⟩ := (h x y).1 hy
      obtain ⟨hxs, rfl⟩ := (ih zs).1 hzs
      exact ⟨⟨hx, hxs⟩, pure_eq_ok.1 hpure⟩
    · rintro ⟨⟨hx, hxs⟩, rfl⟩
      exact ⟨g x, (h x _).2 ⟨hx, rfl⟩,
        bind_eq_ok.2 ⟨xs.map g, (ih _).2 ⟨hxs, rfl⟩, pure_eq_ok.2 rfl⟩⟩

end TransactionKey
