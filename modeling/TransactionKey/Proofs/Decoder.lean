import Mathlib.Data.List.Forall2
import TransactionKey.Decoder

/-!
# Laws of decoders

Seven predicates describe what a decoder takes up and reads, and they have laws for the combinators:

* `Accepts d bytes a`   wherever `bytes` stand, in any message and before anything, `d` reads `a`
                        and takes up exactly these bytes;
* `Reads d bytes P E`   the same, but what is read may depend on the message around the bytes as far
                        as `P` allows, and they may be refused for a reason in `E`;
* `Returns d P`         whatever `d` reads has `P`;
* `Bounded d`           `d` takes up no more bytes than there are;
* `Advances d`          the same, and a byte at least;
* `Coextensive d e`     `e` takes up as many bytes as `d` where the same bytes stand, whatever the
                        messages around them;
* `Outlasts d e E`      `e` takes up as many bytes as `d` once more bytes follow the message, or
                        refuses it for a reason in `E`.

`many_succ` unfolds a run of items into `bind`, so that the laws of `many` need no accumulators.
-/

namespace TransactionKey.Decoder

variable {α β γ δ : Type}

def pure (a : α) : Decoder α := fun _ _ => .ok (a, 0)

/-- `bytes` are read as `a` and taken up whole, in every message and before every rest -/
def Accepts (d : Decoder α) (bytes : Bytes) (a : α) : Prop :=
  ∀ message rest, d message (bytes ++ rest) = .ok (a, bytes.length)

/-- `bytes` are taken up whole, in every message and before every rest, and read as something with
`P`, or else they are refused for a reason in `E` -/
def Reads (d : Decoder α) (bytes : Bytes) (P : α → Prop) (E : WireError → Prop) : Prop :=
  ∀ message rest, (∃ a, d message (bytes ++ rest) = .ok (a, bytes.length) ∧ P a) ∨
    ∃ e, d message (bytes ++ rest) = .error e ∧ E e

def Returns (d : Decoder α) (P : α → Prop) : Prop :=
  ∀ ⦃message rest a n⦄, d message rest = .ok (a, n) → P a

def Bounded (d : Decoder α) : Prop :=
  ∀ ⦃message rest a n⦄, d message rest = .ok (a, n) → n ≤ rest.length

def Advances (d : Decoder α) : Prop :=
  ∀ ⦃message rest a n⦄, d message rest = .ok (a, n) → 0 < n ∧ n ≤ rest.length

/-- where the bytes that `d` took up stand, `e` takes up as many -/
def Coextensive (d : Decoder α) (e : Decoder β) : Prop :=
  ∀ ⦃m m' r r' a b n k⦄, d m r = .ok (a, n) → e m' r' = .ok (b, k) → r'.take n = r.take n → k = n

/-- what `d` took up, `e` takes up when more bytes follow the message, or it refuses the message for a
reason in `E` -/
def Outlasts (d : Decoder α) (e : Decoder β) (E : WireError → Prop) : Prop :=
  ∀ ⦃m r a n⦄ (tail : Bytes), d m r = .ok (a, n) →
    (∃ b, e (m ++ tail) (r ++ tail) = .ok (b, n)) ∨
      ∃ fault, e (m ++ tail) (r ++ tail) = .error fault ∧ E fault

/-! ## equations -/

theorem readAt_eq_ok {d : Decoder α} {m : Bytes} {offset past : Nat} {a : α} :
    d.readAt m offset = .ok (a, past) ↔
      ∃ n, d m (m.drop offset) = .ok (a, n) ∧ past = offset + n := by
  unfold readAt
  cases d m (m.drop offset) with
  | error e => simp
  | ok item =>
    obtain ⟨b, n⟩ := item
    constructor
    · intro h
      obtain ⟨rfl, rfl⟩ := Prod.mk.inj (Except.ok.inj h)
      exact ⟨n, rfl, rfl⟩
    · rintro ⟨k, h, rfl⟩
      obtain ⟨rfl, rfl⟩ := Prod.mk.inj (Except.ok.inj h)
      rfl

theorem bind_eq_ok {d : Decoder α} {e : α → Decoder β} {m r : Bytes} {b : β} {n : Nat} :
    d.bind e m r = .ok (b, n) ↔
      ∃ a k l, d m r = .ok (a, k) ∧ e a m (r.drop k) = .ok (b, l) ∧ n = k + l := by
  unfold bind
  constructor
  · intro h
    split at h
    · cases h
    · rename_i a k hd
      split at h
      · cases h
      · rename_i b' l he
        obtain ⟨rfl, rfl⟩ := Prod.mk.inj (Except.ok.inj h)
        exact ⟨a, k, l, hd, he, rfl⟩
  · rintro ⟨a, k, l, hd, he, rfl⟩
    simp only [hd, he]

/-- the accumulators of `manyFrom` only collect -/
theorem manyFrom_eq (d : Decoder α) (m : Bytes) (done : List α) (taken count : Nat) (r : Bytes) :
    manyFrom d m done taken count r =
      match many d count m r with
      | .ok (items, n) => .ok (done.reverse ++ items, taken + n)
      | .error e => .error e := by
  induction count generalizing done taken r with
  | zero => simp [many, manyFrom]
  | succ count ih =>
    unfold many manyFrom
    cases d m r with
    | error e => rfl
    | ok item =>
      obtain ⟨a, n⟩ := item
      show manyFrom d m (a :: done) (taken + n) count (r.drop n) =
        match manyFrom d m [a] (0 + n) count (r.drop n) with
        | .ok (items, n) => .ok (done.reverse ++ items, taken + n)
        | .error e => .error e
      rw [ih (a :: done), ih [a]]
      cases many d count m (r.drop n) with
      | error e => rfl
      | ok items => simp [Nat.add_assoc]

theorem many_succ (d : Decoder α) (count : Nat) :
    many d (count + 1) = d.bind fun a => (many d count).bind fun items => pure (a :: items) := by
  funext m r
  show manyFrom d m [] 0 (count + 1) r = _
  unfold manyFrom bind
  cases d m r with
  | error e => rfl
  | ok item =>
    obtain ⟨a, n⟩ := item
    show manyFrom d m [a] (0 + n) count (r.drop n) = _
    rw [manyFrom_eq]
    cases hmany : many d count m (r.drop n) with
    | error e => simp [hmany]
    | ok items => simp [hmany, pure]

/-! ## accepted bytes -/

theorem Accepts.pure (a : α) : (pure a).Accepts [] a := fun _ _ => rfl

theorem Accepts.bind {d : Decoder α} {e : α → Decoder β} {bs cs : Bytes} {a : α} {b : β}
    (hd : d.Accepts bs a) (he : (e a).Accepts cs b) : (d.bind e).Accepts (bs ++ cs) b := by
  intro m rest
  refine bind_eq_ok.2 ⟨a, bs.length, cs.length, ?_, ?_, List.length_append⟩
  · rw [List.append_assoc]
    exact hd m (cs ++ rest)
  · rw [List.append_assoc, List.drop_left]
    exact he m rest

theorem Accepts.many {d : Decoder β} (enc : α → Bytes) (f : α → β) (xs : List α)
    (h : ∀ x ∈ xs, d.Accepts (enc x) (f x)) :
    (many d xs.length).Accepts (xs.flatMap enc) (xs.map f) := by
  induction xs with
  | nil => exact Accepts.pure []
  | cons x xs ih =>
    have hx := h x (List.mem_cons_self ..)
    have hxs := ih fun y hy => h y (List.mem_cons_of_mem _ hy)
    rw [List.length_cons, many_succ, List.flatMap_cons, List.map_cons]
    refine hx.bind ?_
    have hlast := hxs.bind (e := fun items => Decoder.pure (f x :: items)) (Accepts.pure _)
    rwa [List.append_nil] at hlast

/-! ## readings that depend on the message -/

section
variable {P : α → Prop} {Q : β → Prop} {E : WireError → Prop} {bs cs : Bytes}

theorem Accepts.reads {d : Decoder α} {a : α} (h : d.Accepts bs a) (hP : P a) :
    d.Reads bs P E := fun m rest => .inl ⟨a, h m rest, hP⟩

theorem Reads.mono {d : Decoder α} {P' : α → Prop} {E' : WireError → Prop} (h : d.Reads bs P E)
    (hP : ∀ a, P a → P' a) (hE : ∀ e, E e → E' e) : d.Reads bs P' E' := by
  intro m rest
  rcases h m rest with ⟨a, ha, hPa⟩ | ⟨e, he, hEe⟩
  · exact .inl ⟨a, ha, hP a hPa⟩
  · exact .inr ⟨e, he, hE e hEe⟩

theorem Reads.bind {d : Decoder α} {f : α → Decoder β} (hd : d.Reads bs P E)
    (hf : ∀ a, P a → (f a).Reads cs Q E) : (d.bind f).Reads (bs ++ cs) Q E := by
  intro m rest
  rw [List.append_assoc]
  rcases hd m (cs ++ rest) with ⟨a, ha, hPa⟩ | ⟨e, he, hEe⟩
  · rcases hf a hPa m rest with ⟨b, hb, hQb⟩ | ⟨e, he, hEe⟩
    · refine .inl ⟨b, bind_eq_ok.2 ⟨a, _, _, ha, ?_, List.length_append⟩, hQb⟩
      rwa [List.drop_left]
    · refine .inr ⟨e, ?_, hEe⟩
      unfold Decoder.bind
      simp only [ha, List.drop_left, he]
  · refine .inr ⟨e, ?_, hEe⟩
    unfold Decoder.bind
    simp only [he]

theorem Reads.many {d : Decoder β} {R : α → β → Prop} (enc : α → Bytes) (xs : List α)
    (h : ∀ x ∈ xs, d.Reads (enc x) (R x) E) :
    (many d xs.length).Reads (xs.flatMap enc) (List.Forall₂ R xs) E := by
  induction xs with
  | nil => exact (Accepts.pure []).reads .nil
  | cons x xs ih =>
    have hx := h x (List.mem_cons_self ..)
    have hxs := ih fun y hy => h y (List.mem_cons_of_mem _ hy)
    rw [List.length_cons, many_succ, List.flatMap_cons]
    refine hx.bind fun y hy => ?_
    have hlast : ((Decoder.many d xs.length).bind fun ys => Decoder.pure (y :: ys)).Reads
        (xs.flatMap enc ++ []) (List.Forall₂ R (x :: xs)) E :=
      hxs.bind fun ys hys => (Accepts.pure _).reads (.cons hy hys)
    rwa [List.append_nil] at hlast

end

/-! ## what is read -/

theorem Returns.pure {P : α → Prop} {a : α} (h : P a) : (pure a).Returns P := by
  intro m r b n hb
  obtain ⟨rfl, -⟩ := Prod.mk.inj (Except.ok.inj hb)
  exact h

theorem Returns.bind {d : Decoder α} {f : α → Decoder β} {P : α → Prop} {Q : β → Prop}
    (hd : d.Returns P) (hf : ∀ a, P a → (f a).Returns Q) : (d.bind f).Returns Q := by
  intro m r b n h
  obtain ⟨a, k, l, ha, hb, -⟩ := bind_eq_ok.1 h
  exact hf a (hd ha) hb

theorem Returns.many {d : Decoder α} {P : α → Prop} (hd : d.Returns P) (count : Nat) :
    (many d count).Returns fun items => items.length = count ∧ ∀ a ∈ items, P a := by
  induction count with
  | zero => exact Returns.pure ⟨rfl, List.forall_mem_nil _⟩
  | succ count ih =>
    rw [many_succ]
    refine hd.bind fun a ha => ih.bind fun items hitems => Returns.pure ⟨?_, ?_⟩
    · rw [List.length_cons, hitems.1]
    · exact List.forall_mem_cons.2 ⟨ha, hitems.2⟩

/-! ## bounds -/

theorem Bounded.pure (a : α) : (pure a).Bounded := by
  intro m r b n h
  obtain ⟨-, rfl⟩ := Prod.mk.inj (Except.ok.inj h)
  exact Nat.zero_le _

theorem Bounded.bind {d : Decoder α} {e : α → Decoder β} (hd : d.Bounded)
    (he : ∀ a, (e a).Bounded) : (d.bind e).Bounded := by
  intro m r b n h
  obtain ⟨a, k, l, h1, h2, rfl⟩ := bind_eq_ok.1 h
  have hk := hd h1
  have hl := he a h2
  rw [List.length_drop] at hl
  omega

theorem Bounded.many {d : Decoder α} (hd : d.Bounded) (count : Nat) : (many d count).Bounded := by
  induction count with
  | zero => exact Bounded.pure []
  | succ count ih =>
    rw [many_succ]
    exact hd.bind fun a => ih.bind fun items => Bounded.pure _

theorem Advances.bounded {d : Decoder α} (h : d.Advances) : d.Bounded :=
  fun _ _ _ _ hread => (h hread).2

theorem Advances.bind {d : Decoder α} {e : α → Decoder β} (hd : d.Advances)
    (he : ∀ a, (e a).Bounded) : (d.bind e).Advances := by
  intro m r b n h
  obtain ⟨a, k, l, hfirst, -, rfl⟩ := bind_eq_ok.1 h
  have hk := (hd hfirst).1
  exact ⟨by omega, hd.bounded.bind he h⟩

/-! ## extents -/

theorem Coextensive.pure (a : α) (b : β) : Coextensive (pure a) (pure b) := by
  intro m m' r r' a' b' n k h h' _
  obtain ⟨-, rfl⟩ := Prod.mk.inj (Except.ok.inj h)
  obtain ⟨-, rfl⟩ := Prod.mk.inj (Except.ok.inj h')
  rfl

theorem Coextensive.bind {d : Decoder α} {d' : Decoder β} {e : α → Decoder γ}
    {e' : β → Decoder δ} (hd : Coextensive d d') (he : ∀ a b, Coextensive (e a) (e' b)) :
    Coextensive (d.bind e) (d'.bind e') := by
  intro m m' r r' c c' n n' h h' same
  obtain ⟨a, k, l, h1, h2, rfl⟩ := bind_eq_ok.1 h
  obtain ⟨b, k', l', h1', h2', rfl⟩ := bind_eq_ok.1 h'
  -- the shared bytes are those of the first parts, and after them those of the second
  have front : r'.take k = r.take k := by
    have := congrArg (List.take k) same
    simpa [List.take_take] using this
  obtain rfl := hd h1 h1' front
  have back : (r'.drop k').take l = (r.drop k').take l := by
    rw [List.take_drop, List.take_drop, same]
  rw [he a b h2 h2' back]

theorem Coextensive.many {d : Decoder α} {d' : Decoder β} (hd : Coextensive d d') (count : Nat) :
    Coextensive (many d count) (many d' count) := by
  induction count with
  | zero => exact Coextensive.pure [] []
  | succ count ih =>
    rw [many_succ, many_succ]
    exact hd.bind fun a b => ih.bind fun items items' => Coextensive.pure _ _

/-! ## longer messages -/

section
variable {E : WireError → Prop}

theorem Outlasts.pure (a : α) (b : β) : Outlasts (pure a) (pure b) E := by
  intro m r a' n tail h
  obtain ⟨-, rfl⟩ := Prod.mk.inj (Except.ok.inj h)
  exact .inl ⟨b, rfl⟩

theorem Outlasts.bind {d : Decoder α} {d' : Decoder β} {e : α → Decoder γ} {e' : β → Decoder δ}
    (hbounded : d.Bounded) (hd : Outlasts d d' E) (he : ∀ a b, Outlasts (e a) (e' b) E) :
    Outlasts (d.bind e) (d'.bind e') E := by
  intro m r c n tail h
  obtain ⟨a, k, l, h1, h2, rfl⟩ := bind_eq_ok.1 h
  have hdrop : (r ++ tail).drop k = r.drop k ++ tail :=
    List.drop_append_of_le_length (hbounded h1)
  rcases hd tail h1 with ⟨b, hb⟩ | ⟨fault, hfault, hE⟩
  · rcases he a b tail h2 with ⟨c', hc⟩ | ⟨fault, hfault, hE⟩
    · exact .inl ⟨c', bind_eq_ok.2 ⟨b, k, l, hb, hdrop ▸ hc, rfl⟩⟩
    · refine .inr ⟨fault, ?_, hE⟩
      unfold Decoder.bind
      simp only [hb, hdrop, hfault]
  · refine .inr ⟨fault, ?_, hE⟩
    unfold Decoder.bind
    simp only [hfault]

theorem Outlasts.many {d : Decoder α} {d' : Decoder β} (hbounded : d.Bounded)
    (hd : Outlasts d d' E) (count : Nat) : Outlasts (many d count) (many d' count) E := by
  induction count with
  | zero => exact Outlasts.pure [] []
  | succ count ih =>
    rw [many_succ, many_succ]
    exact hd.bind hbounded fun a b =>
      ih.bind (hbounded.many count) fun items items' => Outlasts.pure _ _

end

end TransactionKey.Decoder
