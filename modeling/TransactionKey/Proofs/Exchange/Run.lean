import TransactionKey.Exchange.Script
import TransactionKey.Proofs.Except

/-!
# Runs of an exchange

A `Script` stands for whatever the world may do.  What one attempt sends and brings is told by
functions of its number; `attempt_run` says that the program does the same, and by induction on the
endpoints so do the runs of `firstUsable`.

* `Usable`, `Failed`   what makes an attempt end the run, or go on to the next endpoint;
* `exchange_run`       the outcome of an exchange, its lookups and what it sends.
-/

namespace TransactionKey

theorem Signing.sign_id {signing : Signing} {m : Message} {now : UInt64} {q : SignedQuery}
    (h : signing.sign m now = .ok q) : q.id = m.header.id := by
  obtain ⟨bytes, -, h⟩ := bind_eq_ok.1 h
  cases signing with
  | unsigned | gss =>
    obtain rfl := Except.ok.inj h
    rfl
  | keyed key =>
    obtain ⟨fields, -, h⟩ := bind_eq_ok.1 h
    obtain ⟨rdata, -, h⟩ := bind_eq_ok.1 h
    obtain ⟨record, -, h⟩ := bind_eq_ok.1 h
    obtain ⟨ending, -, h⟩ := bind_eq_ok.1 h
    obtain ⟨sent, -, h⟩ := bind_eq_ok.1 h
    obtain rfl := Except.ok.inj h
    rfl

namespace Script

section
variable (s : Script) (signing : Signing) (query : Message)

/-! ## one attempt -/

/-- the query as attempt `i` signs it; the clock has been read once before the first attempt, and once
by each attempt since -/
def signed (i : Nat) : Except TsigError SignedQuery := signing.sign query (s.clock (i + 1))

/-- how many of the first `i` attempts send anything -/
def calls (i : Nat) : Nat := (List.range i).countP fun j => (s.signed signing query j).isOk

/-- what attempt `i` sends, if its signing succeeds -/
def sends (i : Nat) (endpoint : Endpoint) : List (Endpoint × Bytes) :=
  match s.signed signing query i with
  | .ok q => [(endpoint, q.bytes)]
  | .error _ => []

/-- what the attempts from `i` on send to these endpoints -/
def contacted (i : Nat) (endpoints : List Endpoint) : List (Endpoint × Bytes) :=
  (endpoints.zipIdx i).flatMap fun (endpoint, j) => s.sends signing query j endpoint

/-- attempt `i` has a usable reply: it is a message with the identifier of the query, and a response -/
def Usable (i : Nat) (endpoint : Endpoint) (m : Message) : Prop :=
  ∃ q reply, s.signed signing query i = .ok q ∧
    s.deliver (s.calls signing query i) endpoint q.bytes = .ok reply ∧
    Message.decode reply = .ok m ∧ m.header.id = query.header.id ∧ m.header.qr = true

/-- why attempt `i` has no usable reply -/
inductive Failed (i : Nat) (endpoint : Endpoint) : TransportError → Prop
  | signing {e} (hq : s.signed signing query i = .error e) : Failed i endpoint (.signing e)
  | delivery {q e} (hq : s.signed signing query i = .ok q)
      (hd : s.deliver (s.calls signing query i) endpoint q.bytes = .error e) :
      Failed i endpoint e
  | parse {q reply e} (hq : s.signed signing query i = .ok q)
      (hd : s.deliver (s.calls signing query i) endpoint q.bytes = .ok reply)
      (hm : Message.decode reply = .error e) : Failed i endpoint (.parse e)
  | idMismatch {q reply m} (hq : s.signed signing query i = .ok q)
      (hd : s.deliver (s.calls signing query i) endpoint q.bytes = .ok reply)
      (hm : Message.decode reply = .ok m) (hid : m.header.id ≠ query.header.id) :
      Failed i endpoint (.idMismatch query.header.id m.header.id)
  | notAResponse {q reply m} (hq : s.signed signing query i = .ok q)
      (hd : s.deliver (s.calls signing query i) endpoint q.bytes = .ok reply)
      (hm : Message.decode reply = .ok m) (hid : m.header.id = query.header.id)
      (hqr : m.header.qr = false) : Failed i endpoint .notAResponse

end

section
variable {s : Script} {signing : Signing} {query : Message} {i : Nat} {endpoint : Endpoint}

theorem Usable.unique {m m' : Message} (h : s.Usable signing query i endpoint m)
    (h' : s.Usable signing query i endpoint m') : m = m' := by
  obtain ⟨q, reply, hq, hd, hm, -⟩ := h
  obtain ⟨q', reply', hq', hd', hm', -⟩ := h'
  obtain rfl := Except.ok.inj (hq.symm.trans hq')
  obtain rfl := Except.ok.inj (hd.symm.trans hd')
  exact Except.ok.inj (hm.symm.trans hm')

theorem Failed.not_usable {e : TransportError} (h : s.Failed signing query i endpoint e)
    (m : Message) : ¬ s.Usable signing query i endpoint m := by
  rintro ⟨q, reply, hq, hd, hm, hid, hqr⟩
  cases h with
  | signing hq' => simp [hq] at hq'
  | delivery hq' hd' =>
    obtain rfl := Except.ok.inj (hq.symm.trans hq')
    simp [hd] at hd'
  | parse hq' hd' hm' =>
    obtain rfl := Except.ok.inj (hq.symm.trans hq')
    obtain rfl := Except.ok.inj (hd.symm.trans hd')
    simp [hm] at hm'
  | idMismatch hq' hd' hm' hid' =>
    obtain rfl := Except.ok.inj (hq.symm.trans hq')
    obtain rfl := Except.ok.inj (hd.symm.trans hd')
    obtain rfl := Except.ok.inj (hm.symm.trans hm')
    exact hid' hid
  | notAResponse hq' hd' hm' hid' hqr' =>
    obtain rfl := Except.ok.inj (hq.symm.trans hq')
    obtain rfl := Except.ok.inj (hd.symm.trans hd')
    obtain rfl := Except.ok.inj (hm.symm.trans hm')
    simp [hqr] at hqr'

theorem calls_succ (i : Nat) (endpoint : Endpoint) :
    s.calls signing query (i + 1) =
      s.calls signing query i + (s.sends signing query i endpoint).length := by
  unfold calls sends
  rw [List.range_succ, List.countP_append]
  cases hq : s.signed signing query i with
  | error e => simp [hq, Except.isOk, Except.toBool]
  | ok q => simp [hq, Except.isOk, Except.toBool]

/-! ## steps in a scripted world -/

theorem run_bind {α β : Type} (x : StateM Trace α) (f : α → StateM Trace β) (t : Trace) :
    (x >>= f).run t = (f (x.run t).1).run (x.run t).2 := rfl

theorem run_now (t : Trace) :
    s.world.now.run t = (s.clock t.readings, { t with readings := t.readings + 1 }) := rfl

theorem run_newId (t : Trace) : s.world.newId.run t = (s.id, t) := rfl

theorem run_lookup (host : String) (t : Trace) :
    (s.world.lookup host).run t = (s.lookup host, { t with lookups := t.lookups ++ [host] }) := rfl

theorem run_deliver (endpoint : Endpoint) (bytes : Bytes) (t : Trace) :
    (s.world.deliver endpoint bytes).run t =
      (s.deliver t.sent.length endpoint bytes, { t with sent := t.sent ++ [(endpoint, bytes)] }) :=
  rfl

theorem check_run (q : SignedQuery) (reply : Bytes) (t : Trace) :
    let t' := ((Exchange.check s.world signing q endpoint reply).run t).2
    t'.sent = t.sent ∧ t'.lookups = t.lookups := by
  unfold Exchange.check
  rw [run_bind]
  split <;> exact ⟨rfl, rfl⟩

theorem attempt_lookups (endpoint : Endpoint) (t : Trace) :
    ((Exchange.attempt s.world signing query endpoint).run t).2.lookups = t.lookups := by
  unfold Exchange.attempt
  simp only [run_bind, run_now]
  split
  · rfl
  · simp only [run_bind, run_deliver]
    split
    · rfl
    · split
      · rfl
      · exact (check_run _ _ _).2

theorem firstUsable_lookups (endpoints : List Endpoint) (t : Trace) :
    ((Exchange.firstUsable s.world signing query endpoints).run t).2.lookups = t.lookups := by
  induction endpoints generalizing t with
  | nil => rfl
  | cons endpoint endpoints ih =>
    have hfirst : ((Exchange.attempt s.world signing query endpoint).run t).2.lookups =
        t.lookups := attempt_lookups endpoint t
    rw [Exchange.firstUsable, run_bind]
    split
    · exact hfirst
    · rw [run_bind]
      split <;> exact (ih _).trans hfirst

/-- the trace before attempt `i` -/
structure Reached (s : Script) (signing : Signing) (query : Message) (i : Nat) (t : Trace) :
    Prop where
  readings : t.readings = i + 1
  sent : t.sent.length = s.calls signing query i

/-- **one step of a run** -/
theorem attempt_run {t : Trace} (h : s.Reached signing query i t) (endpoint : Endpoint) :
    ∃ t', t'.sent = t.sent ++ s.sends signing query i endpoint ∧
      ((∃ m, s.Usable signing query i endpoint m ∧
          (Exchange.attempt s.world signing query endpoint).run t = (.ok m, t')) ∨
        (∃ e, s.Failed signing query i endpoint e ∧ s.Reached signing query (i + 1) t' ∧
          (Exchange.attempt s.world signing query endpoint).run t = (.error e, t'))) := by
  have hsigned : signing.sign query (s.clock t.readings) = s.signed signing query i := by
    rw [h.readings]
    rfl
  have hsends : s.calls signing query (i + 1) =
      s.calls signing query i + (s.sends signing query i endpoint).length :=
    calls_succ i endpoint
  unfold Exchange.attempt
  simp only [run_bind, run_now, hsigned]
  let t₁ : Trace := { t with readings := t.readings + 1 }
  have hreadings : t₁.readings = i + 1 + 1 := congrArg (· + 1) h.readings
  cases hq : s.signed signing query i with
  | error e =>
    simp only [sends, hq] at hsends ⊢
    exact ⟨t₁, (List.append_nil _).symm, .inr ⟨_, .signing hq,
      ⟨hreadings, h.sent.trans hsends.symm⟩, rfl⟩⟩
  | ok q =>
    have hid : q.id = query.header.id := Signing.sign_id hq
    simp only [sends, hq] at hsends ⊢
    simp only [run_bind, run_deliver, h.sent]
    -- the attempt leaves this trace, but for what is told of a bad signature
    let t₂ : Trace := { t₁ with sent := t.sent ++ [(endpoint, q.bytes)] }
    have hreached : s.Reached signing query (i + 1) t₂ :=
      ⟨hreadings, by rw [List.length_append, h.sent, hsends]⟩
    cases hd : s.deliver (s.calls signing query i) endpoint q.bytes with
    | error e => exact ⟨t₂, rfl, .inr ⟨_, .delivery hq hd, hreached, rfl⟩⟩
    | ok reply =>
      simp only [Exchange.usable]
      cases hm : Message.decode reply with
      | error e => exact ⟨t₂, rfl, .inr ⟨_, .parse hq hd hm, hreached, rfl⟩⟩
      | ok m =>
        dsimp only
        by_cases hsame : m.header.id = query.header.id
        · rw [if_neg (by rw [hsame, hid]; simp)]
          cases hqr : m.header.qr with
          | false => exact ⟨t₂, rfl, .inr ⟨_, .notAResponse hq hd hm hsame hqr, hreached, rfl⟩⟩
          | true =>
            have hsent : ((Exchange.check s.world signing q endpoint reply).run t₂).2.sent =
                t₂.sent := (check_run q reply t₂).1
            exact ⟨_, hsent, .inl ⟨m, ⟨q, reply, hq, hd, hm, hsame, hqr⟩, rfl⟩⟩
        · rw [if_pos (by rwa [hid]), hid]
          exact ⟨t₂, rfl, .inr ⟨_, .idMismatch hq hd hm hsame, hreached, rfl⟩⟩

/-! ## runs -/

theorem contacted_cons (i : Nat) (endpoint : Endpoint) (endpoints : List Endpoint) :
    s.contacted signing query i (endpoint :: endpoints) =
      s.sends signing query i endpoint ++ s.contacted signing query (i + 1) endpoints := by
  rw [contacted, List.zipIdx_cons, List.flatMap_cons]
  rfl

theorem firstUsable_found {endpoints : List Endpoint} {k : Nat} {m : Message} {t : Trace}
    (h : s.Reached signing query i t) (hk : endpoints[k]? = some endpoint)
    (hm : s.Usable signing query (i + k) endpoint m)
    (before : ∀ j < k, ∀ e, endpoints[j]? = some e → ∀ m', ¬ s.Usable signing query (i + j) e m') :
    ∃ t', (Exchange.firstUsable s.world signing query endpoints).run t = (.ok m, t') ∧
      t'.sent = t.sent ++ s.contacted signing query i (endpoints.take (k + 1)) := by
  -- the attempt at the first endpoint leads to the trace before the attempt at the next
  induction endpoints generalizing i k t with
  | nil => cases hk
  | cons first endpoints ih =>
    obtain ⟨t₁, hsent, ⟨m', hm', hrun⟩ | ⟨e, hfailed, hreached, hrun⟩⟩ :=
      attempt_run h first
    · cases k with
      | zero =>
        obtain rfl := Option.some.inj hk
        obtain rfl := hm.unique hm'
        refine ⟨t₁, ?_, ?_⟩
        · rw [Exchange.firstUsable, run_bind, hrun]
          rfl
        · rw [List.take_succ_cons, contacted_cons, hsent, List.take_zero]
          exact congrArg _ (List.append_nil _).symm
      | succ k => exact absurd hm' (before 0 (Nat.succ_pos k) first rfl m')
    · cases k with
      | zero =>
        obtain rfl := Option.some.inj hk
        exact absurd hm (hfailed.not_usable m)
      | succ k =>
        rw [← Nat.add_assoc, Nat.add_right_comm] at hm
        obtain ⟨t₂, hrun₂, hsent₂⟩ := ih hreached hk hm fun j hj e he => by
          rw [Nat.add_right_comm, Nat.add_assoc]
          exact before (j + 1) (Nat.succ_lt_succ hj) e he
        refine ⟨t₂, ?_, ?_⟩
        · rw [Exchange.firstUsable, run_bind, hrun]
          simp only [run_bind, hrun₂]
          rfl
        · rw [List.take_succ_cons, contacted_cons, hsent₂, hsent, List.append_assoc]

theorem firstUsable_exhausted {endpoints : List Endpoint} {t : Trace}
    (h : s.Reached signing query i t)
    (none : ∀ k e, endpoints[k]? = some e → ∀ m, ¬ s.Usable signing query (i + k) e m) :
    ∃ attempts t', (Exchange.firstUsable s.world signing query endpoints).run t =
        (.error attempts, t') ∧
      attempts.map Attempt.endpoint = endpoints ∧
      (∀ k a, attempts[k]? = some a → s.Failed signing query (i + k) a.endpoint a.cause) ∧
      t'.sent = t.sent ++ s.contacted signing query i endpoints := by
  induction endpoints generalizing i t with
  | nil =>
    exact ⟨[], t, rfl, rfl, fun k a ha => by simp at ha, (List.append_nil _).symm⟩
  | cons first endpoints ih =>
    obtain ⟨t₁, hsent, ⟨m, hm, -⟩ | ⟨e, hfailed, hreached, hrun⟩⟩ := attempt_run h first
    · exact absurd hm (none 0 first rfl m)
    · obtain ⟨attempts, t₂, hrun₂, hends, hall, hsent₂⟩ := ih hreached fun k e he => by
        rw [Nat.add_right_comm, Nat.add_assoc]
        exact none (k + 1) e he
      refine ⟨⟨first, e⟩ :: attempts, t₂, ?_, ?_, ?_, ?_⟩
      · rw [Exchange.firstUsable, run_bind, hrun]
        simp only [run_bind, hrun₂]
        rfl
      · rw [List.map_cons, hends]
      · intro k a ha
        cases k with
        | zero =>
          obtain rfl := Option.some.inj ha
          exact hfailed
        | succ k =>
          have := hall k a ha
          rwa [Nat.add_right_comm, Nat.add_assoc] at this
      · rw [contacted_cons, hsent₂, hsent, List.append_assoc]

end

/-! ## the whole exchange -/

/-- what becomes of an exchange with these endpoints: the first usable reply decides it, and without
one each endpoint has failed -/
structure Delivered (s : Script) (signing : Signing) (query : Message) (endpoints : List Endpoint)
    (outcome : Except ExchangeError Reply) (sent : List (Endpoint × Bytes)) : Prop where
  found : ∀ k endpoint m, endpoints[k]? = some endpoint → s.Usable signing query k endpoint m →
    (∀ j < k, ∀ e, endpoints[j]? = some e → ∀ m', ¬ s.Usable signing query j e m') →
    outcome = (Reply.judge m).mapError .reply ∧
      sent = s.contacted signing query 0 (endpoints.take (k + 1))
  exhausted : (∀ k e, endpoints[k]? = some e → ∀ m, ¬ s.Usable signing query k e m) →
    (∃ attempts, outcome = .error (.transport attempts) ∧
      attempts.map Attempt.endpoint = endpoints ∧
      ∀ k a, attempts[k]? = some a → s.Failed signing query k a.endpoint a.cause) ∧
    sent = s.contacted signing query 0 endpoints

/-- the outcome that follows from a reply, or from having none -/
def concluded (result : Except ExchangeError Message) : Except ExchangeError Reply :=
  result.bind fun m => (Reply.judge m).mapError .reply

section
variable {s : Script} {signing : Signing} {query : Message}

theorem firstUsable_delivered {t : Trace} (h : s.Reached signing query 0 t) (hsent : t.sent = [])
    (endpoints : List Endpoint) :
    let run := (Exchange.firstUsable s.world signing query endpoints).run t
    s.Delivered signing query endpoints (concluded (run.1.mapError .transport)) run.2.sent where
  found k endpoint m hk hm before := by
    obtain ⟨t', hrun, hsent'⟩ :=
      firstUsable_found h hk (by rwa [Nat.zero_add]) (by simpa using before)
    rw [hrun, hsent', hsent]
    exact ⟨rfl, rfl⟩
  exhausted none := by
    have hnone : ∀ k e, endpoints[k]? = some e → ∀ m, ¬ s.Usable signing query (0 + k) e m := by
      simpa using none
    obtain ⟨attempts, t', hrun, hends, hall, hsent'⟩ := firstUsable_exhausted h hnone
    rw [hrun, hsent', hsent]
    exact ⟨⟨attempts, rfl, hends, by simpa using hall⟩, rfl⟩

theorem contact_failed {host reason : String} (h : Exchange.found (s.lookup host) = .error reason)
    (port : UInt16) (t : Trace) :
    (Exchange.contact s.world signing query host port).run t =
      (.error (.resolution host reason), { t with lookups := t.lookups ++ [host] }) := by
  rw [Exchange.contact, run_bind, run_lookup]
  dsimp only
  rw [h]
  rfl

theorem contact_found {host : String} {addresses : List Address}
    (h : Exchange.found (s.lookup host) = .ok addresses) (port : UInt16) (t : Trace) :
    let run := (Exchange.firstUsable s.world signing query
      (addresses.map fun address => { address, port })).run
        { t with lookups := t.lookups ++ [host] }
    (Exchange.contact s.world signing query host port).run t =
      (run.1.mapError .transport, run.2) := by
  rw [Exchange.contact, run_bind, run_lookup]
  dsimp only
  rw [h]
  dsimp only
  rw [run_bind]
  generalize (Exchange.firstUsable s.world signing query _).run _ = run
  obtain ⟨result, t'⟩ := run
  cases result <;> rfl

variable {port : UInt16} {r : Request}

theorem exchange_unprepared {e : ExchangeError}
    (h : Exchange.prepare r (s.clock 0) s.id = .error e) :
    s.exchange port r = (.error e, { readings := 1 }) := by
  unfold Script.exchange TransactionKey.exchange
  simp only [run_bind, run_now, run_newId, h]
  rfl

theorem exchange_prepared (h : Exchange.prepare r (s.clock 0) s.id = .ok (query, signing)) :
    let run := (Exchange.contact s.world signing query r.host port).run { readings := 1 }
    s.exchange port r = (concluded run.1, run.2) := by
  unfold Script.exchange TransactionKey.exchange
  simp only [run_bind, run_now, run_newId, h, Nat.zero_add]
  generalize (Exchange.contact s.world signing query r.host port).run { readings := 1 } = run
  obtain ⟨result, t⟩ := run
  cases result with
  | error e => rfl
  | ok m =>
    unfold concluded
    cases hjudge : Reply.judge m <;> simp only [Except.bind, hjudge] <;> rfl

/-- an exchange in which no attempt is usable looks the host up and fails at every address -/
theorem exchange_exhausted {addresses : List Address}
    (hprepare : Exchange.prepare r (s.clock 0) s.id = .ok (query, signing))
    (hfound : Exchange.found (s.lookup r.host) = .ok addresses)
    (none : ∀ k endpoint m, ¬ s.Usable signing query k endpoint m) (port : UInt16) :
    let endpoints : List Endpoint := addresses.map fun address => { address, port }
    ∃ attempts, (s.exchange port r).1 = .error (.transport attempts) ∧
      attempts.map Attempt.endpoint = endpoints ∧
      (∀ k a, attempts[k]? = some a → s.Failed signing query k a.endpoint a.cause) ∧
      (s.exchange port r).2.lookups = [r.host] ∧
      (s.exchange port r).2.sent = s.contacted signing query 0 endpoints := by
  intro endpoints
  let t : Trace := { readings := 1, lookups := [r.host] }
  have hreached : s.Reached signing query 0 t := ⟨rfl, rfl⟩
  obtain ⟨⟨attempts, houtcome, hends, hfailed⟩, hsent⟩ :=
    (firstUsable_delivered hreached rfl endpoints).exhausted fun k e _ => none k e
  have hcontact : (Exchange.contact s.world signing query r.host port).run { readings := 1 } =
      (((Exchange.firstUsable s.world signing query endpoints).run t).1.mapError .transport,
        ((Exchange.firstUsable s.world signing query endpoints).run t).2) := contact_found hfound ..
  rw [exchange_prepared hprepare, hcontact]
  exact ⟨attempts, houtcome, hends, hfailed, firstUsable_lookups endpoints t, hsent⟩

end

/-- **the outcome of an exchange, its lookups and what it sends, in every scripted world** -/
theorem exchange_run (s : Script) (port : UInt16) (r : Request) :
    let outcome := (s.exchange port r).1
    let trace := (s.exchange port r).2
    match r.query (UInt32.ofNat (s.clock 0).toNat) s.id, Signing.ofRequest r with
    | .error e, _ => outcome = .error (.request e) ∧ trace.lookups = [] ∧ trace.sent = []
    | .ok _, .error e => outcome = .error (.signing e) ∧ trace.lookups = [] ∧ trace.sent = []
    | .ok query, .ok signing =>
      trace.lookups = [r.host] ∧
      match s.lookup r.host with
      | .error reason => outcome = .error (.resolution r.host reason) ∧ trace.sent = []
      | .ok [] => outcome = .error (.resolution r.host "no addresses found") ∧ trace.sent = []
      | .ok addresses =>
        s.Delivered signing query (addresses.map fun address => { address, port }) outcome
          trace.sent := by
  dsimp only
  cases hquery : r.query (UInt32.ofNat (s.clock 0).toNat) s.id with
  | error e =>
    rw [exchange_unprepared (by rw [Exchange.prepare, hquery])]
    exact ⟨rfl, rfl, rfl⟩
  | ok query =>
    cases hsigning : Signing.ofRequest r with
    | error e =>
      have hprepare : Exchange.prepare r (s.clock 0) s.id = .error (.signing e) := by
        simp only [Exchange.prepare, hquery, hsigning]
      rw [exchange_unprepared hprepare]
      exact ⟨rfl, rfl, rfl⟩
    | ok signing =>
      have hprepare : Exchange.prepare r (s.clock 0) s.id = .ok (query, signing) := by
        simp only [Exchange.prepare, hquery, hsigning]
      dsimp only
      rw [exchange_prepared hprepare]
      cases hlookup : s.lookup r.host with
      | error reason =>
        rw [contact_failed (by rw [hlookup]; rfl)]
        exact ⟨rfl, rfl, rfl⟩
      | ok addresses =>
        cases addresses with
        | nil =>
          rw [contact_failed (by rw [hlookup]; rfl)]
          exact ⟨rfl, rfl, rfl⟩
        | cons address addresses =>
          rw [contact_found (by rw [hlookup]; rfl)]
          exact ⟨firstUsable_lookups .., firstUsable_delivered ⟨rfl, rfl⟩ rfl _⟩

/-! ## an example -/

def gssRequest : Request :=
  { host := "ns.example", keyName := "k.example.", algorithm := "gss-tsig.", mode := 3 }

/-- the query of that request, a thousand seconds after the epoch -/
def gssQuery : Message where
  header := { id := 7 }
  questions := [⟨["k", "example", ""], .tkey, .any⟩]
  additionals := [⟨["k", "example", ""], .tkey, .any, 0, 26,
    [8, 103, 115, 115, 45, 116, 115, 105, 103, 0, 0, 0, 3, 232, 0, 0, 3, 232, 0, 3, 0, 0, 0, 0,
      0, 0]⟩]

/-- a host whose addresses lead to one machine twice, which does not answer the first time, and to
another, which grants nothing -/
def failover : Script where
  clock := fun _ => 1000
  id := 7
  lookup := fun _ => .ok [.v4 192 0 2 1, .v4 192 0 2 2, .v4 192 0 2 1]
  deliver := fun call _ _ =>
    if call = 0 then .error (.timeout 5000) else .ok [0, 7, 0x80, 0, 0, 0, 0, 0, 0, 0, 0, 0]

/-- the reply of the second address decides the exchange, and the third is not tried -/
theorem exchange_run_failover :
    (failover.exchange 53 gssRequest).1 = .error (.reply .noKey) ∧
      (failover.exchange 53 gssRequest).2.sent.map Prod.fst =
        [{ address := .v4 192 0 2 1, port := 53 }, { address := .v4 192 0 2 2, port := 53 }] := by
  have hquery : gssRequest.query (UInt32.ofNat (failover.clock 0).toNat) failover.id =
      .ok gssQuery := rfl
  have hsigning : Signing.ofRequest gssRequest = .ok (.gss "k.example.") :=
    if_pos (by decide +kernel)
  obtain ⟨bytes, hsigned⟩ : ∃ bytes, ∀ i,
      failover.signed (.gss "k.example.") gssQuery i = .ok ⟨7, bytes, none⟩ := ⟨_, fun _ => rfl⟩
  have hrun := exchange_run failover 53 gssRequest
  rw [hquery, hsigning] at hrun
  have hfound := hrun.2.found 1 _ { header := { id := 7, qr := true } } rfl
    ⟨_, _, hsigned 1, rfl, rfl, rfl, rfl⟩ (by
      intro j hj e he m
      obtain rfl : j = 0 := by omega
      exact (Failed.delivery (hsigned 0) rfl).not_usable m)
  refine ⟨hfound.1, ?_⟩
  rw [hfound.2]
  simp [contacted, sends, hsigned, List.zipIdx]

end Script

end TransactionKey
