import TransactionKey.Proofs.Request

/-!
# Which requests have a query

The limits that a request must keep are checked in several places: the length of the key material,
the algorithm name and the length of the data where the key record is written, and the counts and
owner names where the message is written.  `Buildable` has them together; the time and the identifier
of the query are not among them.

* `query_ok_iff`    the requests that have a query;
* `query_outcome`   what becomes of every request, by its mode.
-/

namespace TransactionKey.Request

/-- the request keeps all limits of the message that asks for it -/
structure Buildable (r : Request) : Prop where
  keyName : (Name.ofText r.keyName).Encodable
  algorithm : (Name.ofText r.algorithm).Encodable
  room : (Name.ofText r.algorithm).wireLength + 16 + r.keyMaterial.length ≤ 65535
  count : r.extraRecords.length ≤ 65534
  owners : ∀ x ∈ r.extraRecords, x.name.Encodable

section
variable {r : Request} {now : UInt32} {id : UInt16}

theorem keyRecord_length : (r.keyRecord now).rdata.length =
    (Name.ofText r.algorithm).wireLength + 16 + r.keyMaterial.length :=
  Tkey.data_length (r.wanted now) r.keyMaterial []

theorem message_writable (h : r.Buildable) : (r.message now id).Writable where
  header := show (0 : UInt8) < 16 ∧ (0 : UInt8) < 8 ∧ (0 : UInt8) < 16 by decide
  sections := ⟨show 1 ≤ 65535 by decide, Nat.zero_le _, Nat.zero_le _, Nat.succ_le_succ h.count⟩
  questions := by
    intro q hq
    rw [List.mem_singleton.1 hq]
    exact h.keyName
  records := by
    intro x hx
    rcases List.mem_cons.1 hx with rfl | hx
    · exact h.keyName
    · exact h.owners x hx

theorem query_buildable (hmode : r.Supported) (h : r.Buildable) :
    r.query now id = .ok (r.message now id) := by
  have hroom := h.room
  have hdata : (r.keyRecord now).rdata.length ≤ ResourceRecord.maxData := by
    rw [keyRecord_length]
    exact hroom
  exact query_eq_ok.2 ⟨⟨hmode, h.algorithm, by omega, hdata⟩, rfl, message_writable h⟩

theorem query_ok_iff : (∃ m, r.query now id = .ok m) ↔ r.Supported ∧ r.Buildable := by
  constructor
  · rintro ⟨m, hquery⟩
    obtain ⟨hr, rfl, hm⟩ := query_eq_ok.1 hquery
    have hroom := hr.data
    rw [keyRecord_length] at hroom
    have hcount : r.extraRecords.length + 1 ≤ 65535 := hm.sections.additionals
    exact ⟨hr.mode, hm.questions _ (List.mem_singleton.2 rfl), hr.algorithm, hroom,
      Nat.le_of_succ_le_succ hcount, fun x hx => hm.records x (List.mem_cons_of_mem _ hx)⟩
  · rintro ⟨hmode, h⟩
    exact ⟨_, query_buildable hmode h⟩

/-! ## requests that have none -/

theorem encoding_eq_error {α : Type} {x : Except WireError α} {e : RequestError}
    (h : encoding x = .error e) : ∃ fault : WireError, e = .encode fault.message := by
  cases x with
  | ok a => cases h
  | error fault => exact ⟨fault, (Except.error.inj h).symm⟩

theorem query_of_tkey_error {e : RequestError} (h : r.tkey now = .error e) :
    r.query now id = .error e :=
  bind_eq_error.2 (.inl h)

theorem tkey_invalid (h : Tkey.Mode.ofValue? r.mode = none) :
    r.tkey now = .error (.invalidMode r.mode) := by
  unfold tkey
  rw [h]

theorem tkey_unsupported {mode : Tkey.Mode} (hmode : r.mode = mode.value)
    (h : mode = .serverAssigned ∨ mode = .resolverAssigned) :
    r.tkey now = .error (.unsupportedMode mode) := by
  unfold tkey
  rw [Tkey.Mode.ofValue?_eq_some.2 hmode]
  rcases h with rfl | rfl <;> rfl

/-- with a mode that a client can ask for, nothing but encoding can fail -/
theorem tkey_supported {e : RequestError} (hmode : r.Supported) (h : r.tkey now = .error e) :
    ∃ fault : WireError, e = .encode fault.message := by
  unfold tkey at h
  rcases hmode with hmode | hmode | hmode <;>
  · rw [hmode, Tkey.Mode.ofValue?_value] at h
    exact encoding_eq_error h

theorem query_supported (hmode : r.Supported) (h : ¬ r.Buildable) :
    ∃ fault : WireError, r.query now id = .error (.encode fault.message) := by
  cases hquery : r.query now id with
  | ok m => exact absurd (query_ok_iff.1 ⟨m, hquery⟩).2 h
  | error e =>
    have hfault : ∃ fault : WireError, e = .encode fault.message := by
      -- the key record, its resource record and the message are made in this order
      simp only [query, bind_eq_error] at hquery
      rcases hquery with htkey | ⟨t, -, hrecord | ⟨record, -, hwire | ⟨_, -, hpure⟩⟩⟩
      · exact tkey_supported hmode htkey
      · exact encoding_eq_error hrecord
      · exact encoding_eq_error hwire
      · cases hpure
    obtain ⟨fault, rfl⟩ := hfault
    exact ⟨fault, rfl⟩

end

/-- **a query fails for an invalid mode, for a mode that is not asked for, or because the request is
not `Buildable`, in this order; whether it does depends on neither the time nor the identifier** -/
theorem query_outcome (r : Request) (now : UInt32) (id : UInt16) :
    (r.mode < 1 ∨ 5 < r.mode → r.query now id = .error (.invalidMode r.mode)) ∧
    (r.mode = 1 → r.query now id = .error (.unsupportedMode .serverAssigned)) ∧
    (r.mode = 4 → r.query now id = .error (.unsupportedMode .resolverAssigned)) ∧
    (r.mode = 2 ∨ r.mode = 3 ∨ r.mode = 5 →
      ((∃ m, r.query now id = .ok m) ↔ r.Buildable) ∧
      (¬ r.Buildable → ∃ fault : WireError, r.query now id = .error (.encode fault.message))) ∧
    ∀ now' id', (∃ m, r.query now' id' = .ok m) ↔ ∃ m, r.query now id = .ok m := by
  refine ⟨?_, ?_, ?_, ?_, ?_⟩
  · intro hmode
    exact query_of_tkey_error (tkey_invalid (Tkey.Mode.ofValue?_eq_none.2 hmode))
  · intro hmode
    exact query_of_tkey_error (tkey_unsupported hmode (.inl rfl))
  · intro hmode
    exact query_of_tkey_error (tkey_unsupported hmode (.inr rfl))
  · intro hmode
    exact ⟨query_ok_iff.trans (and_iff_right hmode), query_supported hmode⟩
  · intro now' id'
    rw [query_ok_iff, query_ok_iff]

/-- a request with `n` bytes of key material -/
def filled (mode : UInt16) (n : Nat) : Request where
  host := "ns.example"
  keyName := "k.example."
  algorithm := "gss-tsig."
  mode := mode
  keyMaterial := List.replicate n 0

theorem filled_data (mode : UInt16) (n : Nat) : (Name.ofText (filled mode n).algorithm).wireLength +
    16 + (filled mode n).keyMaterial.length = 26 + n := by
  have hmaterial : (filled mode n).keyMaterial.length = n := List.length_replicate
  have halgorithm : (Name.ofText (filled mode n).algorithm).wireLength = 10 :=
    show (Name.ofText "gss-tsig.").wireLength = 10 by decide
  rw [hmaterial, halgorithm]

theorem filled_buildable {mode : UInt16} {n : Nat} : (filled mode n).Buildable ↔ n ≤ 65509 := by
  have hdata := filled_data mode n
  constructor
  · intro h
    have hroom := h.room
    omega
  · intro hn
    refine ⟨?_, ?_, by omega, Nat.zero_le _, nofun⟩
    · show (Name.ofText "k.example.").Encodable
      decide
    · show (Name.ofText "gss-tsig.").Encodable
      decide

theorem query_outcome_filled :
    (filled 6 0).query 1000 7 = .error (.invalidMode 6) ∧
    (filled 1 0).query 1000 7 = .error (.unsupportedMode .serverAssigned) ∧
    (filled 4 65510).query 1000 7 = .error (.unsupportedMode .resolverAssigned) ∧
    (∃ m, (filled 3 65509).query 1000 7 = .ok m) ∧
    ∃ fault : WireError, (filled 3 65510).query 1000 7 = .error (.encode fault.message) := by
  obtain ⟨hinvalid, -⟩ := query_outcome (filled 6 0) 1000 7
  obtain ⟨-, hserver, -⟩ := query_outcome (filled 1 0) 1000 7
  obtain ⟨-, -, hresolver, -⟩ := query_outcome (filled 4 65510) 1000 7
  obtain ⟨-, -, -, hfits, -⟩ := query_outcome (filled 3 65509) 1000 7
  obtain ⟨-, -, -, hlong, -⟩ := query_outcome (filled 3 65510) 1000 7
  have hmode : (3 : UInt16) = 2 ∨ (3 : UInt16) = 3 ∨ (3 : UInt16) = 5 := by decide
  refine ⟨hinvalid (.inr (by decide)), hserver rfl, hresolver rfl, ?_, ?_⟩
  · exact (hfits hmode).1.2 (filled_buildable.2 (by decide))
  · exact (hlong hmode).2 (mt filled_buildable.1 (by decide))

end TransactionKey.Request
