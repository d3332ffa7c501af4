import TransactionKey.Request
import TransactionKey.Proofs.Message
import TransactionKey.Proofs.Tkey

/-!
# The query of a request

* `tkey_eq_ok`    which requests have a key record, and which one;
* `query_eq_ok`   which requests have a query, and which one;
* `asked`         the key record that is read in the query.
-/

namespace TransactionKey

theorem Tkey.Mode.ofValue?_eq_some {value : UInt16} {mode : Mode} :
    ofValue? value = some mode ↔ value = mode.value := by
  constructor
  · intro h
    unfold ofValue? at h
    split at h
    case h_6 => cases h
    all_goals
      rename_i hvalue
      obtain rfl := Option.some.inj h
      exact UInt16.toNat_inj.1 hvalue
  · rintro rfl
    exact ofValue?_value mode

theorem Tkey.Mode.ofValue?_eq_none {value : UInt16} :
    ofValue? value = none ↔ value < 1 ∨ 5 < value := by
  have hfive : (5 : UInt16).toNat = 5 := rfl
  rw [UInt16.lt_iff_toNat_lt, UInt16.lt_iff_toNat_lt, UInt16.toNat_one, hfive]
  unfold ofValue?
  split
  case h_6 h1 h2 h3 h4 h5 =>
    refine iff_of_true rfl ?_
    rw [imp_false] at h1 h2 h3 h4 h5
    omega
  all_goals
    rename_i hvalue
    exact iff_of_false nofun (by omega)

namespace Request

theorem encoding_eq_ok {α : Type} {x : Except WireError α} {a : α} :
    encoding x = .ok a ↔ x = .ok a := by
  cases x <;> simp [encoding]

/-- the mode is one that a client can ask for -/
def Supported (r : Request) : Prop :=
  r.mode = Tkey.Mode.diffieHellman.value ∨ r.mode = Tkey.Mode.gss.value ∨
    r.mode = Tkey.Mode.delete.value

instance (r : Request) : Decidable r.Supported := inferInstanceAs (Decidable (_ ∨ _ ∨ _))

/-- when a key asked for at `now` begins and ceases to be valid; a deletion states no times -/
def validity (r : Request) (now : UInt32) : UInt32 × UInt32 :=
  if r.mode = Tkey.Mode.delete.value then (0, 0) else (now, now + r.lifetime)

/-- the key record of the query -/
def wanted (r : Request) (now : UInt32) : Tkey :=
  .holding r.keyName r.algorithm r.mode (r.validity now).1 (r.validity now).2 r.keyMaterial

/-- the key record that is read in the query -/
def asked (r : Request) (now : UInt32) : Tkey where
  name := (Name.ofText r.keyName).toText
  algorithm := (Name.ofText r.algorithm).toText
  mode := r.mode
  inception := (r.validity now).1
  expiration := (r.validity now).2
  keySize := UInt16.ofNat r.keyMaterial.length
  key := Hex.encode r.keyMaterial
  error := 0
  otherSize := 0
  otherData := ""

/-- the resource record of the key record -/
def keyRecord (r : Request) (now : UInt32) : ResourceRecord :=
  (r.wanted now).record r.keyMaterial []

def message (r : Request) (now : UInt32) (id : UInt16) : Message where
  header := { id }
  questions := [⟨Name.ofText r.keyName, .tkey, .any⟩]
  additionals := r.keyRecord now :: r.extraRecords

section
variable {r : Request} {now : UInt32}

theorem period_eq_ok {mode : Tkey.Mode} (h : r.mode = mode.value) {span : UInt32 × UInt32} :
    r.period mode now = .ok span ↔ r.Supported ∧ span = r.validity now := by
  unfold Supported validity
  rw [h]
  cases mode <;> simp [period, Tkey.Mode.value, eq_comm]

theorem tkey_eq_ok {t : Tkey} :
    r.tkey now = .ok t ↔ r.Supported ∧ r.keyMaterial.length ≤ 65535 ∧ t = r.wanted now := by
  unfold tkey
  cases hmode : Tkey.Mode.ofValue? r.mode with
  | none =>
    refine iff_of_false nofun fun ⟨hs, _⟩ => ?_
    rcases hs with hs | hs | hs <;> rw [hs, Tkey.Mode.ofValue?_value] at hmode <;> cases hmode
  | some mode =>
    have hvalue := Tkey.Mode.ofValue?_eq_some.1 hmode
    simp only [bind_eq_ok, period_eq_ok hvalue, encoding_eq_ok, Tkey.make_eq_ok, ← hvalue]
    constructor
    · rintro ⟨_, ⟨hs, rfl⟩, hsize, rfl⟩
      exact ⟨hs, hsize, rfl⟩
    · rintro ⟨hs, hsize, rfl⟩
      exact ⟨_, ⟨hs, rfl⟩, hsize, rfl⟩

/-- the key record of a request can be written -/
structure Encodable (r : Request) (now : UInt32) : Prop where
  mode : r.Supported
  algorithm : (Name.ofText r.algorithm).Encodable
  material : r.keyMaterial.length ≤ 65535
  data : (r.keyRecord now).rdata.length ≤ ResourceRecord.maxData

theorem Encodable.holds (h : r.Encodable now) : (r.wanted now).Holds r.keyMaterial [] :=
  (Tkey.holds_holding h.material).2 ⟨h.algorithm, rfl, rfl⟩

theorem query_eq_ok {id : UInt16} {m : Message} :
    r.query now id = .ok m ↔ r.Encodable now ∧ m = r.message now id ∧ m.Writable := by
  simp only [query, bind_eq_ok, tkey_eq_ok, encoding_eq_ok, Tkey.toRecord_eq_ok,
    Message.toWire_eq_ok, pure_eq_ok]
  constructor
  · rintro ⟨_, ⟨hs, hsize, rfl⟩, _, ⟨key, other, hholds, hdata, rfl⟩, _, ⟨hm, -⟩, rfl⟩
    obtain ⟨hname, rfl, rfl⟩ := (Tkey.holds_holding hsize).1 hholds
    exact ⟨⟨hs, hname, hsize, hdata⟩, rfl, hm⟩
  · rintro ⟨h, rfl, hm⟩
    exact ⟨_, ⟨h.mode, h.material, rfl⟩, _, ⟨_, _, h.holds, h.data, rfl⟩, _, ⟨hm, rfl⟩, rfl⟩

theorem ofRecord_keyRecord (h : r.Encodable now) :
    Tkey.ofRecord (r.keyRecord now) = .ok (r.asked now) := Tkey.ofRecord_record h.holds

end

end Request

end TransactionKey
