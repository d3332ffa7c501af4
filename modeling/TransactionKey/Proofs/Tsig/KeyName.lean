import TransactionKey.Proofs.Name.Spelling
import TransactionKey.Proofs.Text.Lowercase
import TransactionKey.Proofs.Tsig.Signature

/-!
# Names of shared keys

The name of a key is checked as it is configured and kept in lower case, which may be longer.  A name
in ASCII keeps its size, so that it can still be written (`Key.encodable_of_ascii`).
-/

namespace TransactionKey

def Text.IsAscii (s : String) : Prop := ∀ c ∈ s.toList, c.toNat < 128

instance (s : String) : Decidable (Text.IsAscii s) :=
  List.decidableBAll (fun c : Char => c.toNat < 128) s.toList

theorem Text.lowercase_ascii {s : String} (h : IsAscii s) : lowercase s = lowerAscii s :=
  lowercase_eq_lowerAscii.2 fun c hc hbeyond => absurd (h c hc) (Nat.not_lt.2 hbeyond)

namespace Tsig

theorem Key.ofBase64_eq_ok {name algorithm secret : String} {key : Key}
    (h : ofBase64 name algorithm secret = .ok key) :
    (Name.ofText name).Encodable ∧ key.name = Text.lowercase name := by
  unfold ofBase64 at h
  split at h
  · cases h
  · obtain ⟨_, hwire, h⟩ := bind_eq_ok.1 h
    split at h
    · cases h
    · obtain rfl := Except.ok.inj h
      exact ⟨(Name.toWire_eq_ok.1 (TsigError.onWire_eq_ok.1 hwire)).1, rfl⟩

/-- a configured name in ASCII can still be written once it is in lower case -/
theorem Key.encodable_of_ascii {name algorithm secret : String} {key : Key}
    (h : ofBase64 name algorithm secret = .ok key) (hascii : Text.IsAscii name) :
    (Name.ofText key.name).Encodable := by
  obtain ⟨hname, hlower⟩ := ofBase64_eq_ok h
  rw [hlower, Text.lowercase_ascii hascii, Name.ofText_lowerAscii]
  exact hname.canonical

end Tsig

end TransactionKey
