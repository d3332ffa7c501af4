import TransactionKey.Proofs.Name.Lowercase
import TransactionKey.Proofs.Tsig.KeyName
import TransactionKey.Proofs.Tsig.Signing

/-!
# The name that signs a query

A key signs in its name, which is the configured one in lower case, and Unicode has more letters to
lower than the canonical form of a name does.

* `sign_record`   a signed query ends with a record of the key, whose name the signature covers first;
* `sign_owner`    that name is the configured one in canonical form just if it has no capitals beyond
                  ASCII.
-/

namespace TransactionKey.Tsig

section
variable {text algorithm secret : String} {key : Key} {m : Message} {time : UInt64} {q : SignedQuery}

/-- the name stands before the other fields of the record that is added, and at the head of what the
signature covers of the record -/
structure SignedAs (key : Key) (m : Message) (time : UInt64) (q : SignedQuery) (name : Bytes) :
    Prop where
  owner : ∃ (bytes front : Bytes) (record : ResourceRecord), m.toWire = .ok bytes ∧
    addToCount 1 bytes = .ok front ∧ record.type = .tsig ∧ q.bytes = front ++ (name ++ record.fields)
  covered : ∃ (bytes tail : Bytes), m.toWire = .ok bytes ∧
    (Signing.blankSignature key m.header.id time).coveredFields key.name = .ok (name ++ tail) ∧
    q.mac = some (key.mac (bytes ++ (name ++ tail)))

/-- both names of a signed query are that of the key, if it has no ASCII capitals -/
theorem sign_record (hname : (Name.ofText key.name).canonicalWire = (Name.ofText key.name).toWire)
    (hsign : (Signing.keyed key).sign m time = .ok q) :
    ∃ name, (Name.ofText key.name).toWire = .ok name ∧ SignedAs key m time q name := by
  obtain ⟨hm, hadmits, fields, hfields, rfl⟩ := Signing.sign_keyed_eq_ok.1 hsign
  obtain ⟨hencodable, room⟩ := hadmits key rfl
  have hwire : m.toWire = .ok m.encode := Message.toWire_eq_ok.2 ⟨hm, rfl⟩
  obtain ⟨name, tail, hkeyName, rfl⟩ : ∃ name tail,
      (Name.ofText key.name).toWire = .ok name ∧ fields = name ++ tail := by
    obtain ⟨name, _, hkeyName, -, hcovered⟩ := Signature.coveredFields_eq_ok.1 hfields
    exact ⟨name, _, hname ▸ hkeyName, hcovered⟩
  obtain ⟨-, rfl⟩ := Name.toWire_eq_ok.1 hkeyName
  let record := key.record
    (sealed key none m time Signing.fudge ((Name.ofText key.name).encode ++ tail))
  have hcount := (addToCount_encode_eq_ok hm.sections record).2 ⟨room, rfl⟩
  exact ⟨_, hkeyName, ⟨_, _, record, hwire, hcount, rfl, Message.encode_push m record⟩,
    ⟨_, tail, hwire, hfields, rfl⟩⟩

/-- **a query is signed in the configured name of the key, in canonical form, just if each of its
characters beyond ASCII is its own lower-case form; in any case it is signed in the name that the
lower-case form of the text spells** -/
theorem sign_owner (hkey : Key.ofBase64 text algorithm secret = .ok key)
    (hsign : (Signing.keyed key).sign m time = .ok q) :
    ∃ name, (Name.ofText (Text.lowercase text)).toWire = .ok name ∧ SignedAs key m time q name ∧
      ((Name.ofText text).canonicalWire = .ok name ↔ ∀ c ∈ text.toList, Text.LowersInAscii c) := by
  obtain ⟨hencodable, hlower⟩ := Key.ofBase64_eq_ok hkey
  have hcanonical := Name.canonicalWire_ofText_lowercase text
  rw [← hlower] at hcanonical
  obtain ⟨name, hname, hsigned⟩ := sign_record hcanonical hsign
  rw [hlower] at hname
  refine ⟨name, hname, hsigned, ?_⟩
  rw [← hname]
  exact Name.canonicalWire_eq_lowercase hencodable

end

/-! ## examples -/

/-- the capitals of this name are in ASCII, and its other letter is small -/
theorem sign_owner_sharedKey :
    Key.ofBase64 "Schlüssel.Example." "hmac-sha256." "czNj" = .ok sharedKey ∧
      ∃ q name, (Signing.keyed sharedKey).sign Message.mailReply 1000 = .ok q ∧
        SignedAs sharedKey Message.mailReply 1000 q name ∧
        (Name.ofText "Schlüssel.Example.").canonicalWire = .ok name := by
  have hkey : Key.ofBase64 "Schlüssel.Example." "hmac-sha256." "czNj" = .ok sharedKey := by
    decide +kernel
  have hadmits : (Signing.keyed sharedKey).Admits Message.mailReply := by
    intro key h
    cases h
    decide
  have hok : ∃ q, (Signing.keyed sharedKey).sign Message.mailReply 1000 = .ok q :=
    Signing.sign_ok_iff.2 ⟨Message.mailReply_wellFormed.toEncodable.writable, hadmits⟩
  obtain ⟨q, hsign⟩ := hok
  have hletters : ∀ c ∈ "Schlüssel.Example.".toList, Text.LowersInAscii c := by
    have hsmall : Text.LowersInAscii 'ü' := by decide +kernel
    have hall : ("Schlüssel.Example.".toList.all fun c => c.toNat < 128 ∨ c = 'ü') = true := by
      decide
    intro c hc hbeyond
    rcases of_decide_eq_true (List.all_eq_true.1 hall c hc) with hascii | rfl
    · exact absurd hascii (Nat.not_lt.2 hbeyond)
    · exact hsmall hbeyond
  obtain ⟨name, -, hsigned, hcanonical⟩ := sign_owner hkey hsign
  exact ⟨hkey, q, name, hsign, hsigned, hcanonical.2 hletters⟩

/-- a key that is named by the sign of the unit kelvin, whose lower-case form is the letter k -/
def kelvinKey : Key := ⟨"k.", .sha256, [0x73, 0x65, 0x63, 0x72, 0x65, 0x74]⟩

/-- it signs in another name -/
theorem sign_record_kelvinKey :
    Key.ofBase64 "\u212A." "hmac-sha256." "c2VjcmV0" = .ok kelvinKey ∧
      (Name.ofText "\u212A.").canonicalWire = .ok [3, 0xE2, 0x84, 0xAA, 0] ∧
      ∃ q, (Signing.keyed kelvinKey).sign Message.mailReply 1000 = .ok q ∧
        SignedAs kelvinKey Message.mailReply 1000 q [1, 0x6B, 0] := by
  have hadmits : (Signing.keyed kelvinKey).Admits Message.mailReply := by
    intro key h
    cases h
    decide
  have hok : ∃ q, (Signing.keyed kelvinKey).sign Message.mailReply 1000 = .ok q :=
    Signing.sign_ok_iff.2 ⟨Message.mailReply_wellFormed.toEncodable.writable, hadmits⟩
  obtain ⟨q, hsign⟩ := hok
  obtain ⟨name, hname, hsigned⟩ := sign_record (by decide +kernel) hsign
  have hwire : (Name.ofText kelvinKey.name).toWire = .ok [1, 0x6B, 0] := by decide +kernel
  obtain rfl := Except.ok.inj (hname.symm.trans hwire)
  exact ⟨by decide +kernel, by decide +kernel, q, hsign, hsigned⟩

end TransactionKey.Tsig
