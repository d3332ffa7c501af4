import TransactionKey.Name
import TransactionKey.Decoder

/-!
# Names in messages

A name in a message is a run of labels that ends with a zero byte or with a pointer to an earlier or
later place where the name goes on.  `run` reads such a run; `decode` follows up to `maxPointers`
pointers, while `decodePlain` accepts none.  A name takes up the bytes of its first run only.
-/

namespace TransactionKey.Name

def maxPointers : Nat := 16

/-- the place that the two bytes of a pointer name: their low fourteen bits -/
def target (high low : UInt8) : Nat := (high &&& 0x3F).toNat * 256 + low.toNat

/-- the labels of one run, last one first, the bytes that it takes up, and where the name goes on
if not here -/
structure Run where
  labels : List String
  taken : Nat
  next : Option Nat

/-- reads a run of labels; `labels` and `taken` tell what has been read of the name before -/
def run (labels : List String) (taken : Nat) : Bytes → Except WireError Run
  | [] => .error .badLabel
  | len :: rest =>
    if len &&& 0xC0 = 0xC0 then
      match rest with
      | [] => .error .badLabel
      | low :: _ => .ok ⟨labels, taken + 2, some (target len low)⟩
    else if len = 0 then .ok ⟨labels, taken + 1, none⟩
    else if 63 < len then .error .badLabel
    else
      match Bytes.take? len.toNat rest with
      | none => .error .badLabel
      | some (raw, _) =>
        match Text.ofUtf8? raw with
        | none => .error .badLabel
        | some label => run (label :: labels) (taken + 1 + len.toNat) (rest.drop len.toNat)
termination_by bs => bs.length
decreasing_by simp only [List.length_drop, List.length_cons]; omega

/-- the labels of a name that goes on at `place` after `labels`, by at most `pointers` pointers with
the one to `place`; last label first -/
def follow (message : Bytes) (labels : List String) (place : Nat) :
    (pointers : Nat) → Except WireError (List String)
  | 0 => .error .badLabel
  | pointers + 1 =>
    match run labels 0 (message.drop place) with
    | .error e => .error e
    | .ok ⟨labels, _, none⟩ => .ok labels
    | .ok ⟨labels, _, some place⟩ => follow message labels place pointers

/-- reads a name, compressed or not -/
def decode : Decoder Name := fun message rest =>
  match run [] 0 rest with
  | .error e => .error e
  | .ok ⟨labels, taken, none⟩ => .ok (("" :: labels).reverse, taken)
  | .ok ⟨labels, taken, some place⟩ =>
    match follow message labels place maxPointers with
    | .error e => .error e
    | .ok labels => .ok (("" :: labels).reverse, taken)

/-- reads a name that must not be compressed, as inside signatures and key records -/
def decodePlain : Decoder Name := fun _ rest =>
  match run [] 0 rest with
  | .error e => .error e
  | .ok ⟨labels, taken, none⟩ => .ok (("" :: labels).reverse, taken)
  | .ok ⟨_, _, some _⟩ => .error .badLabel

end TransactionKey.Name
