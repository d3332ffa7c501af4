import TransactionKey.WireError

/-!
# Decoders

An item of a message may refer back to other places of the message, so its decoder is given the whole
message beside the part that begins at the item.  It answers the item and the number of bytes that
the item takes up at its own place.

* `readAt d message offset`  the item at an offset and the offset just past it;
* `many d count`             consecutive items;
* `bind d e`                 an item whose second part is read with the first part known.
-/

namespace TransactionKey

/-- reads an item at the head of the second byte string, inside the message that is the first -/
abbrev Decoder (α : Type) := (message rest : Bytes) → Except WireError (α × Nat)

namespace Decoder

variable {α : Type}

def readAt (d : Decoder α) (message : Bytes) (offset : Nat) : Except WireError (α × Nat) :=
  match d message (message.drop offset) with
  | .ok (item, taken) => .ok (item, offset + taken)
  | .error e => .error e

/-- reads `count` items one after the other; `done` holds the items so far, last one first, and
`taken` the bytes that they take up -/
def manyFrom (d : Decoder α) (message : Bytes) (done : List α) (taken : Nat) :
    (count : Nat) → (rest : Bytes) → Except WireError (List α × Nat)
  | 0, _ => .ok (done.reverse, taken)
  | count + 1, rest =>
    match d message rest with
    | .ok (item, n) => manyFrom d message (item :: done) (taken + n) count (rest.drop n)
    | .error e => .error e

def many (d : Decoder α) (count : Nat) : Decoder (List α) :=
  fun message rest => manyFrom d message [] 0 count rest

def bind {β : Type} (d : Decoder α) (e : α → Decoder β) : Decoder β := fun message rest =>
  match d message rest with
  | .error fault => .error fault
  | .ok (a, n) =>
    match e a message (rest.drop n) with
    | .error fault => .error fault
    | .ok (b, m) => .ok (b, n + m)

end Decoder

end TransactionKey
