import TransactionKey.Bytes

/-!
# Hash functions and keyed hashes

A hash function of the Merkle–Damgård kind pads a message to whole blocks (`pad`) and folds them into
a state (`foldBlocks`).  A keyed hash (HMAC) hashes a message twice, each time after a block made of
the key.

* `Hash`        a hash function with its block size;
* `Hash.hmac`   the keyed hash of a message.
-/

namespace TransactionKey

structure Hash where
  blockSize : Nat
  digest : Bytes → Bytes

namespace Hash

/-! ## padding and folding -/

/-- a message of `size` bytes filled up to whole blocks: a marker, zeros, and the number of bits in
`lengthSize` bytes -/
def padding (blockSize lengthSize size : Nat) : Bytes :=
  let used := (size + 1 + lengthSize) % blockSize
  0x80 :: List.replicate ((blockSize - used) % blockSize) 0 ++ bigEndian lengthSize (size * 8)

def pad (blockSize lengthSize : Nat) (message : Bytes) : Bytes :=
  message ++ padding blockSize lengthSize message.length

/-- folds the whole blocks of a byte string into a state -/
def foldBlocks {σ : Type} (compress : σ → Bytes → σ) (blockSize : Nat) (state : σ)
    (bytes : Bytes) : σ :=
  if blockSize = 0 then state
  else
    match _h : Bytes.take? blockSize bytes with
    | none => state
    | some (block, rest) => foldBlocks compress blockSize (compress state block) rest
termination_by bytes.length
decreasing_by
  obtain ⟨rfl, hlen⟩ := Bytes.take?_eq_some _h
  rw [List.length_append]
  omega

/-! ## keyed hashes -/

/-- a key made as long as a block: hashed if it is longer, then filled with zeros -/
def blockKey (hash : Hash) (key : Bytes) : Bytes :=
  let short := if hash.blockSize < key.length then hash.digest key else key
  short ++ List.replicate (hash.blockSize - short.length) 0

def hmac (hash : Hash) (key message : Bytes) : Bytes :=
  let block := hash.blockKey key
  hash.digest (block.map (· ^^^ 0x5c) ++ hash.digest (block.map (· ^^^ 0x36) ++ message))

end Hash

end TransactionKey
