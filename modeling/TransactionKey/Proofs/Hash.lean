import TransactionKey.Tsig.Key

/-!
# Sizes of signatures

Every digest has a fixed size, of at most sixty-four bytes, and so has every signature.
-/

namespace TransactionKey

theorem spell_length {α : Type} (words : List α) (w : Nat) (f : α → Nat) :
    (words.flatMap fun x => bigEndian w (f x)).length = words.length * w := by
  induction words with
  | nil => simp
  | cons x words ih =>
    rw [List.flatMap_cons, List.length_append, bigEndian_length, ih, List.length_cons,
      Nat.succ_mul, Nat.add_comm]

namespace Hash

theorem Sha1.digest_length (message : Bytes) : (Sha1.digest message).length = 20 :=
  spell_length ..

theorem Sha2.digest_length {W : Type} [Add W] [AndOp W] [XorOp W] [Complement W]
    (v : Sha2.Variant W) (start : Sha2.State W) (message : Bytes) :
    (Sha2.digest v start message).length = 8 * v.wordSize :=
  spell_length ..

end Hash

namespace Tsig

def Algorithm.digestSize : Algorithm → Nat
  | .sha1 => 20
  | .sha256 => 32
  | .sha384 => 48
  | .sha512 => 64

theorem Algorithm.digest_length (a : Algorithm) (message : Bytes) :
    (a.hash.digest message).length = a.digestSize := by
  cases a with
  | sha1 => exact Hash.Sha1.digest_length message
  | sha256 => exact Hash.Sha2.digest_length Hash.Sha2.bits32 Hash.Sha2.start256 message
  | sha384 =>
    show (List.take 48 (Hash.Sha2.digest _ _ message)).length = 48
    rw [List.length_take, Hash.Sha2.digest_length]
    rfl
  | sha512 => exact Hash.Sha2.digest_length Hash.Sha2.bits64 Hash.Sha2.start512 message

theorem Key.mac_length (key : Key) (message : Bytes) :
    (key.mac message).length = key.algorithm.digestSize :=
  key.algorithm.digest_length _

theorem Key.mac_length_le (key : Key) (message : Bytes) : (key.mac message).length ≤ 64 := by
  rw [key.mac_length]
  cases key.algorithm <;> decide

end Tsig

end TransactionKey
