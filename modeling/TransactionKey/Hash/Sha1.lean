import TransactionKey.Hash

/-!
# SHA-1

Eighty rounds over five words of thirty-two bits.
-/

namespace TransactionKey.Hash.Sha1

structure State where
  a : UInt32
  b : UInt32
  c : UInt32
  d : UInt32
  e : UInt32

def rotate (x : UInt32) (n : UInt32) : UInt32 := (x <<< n) ||| (x >>> (32 - n))

def words : Bytes → List UInt32
  | a :: b :: c :: d :: rest => UInt32.ofNat (ofBigEndian [a, b, c, d]) :: words rest
  | _ => []

/-- adds `n` words to a schedule held last word first, and puts it in order -/
def extend : (n : Nat) → List UInt32 → List UInt32
  | 0, ws => ws.reverse
  | n + 1, ws =>
    extend n (rotate (ws.getD 2 0 ^^^ ws.getD 7 0 ^^^ ws.getD 13 0 ^^^ ws.getD 15 0) 1 :: ws)

/-- one round with its mixing function, constant and schedule word -/
def round (mix : UInt32 → UInt32 → UInt32 → UInt32) (k : UInt32) (s : State) (w : UInt32) :
    State :=
  ⟨rotate s.a 5 + mix s.b s.c s.d + s.e + k + w, s.a, rotate s.b 30, s.c, s.d⟩

def choose (x y z : UInt32) : UInt32 := (x &&& y) ||| (~~~x &&& z)

def parity (x y z : UInt32) : UInt32 := x ^^^ y ^^^ z

def majority (x y z : UInt32) : UInt32 := (x &&& y) ||| (x &&& z) ||| (y &&& z)

def compress (s : State) (block : Bytes) : State :=
  let ws := extend 64 (words block).reverse
  let t := (ws.take 20).foldl (round choose 0x5a827999) s
  let t := ((ws.drop 20).take 20).foldl (round parity 0x6ed9eba1) t
  let t := ((ws.drop 40).take 20).foldl (round majority 0x8f1bbcdc) t
  let t := (ws.drop 60).foldl (round parity 0xca62c1d6) t
  ⟨s.a + t.a, s.b + t.b, s.c + t.c, s.d + t.d, s.e + t.e⟩

def start : State := ⟨0x67452301, 0xefcdab89, 0x98badcfe, 0x10325476, 0xc3d2e1f0⟩

def digest (message : Bytes) : Bytes :=
  let s := foldBlocks compress 64 start (pad 64 8 message)
  [s.a, s.b, s.c, s.d, s.e].flatMap fun w => bigEndian 4 w.toNat

end TransactionKey.Hash.Sha1

namespace TransactionKey.Hash

def sha1 : Hash := ⟨64, Sha1.digest⟩

end TransactionKey.Hash
