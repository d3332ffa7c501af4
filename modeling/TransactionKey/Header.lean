import TransactionKey.Decoder

/-!
# The message header

Twelve bytes: the identifier, sixteen bits of flags and codes, and four section counts.  `toWire`
and `decode` pack and unpack the flags from the most significant bit down; a code that does not fit
its bits is refused.
-/

namespace TransactionKey

structure Header where
  id : UInt16 := 0
  qr : Bool := false
  opcode : UInt8 := 0
  aa : Bool := false
  tc : Bool := false
  rd : Bool := false
  ra : Bool := false
  z : UInt8 := 0
  rcode : UInt8 := 0
  qdcount : UInt16 := 0
  ancount : UInt16 := 0
  nscount : UInt16 := 0
  arcount : UInt16 := 0
deriving DecidableEq, Repr, Inhabited

namespace Header

def size : Nat := 12

/-- whether the codes fit their bits -/
def Fits (h : Header) : Prop := h.opcode < 16 ∧ h.z < 8 ∧ h.rcode < 16

instance (h : Header) : Decidable h.Fits := inferInstanceAs (Decidable (_ ∧ _ ∧ _))

/-- the first byte of flags: response, operation, authoritative, truncated, recursion desired -/
def flagsHigh (h : Header) : Nat :=
  h.qr.toNat * 128 + h.opcode.toNat * 8 + h.aa.toNat * 4 + h.tc.toNat * 2 + h.rd.toNat

/-- the second byte of flags: recursion available, reserved bits, response code -/
def flagsLow (h : Header) : Nat := h.ra.toNat * 128 + h.z.toNat * 16 + h.rcode.toNat

/-- the twelve bytes of a header whose codes fit -/
def encode (h : Header) : Bytes :=
  bigEndian 2 h.id.toNat ++ [UInt8.ofNat h.flagsHigh, UInt8.ofNat h.flagsLow]
    ++ bigEndian 2 h.qdcount.toNat ++ bigEndian 2 h.ancount.toNat
    ++ bigEndian 2 h.nscount.toNat ++ bigEndian 2 h.arcount.toNat

def toWire (h : Header) : Except WireError Bytes :=
  if h.Fits then .ok h.encode else .error .fieldTooWide

/-- whether a byte has the bit of a weight -/
def bit (b : UInt8) (weight : Nat) : Bool := b.toNat / weight % 2 == 1

def word (high low : UInt8) : UInt16 := UInt16.ofNat (high.toNat * 256 + low.toNat)

def decode : Decoder Header := fun _ rest =>
  match rest with
  | i1 :: i0 :: f1 :: f0 :: q1 :: q0 :: a1 :: a0 :: n1 :: n0 :: r1 :: r0 :: _ =>
    .ok ({ id := word i1 i0
           qr := bit f1 128
           opcode := UInt8.ofNat (f1.toNat / 8 % 16)
           aa := bit f1 4
           tc := bit f1 2
           rd := bit f1 1
           ra := bit f0 128
           z := UInt8.ofNat (f0.toNat / 16 % 8)
           rcode := UInt8.ofNat (f0.toNat % 16)
           qdcount := word q1 q0
           ancount := word a1 a0
           nscount := word n1 n0
           arcount := word r1 r0 }, size)
  | _ => .error .badHeader

end Header

end TransactionKey
