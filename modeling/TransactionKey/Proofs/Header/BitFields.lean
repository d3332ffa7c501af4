import Mathlib.Algebra.GroupWithZero.Nat
import TransactionKey.Proofs.Decoder.Placed
import TransactionKey.Proofs.Except
import TransactionKey.Proofs.Header

/-!
# The header as bit fields

A header is thirteen numbers of one to sixteen bits that stand one after the other, each with its most
significant bit first.  `BitStream` is all that is asked of a way to write and read such fields;
`toWire` and `decode` pack and unpack the same bits by arithmetic.

* `bits`, `Bytes.bits`    the bits of a number and of a byte string, most significant first;
* `fields`                the fields of a header with their widths, in the order of the wire;
* `bits_encode`           the bits of a written header are those of its fields;
* `decode_encode`         any twelve bytes are read as a header that is written as these bytes;
* `writeBits_eq`, `readBits_eq`   writing and reading field by field is `toWire` and `decode`;
* `readBits_writeBits`    the two are inverse to each other.
-/

namespace TransactionKey

/-! ## bits -/

/-- the last `width` bits of `n`, most significant first -/
def bits : (width n : Nat) → List Bool
  | 0, _ => []
  | width + 1, n => bits width (n / 2) ++ [n % 2 == 1]

def Bytes.bits (bs : Bytes) : List Bool := bs.flatMap fun b => TransactionKey.bits 8 b.toNat

/-- the number that bits spell, most significant first -/
def ofBits (bs : List Bool) : Nat := bs.foldl (fun n b => 2 * n + b.toNat) 0

theorem bits_length (width n : Nat) : (bits width n).length = width := by
  induction width generalizing n with
  | zero => rfl
  | succ width ih => rw [bits, List.length_append, ih, List.length_singleton]

/-- a number that is put together of two is spelt by the bits of the one and then those of the other -/
theorem bits_join {low width : Nat} (h : low < 2 ^ width) (front high : Nat) :
    bits (front + width) (high * 2 ^ width + low) = bits front high ++ bits width low := by
  induction width generalizing low with
  | zero =>
    obtain rfl : low = 0 := Nat.lt_one_iff.1 h
    rw [Nat.pow_zero, Nat.mul_one, bits, List.append_nil]
    rfl
  | succ width ih =>
    have hpow : 2 ^ (width + 1) = 2 * 2 ^ width := Nat.pow_succ'
    have hhalf : (high * 2 ^ (width + 1) + low) / 2 = high * 2 ^ width + low / 2 := by
      rw [hpow, Nat.mul_left_comm]
      omega
    have hlast : (high * 2 ^ (width + 1) + low) % 2 = low % 2 := by
      rw [hpow, Nat.mul_left_comm]
      omega
    have hlow : low / 2 < 2 ^ width := by omega
    rw [← Nat.add_assoc, bits, hhalf, hlast, ih hlow, List.append_assoc]
    rfl

theorem bits_mod (width n : Nat) : bits width (n % 2 ^ width) = bits width n := by
  have hjoin := bits_join (Nat.mod_lt n (Nat.two_pow_pos width)) 0 (n / 2 ^ width)
  rwa [Nat.zero_add, Nat.mul_comm, Nat.div_add_mod, eq_comm] at hjoin

theorem ofBits_concat (bs : List Bool) (b : Bool) : ofBits (bs ++ [b]) = 2 * ofBits bs + b.toNat := by
  simp [ofBits]

theorem ofBits_bits {width n : Nat} (h : n < 2 ^ width) : ofBits (bits width n) = n := by
  induction width generalizing n with
  | zero => exact (Nat.lt_one_iff.1 h).symm
  | succ width ih =>
    have hhalf : n / 2 < 2 ^ width := by omega
    have hlast : (n % 2 == 1).toNat = n % 2 := by
      rcases Nat.mod_two_eq_zero_or_one n with h0 | h1
      · rw [h0]
        rfl
      · rw [h1]
        rfl
    rw [bits, ofBits_concat, ih hhalf, hlast, Nat.div_add_mod]

theorem Bytes.bits_append (bs cs : Bytes) : Bytes.bits (bs ++ cs) = bs.bits ++ cs.bits :=
  List.flatMap_append

/-- the digits of a number to the base 256 spell its bits -/
theorem bits_bigEndian (w n : Nat) : (bigEndian w n).bits = bits (w * 8) n := by
  induction w generalizing n with
  | zero => rfl
  | succ w ih =>
    have hlast : Bytes.bits [UInt8.ofNat n] = bits 8 n := by
      show bits 8 (UInt8.ofNat n).toNat ++ [] = bits 8 n
      rw [List.append_nil, UInt8.toNat_ofNat', bits_mod 8]
    have hjoin := bits_join (Nat.mod_lt n (Nat.two_pow_pos 8)) (w * 8) (n / 2 ^ 8)
    rw [Nat.mul_comm (n / 2 ^ 8), Nat.div_add_mod, bits_mod] at hjoin
    rw [bigEndian, Bytes.bits_append, ih, hlast, Nat.succ_mul]
    exact hjoin.symm

/-! ## bit fields -/

/-- the bits of numbers with their widths, one after the other -/
def fieldBits (fields : List (Nat × Nat)) : List Bool := fields.flatMap fun f => bits f.1 f.2

/-- the numbers packed into one behind another, the last one lowest -/
def packedAfter (n : Nat) (fields : List (Nat × Nat)) : Nat :=
  fields.foldl (fun n f => n * 2 ^ f.1 + f.2) n

theorem bits_packedAfter {fields : List (Nat × Nat)} (h : ∀ f ∈ fields, f.2 < 2 ^ f.1)
    (front n : Nat) :
    bits (front + (fields.map Prod.fst).sum) (packedAfter n fields) =
      bits front n ++ fieldBits fields := by
  induction fields generalizing front n with
  | nil => exact (List.append_nil _).symm
  | cons f fields ih =>
    obtain ⟨hf, hfields⟩ := List.forall_mem_cons.1 h
    have hrest := ih hfields (front + f.1) (n * 2 ^ f.1 + f.2)
    rw [bits_join hf, List.append_assoc, Nat.add_assoc] at hrest
    exact hrest

/-- a number that fields are packed into is spelt by their bits -/
theorem bits_packed {fields : List (Nat × Nat)} (h : ∀ f ∈ fields, f.2 < 2 ^ f.1) :
    bits (fields.map Prod.fst).sum (packedAfter 0 fields) = fieldBits fields := by
  have hpacked := bits_packedAfter h 0 0
  rwa [Nat.zero_add] at hpacked

/-! ## streams of bit fields -/

/-- a way to write and read numbers of some bits, each after the one before it and with its most
significant bit first; a number that does not fit its width is refused -/
structure BitStream where
  Writer : Type
  Reader : Type
  /-- nothing is written yet -/
  blank : Writer
  put : (width value : Nat) → Writer → Except WireError Writer
  /-- the bytes that are written -/
  bytes : Writer → Bytes
  /-- nothing is read yet of these bytes -/
  load : Bytes → Reader
  get : (width : Nat) → Reader → Except WireError (Nat × Reader)
  /-- the bits that are written so far -/
  written : Writer → List Bool
  /-- the bits that are left to read -/
  left : Reader → List Bool
  written_blank : written blank = []
  put_fits : ∀ {width value : Nat}, value < 2 ^ width → ∀ w : Writer, ∃ w',
    put width value w = .ok w' ∧ written w' = written w ++ bits width value
  put_wide : ∀ {width value : Nat}, 2 ^ width ≤ value → ∀ w : Writer,
    put width value w = .error .fieldTooWide
  bytes_written : ∀ {w : Writer} {bs : Bytes}, written w = bs.bits → bytes w = bs
  left_load : ∀ bs : Bytes, left (load bs) = bs.bits
  get_fits : ∀ {width value : Nat}, value < 2 ^ width → ∀ {r : Reader} {rest : List Bool},
    left r = bits width value ++ rest → ∃ r', get width r = .ok (value, r') ∧ left r' = rest

/-- the bytes that bits make up, eight bits a byte -/
def packBits : List Bool → Bytes
  | b7 :: b6 :: b5 :: b4 :: b3 :: b2 :: b1 :: b0 :: rest =>
    UInt8.ofNat (ofBits [b7, b6, b5, b4, b3, b2, b1, b0]) :: packBits rest
  | _ => []

theorem packBits_bits (bs : Bytes) : packBits bs.bits = bs := by
  induction bs with
  | nil => rfl
  | cons b bs ih =>
    show UInt8.ofNat (ofBits (bits 8 b.toNat)) :: packBits (Bytes.bits bs) = b :: bs
    rw [ofBits_bits b.toNat_lt, UInt8.ofNat_toNat, ih]

namespace BitStream

/-- the stream that keeps its bits in a list -/
def plain : BitStream where
  Writer := List Bool
  Reader := List Bool
  blank := []
  put width value w :=
    if value < 2 ^ width then .ok (w ++ bits width value) else .error .fieldTooWide
  bytes := packBits
  load := Bytes.bits
  get width r :=
    if width ≤ r.length then .ok (ofBits (r.take width), r.drop width) else .error .badHeader
  written := id
  left := id
  written_blank := rfl
  put_fits h w := ⟨_, if_pos h, rfl⟩
  put_wide h _ := if_neg (Nat.not_lt.2 h)
  bytes_written h := (congrArg packBits h).trans (packBits_bits _)
  left_load _ := rfl
  get_fits := by
    intro width value hfits r rest hleft
    obtain rfl : r = bits width value ++ rest := hleft
    have hlength := bits_length width value
    have hroom : width ≤ (bits width value ++ rest).length := by
      rw [List.length_append]
      omega
    have hfront : (bits width value ++ rest).take width = bits width value :=
      List.take_left' hlength
    have hback : (bits width value ++ rest).drop width = rest := List.drop_left' hlength
    refine ⟨rest, ?_, rfl⟩
    rw [if_pos hroom, hfront, hback, ofBits_bits hfits]

variable (io : BitStream)

/-- writes numbers, each with its width, one after the other -/
def putAll : List (Nat × Nat) → io.Writer → Except WireError io.Writer
  | [], w => .ok w
  | (width, value) :: fields, w => do
    let w ← io.put width value w
    putAll fields w

/-- reads numbers of some widths one after the other -/
def getAll : List Nat → io.Reader → Except WireError (List Nat × io.Reader)
  | [], r => .ok ([], r)
  | width :: widths, r => do
    let (value, r) ← io.get width r
    let (values, r) ← getAll widths r
    return (value :: values, r)

variable {fields : List (Nat × Nat)}

theorem putAll_fits (h : ∀ f ∈ fields, f.2 < 2 ^ f.1) (w : io.Writer) :
    ∃ w', io.putAll fields w = .ok w' ∧ io.written w' = io.written w ++ fieldBits fields := by
  induction fields generalizing w with
  | nil => exact ⟨w, rfl, (List.append_nil _).symm⟩
  | cons f fields ih =>
    obtain ⟨hf, hfields⟩ := List.forall_mem_cons.1 h
    obtain ⟨w₁, hput, hfirst⟩ := io.put_fits hf w
    obtain ⟨w₂, hrest, hall⟩ := ih hfields w₁
    refine ⟨w₂, bind_eq_ok.2 ⟨w₁, hput, hrest⟩, ?_⟩
    rw [hall, hfirst, List.append_assoc]
    rfl

theorem putAll_wide (h : ∃ f ∈ fields, 2 ^ f.1 ≤ f.2) (w : io.Writer) :
    io.putAll fields w = .error .fieldTooWide := by
  induction fields generalizing w with
  | nil =>
    obtain ⟨f, hmem, -⟩ := h
    cases hmem
  | cons f fields ih =>
    by_cases hf : f.2 < 2 ^ f.1
    · -- the first one is written, so the one that does not fit is among the others
      obtain ⟨w₁, hput, -⟩ := io.put_fits hf w
      obtain ⟨g, hmem, hg⟩ := h
      have hother : g ∈ fields := by
        refine (List.mem_cons.1 hmem).resolve_left ?_
        rintro rfl
        exact absurd hf (Nat.not_lt.2 hg)
      exact bind_eq_error.2 (.inr ⟨w₁, hput, ih ⟨g, hother, hg⟩ w₁⟩)
    · exact bind_eq_error.2 (.inl (io.put_wide (Nat.not_lt.1 hf) w))

theorem getAll_fits (h : ∀ f ∈ fields, f.2 < 2 ^ f.1) {r : io.Reader} {rest : List Bool}
    (hleft : io.left r = fieldBits fields ++ rest) :
    ∃ r', io.getAll (fields.map Prod.fst) r = .ok (fields.map Prod.snd, r') := by
  induction fields generalizing r with
  | nil => exact ⟨r, rfl⟩
  | cons f fields ih =>
    obtain ⟨hf, hfields⟩ := List.forall_mem_cons.1 h
    have hsplit : io.left r = bits f.1 f.2 ++ (fieldBits fields ++ rest) := by
      rw [hleft, ← List.append_assoc]
      rfl
    obtain ⟨r₁, hget, hleft₁⟩ := io.get_fits hf hsplit
    obtain ⟨r₂, hrest⟩ := ih hfields hleft₁
    exact ⟨r₂, bind_eq_ok.2 ⟨_, hget, bind_eq_ok.2 ⟨_, hrest, rfl⟩⟩⟩

end BitStream

namespace Header

/-! ## the fields of a header -/

/-- the fields with their widths, in the order of the wire -/
def fields (h : Header) : List (Nat × Nat) :=
  [(16, h.id.toNat), (1, h.qr.toNat), (4, h.opcode.toNat), (1, h.aa.toNat), (1, h.tc.toNat),
    (1, h.rd.toNat), (1, h.ra.toNat), (3, h.z.toNat), (4, h.rcode.toNat), (16, h.qdcount.toNat),
    (16, h.ancount.toNat), (16, h.nscount.toNat), (16, h.arcount.toNat)]

def widths : List Nat := [16, 1, 4, 1, 1, 1, 1, 3, 4, 16, 16, 16, 16]

/-- the header with these values in its fields -/
def ofValues? : List Nat → Option Header
  | [id, qr, opcode, aa, tc, rd, ra, z, rcode, qdcount, ancount, nscount, arcount] =>
    some {
      id := UInt16.ofNat id
      qr := qr == 1
      opcode := UInt8.ofNat opcode
      aa := aa == 1
      tc := tc == 1
      rd := rd == 1
      ra := ra == 1
      z := UInt8.ofNat z
      rcode := UInt8.ofNat rcode
      qdcount := UInt16.ofNat qdcount
      ancount := UInt16.ofNat ancount
      nscount := UInt16.ofNat nscount
      arcount := UInt16.ofNat arcount }
  | _ => none

theorem widths_eq (h : Header) : h.fields.map Prod.fst = widths := rfl

theorem ofValues?_fields (h : Header) : ofValues? (h.fields.map Prod.snd) = some h := by
  simp only [fields, List.map_cons, List.map_nil, ofValues?, UInt16.ofNat_toNat, UInt8.ofNat_toNat,
    beq_one_toNat]

/-- the codes are the only fields that may be too wide -/
theorem fields_fit {h : Header} : (∀ f ∈ h.fields, f.2 < 2 ^ f.1) ↔ h.Fits := by
  have hbit (b : Bool) : b.toNat < 2 ^ 1 := Bool.toNat_lt b
  have hword (x : UInt16) : x.toNat < 2 ^ 16 := x.toNat_lt
  have hop : h.opcode < 16 ↔ h.opcode.toNat < 2 ^ 4 := UInt8.lt_iff_toNat_lt
  have hz : h.z < 8 ↔ h.z.toNat < 2 ^ 3 := UInt8.lt_iff_toNat_lt
  have hr : h.rcode < 16 ↔ h.rcode.toNat < 2 ^ 4 := UInt8.lt_iff_toNat_lt
  simp only [fields, List.forall_mem_cons, List.not_mem_nil, false_imp_iff, implies_true, hbit,
    hword, Fits, hop, hz, hr, true_and, and_true]

/-- the bits of a written header are those of its fields -/
theorem bits_encode {h : Header} (hf : h.Fits) : h.encode.bits = fieldBits h.fields := by
  have hpart (i n : Nat) : ∀ f ∈ (h.fields.drop i).take n, f.2 < 2 ^ f.1 := fun f hmem =>
    fields_fit.2 hf f (List.mem_of_mem_drop (List.mem_of_mem_take hmem))
  let high := [(1, h.qr.toNat), (4, h.opcode.toNat), (1, h.aa.toNat), (1, h.tc.toNat),
    (1, h.rd.toNat)]
  let low := [(1, h.ra.toNat), (3, h.z.toNat), (4, h.rcode.toNat)]
  have hhigh : bits 8 h.flagsHigh = fieldBits high := by
    have hpack : h.flagsHigh = packedAfter 0 high := by
      show _ = ((((0 * 2 ^ 1 + h.qr.toNat) * 2 ^ 4 + h.opcode.toNat) * 2 ^ 1 + h.aa.toNat) * 2 ^ 1 +
        h.tc.toNat) * 2 ^ 1 + h.rd.toNat
      unfold flagsHigh
      omega
    rw [hpack]
    exact bits_packed (hpart 1 5)
  have hlow : bits 8 h.flagsLow = fieldBits low := by
    have hpack : h.flagsLow = packedAfter 0 low := by
      show _ = ((0 * 2 ^ 1 + h.ra.toNat) * 2 ^ 3 + h.z.toNat) * 2 ^ 4 + h.rcode.toNat
      unfold flagsLow
      omega
    rw [hpack]
    exact bits_packed (hpart 6 3)
  have hflags : Bytes.bits [UInt8.ofNat h.flagsHigh, UInt8.ofNat h.flagsLow] =
      fieldBits high ++ fieldBits low := by
    have hbyte (n : Nat) : Bytes.bits [UInt8.ofNat n] = bits 8 n := bits_bigEndian 1 n
    rw [← hhigh, ← hlow, ← hbyte, ← hbyte, ← Bytes.bits_append]
    rfl
  simp only [encode, Bytes.bits_append, bits_bigEndian, hflags, fieldBits, high, low, fields,
    List.flatMap_cons, List.flatMap_nil, List.append_nil, List.append_assoc, Nat.reduceMul]

/-! ## twelve bytes -/

/-- any twelve bytes are read as a header, and it is written as these bytes -/
theorem decode_encode {bytes : Bytes} (hlength : bytes.length = size) (m rest : Bytes) :
    ∃ h : Header, h.Fits ∧ h.encode = bytes ∧ decode m (bytes ++ rest) = .ok (h, size) := by
  match bytes, hlength with
  | [i1, i0, f1, f0, q1, q0, a1, a0, n1, n0, r1, r0], _ =>
    have hread : decode m ([i1, i0, f1, f0, q1, q0, a1, a0, n1, n0, r1, r0] ++ rest) =
        .ok (_, size) := rfl
    refine ⟨_, decode_fits hread, ?_, hread⟩
    have hword (b1 b0 : UInt8) : bigEndian 2 (word b1 b0).toNat = [b1, b0] := by
      have hspell := bigEndian_uint16 b1 b0
      simpa [ofBigEndian, word] using hspell
    have hbit (b : UInt8) (weight : Nat) : (bit b weight).toNat = b.toNat / weight % 2 := by
      unfold bit
      rcases Nat.mod_two_eq_zero_or_one (b.toNat / weight) with h0 | h1
      · rw [h0]
        rfl
      · rw [h1]
        rfl
    have hhigh : UInt8.ofNat (f1.toNat / 128 % 2 * 128 + f1.toNat / 8 % 16 % 256 * 8 +
        f1.toNat / 4 % 2 * 4 + f1.toNat / 2 % 2 * 2 + f1.toNat / 1 % 2) = f1 := by
      have hlt := f1.toNat_lt
      apply UInt8.toNat_inj.1
      rw [UInt8.toNat_ofNat']
      omega
    have hlow : UInt8.ofNat (f0.toNat / 128 % 2 * 128 + f0.toNat / 16 % 8 % 256 * 16 +
        f0.toNat % 16 % 256) = f0 := by
      have hlt := f0.toNat_lt
      apply UInt8.toNat_inj.1
      rw [UInt8.toNat_ofNat']
      omega
    simp only [encode, flagsHigh, flagsLow, hword, hbit, UInt8.toNat_ofNat', hhigh, hlow,
      List.cons_append, List.nil_append]

theorem decode_short {rest : Bytes} (h : rest.length < size) (m : Bytes) :
    decode m rest = .error .badHeader := by
  unfold decode
  split
  · simp only [List.length_cons, size] at h
    omega
  · rfl

/-! ## field by field -/

/-- writes the fields of a header one after the other -/
def writeBits (io : BitStream) (h : Header) : Except WireError Bytes := do
  return io.bytes (← io.putAll h.fields io.blank)

/-- reads the fields of a header one after the other from twelve bytes -/
def readBits (io : BitStream) : Decoder Header := fun _ rest =>
  match Bytes.take? size rest with
  | none => .error .badHeader
  | some (bytes, _) =>
    match io.getAll widths (io.load bytes) with
    | .error e => .error e
    | .ok (values, _) =>
      match ofValues? values with
      | none => .error .badHeader
      | some h => .ok (h, size)

theorem writeBits_eq (io : BitStream) (h : Header) : writeBits io h = h.toWire := by
  unfold writeBits
  by_cases hf : h.Fits
  · obtain ⟨w, hput, hwritten⟩ := io.putAll_fits (fields_fit.2 hf) io.blank
    rw [io.written_blank, List.nil_append, ← bits_encode hf] at hwritten
    rw [hput, toWire_eq_ok.2 ⟨hf, rfl⟩]
    exact congrArg Except.ok (io.bytes_written hwritten)
  · have hwide : ∃ f ∈ h.fields, 2 ^ f.1 ≤ f.2 := by
      by_contra hnone
      refine hf (fields_fit.1 fun f hmem => Nat.not_le.1 fun hle => hnone ⟨f, hmem, hle⟩)
    rw [io.putAll_wide hwide, toWire, if_neg hf]
    rfl

theorem readBits_eq (io : BitStream) : readBits io = decode := by
  funext m rest
  unfold readBits
  by_cases hroom : size ≤ rest.length
  · have hlength : (rest.take size).length = size := List.length_take_of_le hroom
    have htake : Bytes.take? size rest = some (rest.take size, rest.drop size) := if_pos hlength
    obtain ⟨h, hf, hencode, hread⟩ := decode_encode hlength m (rest.drop size)
    have hleft : io.left (io.load (rest.take size)) = fieldBits h.fields ++ [] := by
      rw [io.left_load, ← hencode, bits_encode hf, List.append_nil]
    obtain ⟨r, hget⟩ := io.getAll_fits (fields_fit.2 hf) hleft
    rw [widths_eq] at hget
    rw [List.take_append_drop] at hread
    rw [htake, hread]
    dsimp only
    rw [hget]
    dsimp only
    rw [ofValues?_fields]
  · have hshort : rest.length < size := Nat.not_le.1 hroom
    rw [Bytes.take?_eq_none.2 hshort, decode_short hshort]

/-- **twelve bytes are read as a header wherever they stand, and it is written as these bytes; a header
is written just if its codes fit their bits, as twelve bytes that hold its fields with their most
significant bits first, and these are read as the header wherever they stand**: field by field over any
stream of bits, and by `toWire` and `decode`, which do the same -/
theorem readBits_writeBits (io : BitStream) :
    (∀ front bytes back : Bytes, bytes.length = size → ∃ h,
      (readBits io).readAt (front ++ bytes ++ back) front.length = .ok (h, front.length + size) ∧
        writeBits io h = .ok bytes) ∧
    (∀ h, ((∃ bytes, writeBits io h = .ok bytes) ↔ h.opcode < 16 ∧ h.z < 8 ∧ h.rcode < 16) ∧
      ∀ bytes, writeBits io h = .ok bytes →
        bytes.length = size ∧ bytes.bits = fieldBits h.fields ∧ ∀ front back : Bytes,
          (readBits io).readAt (front ++ bytes ++ back) front.length =
            .ok (h, front.length + size)) ∧
    (∀ h, writeBits io h = h.toWire) ∧ readBits io = decode := by
  refine ⟨?_, ?_, writeBits_eq io, readBits_eq io⟩
  · intro front bytes back hlength
    obtain ⟨h, hf, rfl, hread⟩ := decode_encode hlength (front ++ bytes ++ back) back
    refine ⟨h, ?_, ?_⟩
    · rw [readBits_eq, Decoder.readAt_eq_ok]
      refine ⟨size, ?_, rfl⟩
      rwa [List.append_assoc, List.drop_left, ← List.append_assoc]
    · rw [writeBits_eq]
      exact toWire_eq_ok.2 ⟨hf, rfl⟩
  · intro h
    rw [writeBits_eq, readBits_eq]
    constructor
    · constructor
      · intro hwritten
        obtain ⟨bytes, hbytes⟩ := hwritten
        exact (toWire_eq_ok.1 hbytes).1
      · intro hf
        exact ⟨h.encode, toWire_eq_ok.2 ⟨hf, rfl⟩⟩
    · intro bytes hbytes
      obtain ⟨hf, rfl⟩ := toWire_eq_ok.1 hbytes
      refine ⟨encode_length h, bits_encode hf, fun front back => ?_⟩
      rw [(decode_accepts hf).readAt, encode_length]

/-- a header whose flags alternate and whose codes differ -/
def flagged : Header where
  id := 0x1234
  qr := true
  opcode := 0xA
  aa := true
  rd := true
  z := 5
  rcode := 0xF
  arcount := 0x0102

def flaggedBytes : Bytes := [0x12, 0x34, 0xD5, 0x5F, 0, 0, 0, 0, 0, 0, 1, 2]

theorem readBits_writeBits_flagged :
    flaggedBytes.length = size ∧ writeBits .plain flagged = .ok flaggedBytes ∧
      flaggedBytes.bits = fieldBits flagged.fields ∧
      (readBits .plain).readAt ([7] ++ flaggedBytes ++ [9]) 1 = .ok (flagged, 13) ∧
      ∃ h, (readBits .plain).readAt ([7] ++ flaggedBytes ++ [9]) 1 = .ok (h, 13) ∧
        writeBits .plain h = .ok flaggedBytes := by
  have hwritten : writeBits .plain flagged = .ok flaggedBytes := by decide +kernel
  obtain ⟨hread, hwrite, -⟩ := readBits_writeBits .plain
  obtain ⟨hlength, hbits, hback⟩ := (hwrite flagged).2 _ hwritten
  exact ⟨hlength, hwritten, hbits, hback [7] [9], hread [7] _ [9] hlength⟩

end Header

end TransactionKey
