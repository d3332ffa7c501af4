import TransactionKey.Header
import TransactionKey.Proofs.Decoder

/-!
# The header on the wire

* `decode_accepts`   a header whose codes fit is read back;
* `decode_congr`     what is read after the identifier is decided by the ten bytes after it.
-/

namespace TransactionKey.Header

theorem toWire_eq_ok {h : Header} {bytes : Bytes} :
    h.toWire = .ok bytes ↔ h.Fits ∧ bytes = h.encode := by
  unfold toWire
  split
  · rename_i hf
    simp [hf, eq_comm]
  · rename_i hf
    simp [hf]

theorem encode_length (h : Header) : h.encode.length = size := by
  simp [encode, bigEndian_length, size]

/-- the flags and codes and the first three counts on the wire -/
def middle (h : Header) : Bytes :=
  [UInt8.ofNat h.flagsHigh, UInt8.ofNat h.flagsLow] ++ (bigEndian 2 h.qdcount.toNat ++
    (bigEndian 2 h.ancount.toNat ++ bigEndian 2 h.nscount.toNat))

theorem encode_eq (h : Header) :
    h.encode = bigEndian 2 h.id.toNat ++ (h.middle ++ bigEndian 2 h.arcount.toNat) := by
  simp only [encode, middle, List.append_assoc]

theorem middle_length (h : Header) : h.middle.length = 8 := by
  simp [middle, bigEndian_length]

/-! ## packed flags -/

theorem word_bigEndian (x : UInt16) :
    word (UInt8.ofNat (x.toNat / 256)) (UInt8.ofNat x.toNat) = x := by
  have h := ofBigEndian_uint16 x
  rw [bigEndian_two] at h
  simpa [ofBigEndian, word] using h

theorem beq_one_toNat (b : Bool) : (b.toNat == 1) = b := by cases b <;> rfl

/-- the flags and the code of the first byte, weighed and added up, can be told apart -/
theorem unpack_high {a b c d n : Nat} (ha : a ≤ 1) (hb : b ≤ 1) (hc : c ≤ 1) (hd : d ≤ 1)
    (hn : n < 16) :
    let byte := (a * 128 + n * 8 + b * 4 + c * 2 + d) % 256
    byte / 128 % 2 = a ∧ byte / 8 % 16 = n ∧ byte / 4 % 2 = b ∧ byte / 2 % 2 = c ∧
      byte / 1 % 2 = d := by
  dsimp only
  omega

theorem unpack_low {a z n : Nat} (ha : a ≤ 1) (hz : z < 8) (hn : n < 16) :
    let byte := (a * 128 + z * 16 + n) % 256
    byte / 128 % 2 = a ∧ byte / 16 % 8 = z ∧ byte % 16 = n := by
  dsimp only
  omega

theorem decode_accepts {h : Header} (hf : h.Fits) : Decoder.Accepts decode h.encode h := by
  intro m rest
  obtain ⟨hop, hz, hr⟩ := hf
  obtain ⟨q1, q2, q3, q4, q5⟩ := unpack_high (Bool.toNat_le h.qr) (Bool.toNat_le h.aa)
    (Bool.toNat_le h.tc) (Bool.toNat_le h.rd) (UInt8.lt_iff_toNat_lt.1 hop)
  obtain ⟨r1, r2, r3⟩ := unpack_low (Bool.toNat_le h.ra) (UInt8.lt_iff_toNat_lt.1 hz)
    (UInt8.lt_iff_toNat_lt.1 hr)
  show Except.ok (Header.mk _ _ _ _ _ _ _ _ _ _ _ _ _, size) = .ok (h, h.encode.length)
  simp only [bit, UInt8.toNat_ofNat', flagsHigh, flagsLow, word_bigEndian, q1, q2, q3, q4, q5, r1,
    r2, r3, UInt8.ofNat_toNat, beq_one_toNat, encode_length]

/-! ## what a header is read from -/

theorem decode_eq_ok {m r : Bytes} {h : Header} {n : Nat} (hd : decode m r = .ok (h, n)) :
    n = size ∧ size ≤ r.length := by
  unfold decode at hd
  split at hd
  · obtain ⟨-, rfl⟩ := Prod.mk.inj (Except.ok.inj hd)
    refine ⟨rfl, ?_⟩
    simp only [List.length_cons, size]
    omega
  · cases hd

theorem decode_advances : Decoder.Advances decode := by
  intro m r h n hd
  obtain ⟨rfl, hle⟩ := decode_eq_ok hd
  exact ⟨Nat.succ_pos _, hle⟩

theorem decode_fits : Decoder.Returns decode Fits := by
  intro m r h n hd
  unfold decode at hd
  split at hd
  · obtain ⟨rfl, -⟩ := Prod.mk.inj (Except.ok.inj hd)
    refine ⟨?_, ?_, ?_⟩
    all_goals
      rw [UInt8.lt_iff_toNat_lt, UInt8.toNat_ofNat']
      exact Nat.lt_of_le_of_lt (Nat.mod_le _ _) (Nat.mod_lt _ (by decide))
  · cases hd

theorem decode_congr {m m' r r' : Bytes} {h h' : Header} {n n' : Nat}
    (hd : decode m r = .ok (h, n)) (hd' : decode m' r' = .ok (h', n'))
    (same : (r.drop 2).take 10 = (r'.drop 2).take 10) : h' = { h with id := h'.id } := by
  unfold decode at hd hd'
  split at hd
  · split at hd'
    · obtain ⟨rfl, -⟩ := Prod.mk.inj (Except.ok.inj hd)
      obtain ⟨rfl, -⟩ := Prod.mk.inj (Except.ok.inj hd')
      simp only [List.drop_succ_cons, List.drop_zero, List.take_succ_cons, List.take_zero,
        List.cons.injEq, and_true] at same
      obtain ⟨rfl, rfl, rfl, rfl, rfl, rfl, rfl, rfl, rfl, rfl⟩ := same
      rfl
    · cases hd'
  · cases hd

end TransactionKey.Header
