import TransactionKey.Proofs.Tsig.Signer

/-!
# The check of the time

The seconds from the signing to the clock are a signed number, and the clock is an unsigned one.  So
clocks that are far ahead are read as clocks before the epoch, and one of them has a distance without
an absolute value.

* `verify_eq_timeSkew`    the only check that refuses the time;
* `verify_timeSkew_iff`   it is exact while less than half of all clocks have passed since the signing;
* `accepted_wrapped`      past that there are clocks at which an old reply is accepted.
-/

namespace TransactionKey.Tsig

section
variable {key : Key} {queryMac : Option Bytes} {response : Bytes} {now : UInt64}
  {record : ResourceRecord} {offset : Nat} {s : Signature}
  (hfind : find response = .ok (some (record, offset)))
  (hdata : Signature.ofRdata record.rdata = .ok s)
  (howner : Text.sameAscii record.owner key.name = true)
  (halgorithm : Algorithm.ofName? s.algorithm = some key.algorithm) (herror : s.error = 0)
include hfind hdata howner halgorithm herror

theorem examine_eq_timeSkew {x : Int} :
    examine key queryMac response now = .error (.timeSkew x) ↔
      ¬ Fresh s now ∧ x = (skew s now).toInt := by
  rw [examine_found hfind hdata]
  simp only [guard_eq_error]
  constructor
  · intro h
    -- one case for each check in its order, and the bytes to cover at the end
    rcases h with ⟨-, h⟩ | ⟨-, ⟨-, h⟩ | ⟨-, ⟨-, h⟩ | ⟨-, ⟨hlate, h⟩ | ⟨-, h⟩⟩⟩⟩
    · cases h
    · cases h
    · cases h
    · exact ⟨not_not_intro hlate, TsigError.timeSkew.inj h⟩
    · rcases bind_eq_error.1 h with hcovered | ⟨bytes, -, h⟩
      · obtain ⟨reason, h⟩ := covered_eq_error hcovered
        cases h
      · cases h
  · intro h
    obtain ⟨hlate, rfl⟩ := h
    have hsigner : ¬ (!Text.sameAscii record.owner key.name) = true := by simp [howner]
    exact .inr ⟨hsigner, .inr ⟨not_not_intro halgorithm, .inr ⟨not_not_intro herror,
      .inl ⟨Decidable.not_not.1 hlate, rfl⟩⟩⟩⟩

theorem verify_eq_timeSkew {x : Int} :
    verify key queryMac response now = .error (.timeSkew x) ↔
      ¬ Fresh s now ∧ x = (skew s now).toInt :=
  (verify_eq_error (by nofun)).trans
    (examine_eq_timeSkew hfind hdata howner halgorithm herror)

omit howner halgorithm herror in
theorem fresh_of_verify (h : verify key queryMac response now = .ok ()) : Fresh s now := by
  obtain ⟨s', bytes, hexamine, -⟩ := verify_eq_ok.1 h
  obtain ⟨record', offset', hfind', hdata', -, -, -, hfresh, -⟩ := examine_eq_ok.1 hexamine
  obtain ⟨rfl, -⟩ := Prod.mk.inj (Option.some.inj (Except.ok.inj (hfind.symm.trans hfind')))
  obtain rfl := Except.ok.inj (hdata.symm.trans hdata')
  exact hfresh

/-- **a reply that passes the checks before that of its time is refused for it just if the seconds
that have passed exceed the fudge either way, while they are less than half of all clocks; when they
are just half, it is never refused for its time, and past half it is refused by the seconds to the
signing after the clock has gone round** -/
theorem verify_timeSkew_iff (queryMac : Option Bytes) (now : UInt64) :
    (elapsed s now < 0x8000000000000000 →
      (∀ x, (Signing.keyed key).verify queryMac response now = .error (.timeSkew x) ↔
        x = elapsed s now ∧ s.fudge.toNat < (elapsed s now).natAbs) ∧
      ((Signing.keyed key).verify queryMac response now = .ok () →
        (elapsed s now).natAbs ≤ s.fudge.toNat)) ∧
    (elapsed s now = 0x8000000000000000 →
      ∀ x, (Signing.keyed key).verify queryMac response now ≠ .error (.timeSkew x)) ∧
    (0x8000000000000000 < elapsed s now →
      ∀ x, (Signing.keyed key).verify queryMac response now = .error (.timeSkew x) ↔
        x = elapsed s now - 0x10000000000000000 ∧
          s.fudge.toNat < (elapsed s now - 0x10000000000000000).natAbs) := by
  have hskew := skew_toInt (Signature.fits_of_ofRdata hdata) now
  have htime := (Signature.fits_of_ofRdata hdata).time
  have hrefused (x : Int) :
      (Signing.keyed key).verify queryMac response now = .error (.timeSkew x) ↔
        ¬ Fresh s now ∧ x = (skew s now).toInt :=
    verify_eq_timeSkew hfind hdata howner halgorithm herror
  have hafter : -0x1000000000000 < elapsed s now := by
    unfold elapsed
    omega
  refine ⟨?_, ?_, ?_⟩
  · intro hearly
    rw [if_pos hearly] at hskew
    refine ⟨?_, ?_⟩
    · intro x
      rw [hrefused, fresh_iff_skew, hskew]
      omega
    · intro h
      have hfresh := fresh_iff_skew.1 (fresh_of_verify hfind hdata h)
      omega
  · intro hhalf x h
    rw [if_neg (by omega), hhalf] at hskew
    exact ((hrefused x).1 h).1 (fresh_iff_skew.2 (.inl hskew))
  · intro hlate x
    rw [if_neg (by omega)] at hskew
    rw [hrefused, fresh_iff_skew, hskew]
    omega

end

/-- a signature whose hash is never compared -/
def dated : Signature := Signing.blankSignature sharedKey 7 1000

/-- one second too late, when half of all clocks have passed, and at the last clock -/
theorem verify_timeSkew_iff_dated :
    ∃ response record offset, find response = .ok (some (record, offset)) ∧
      Signature.ofRdata record.rdata = .ok dated ∧
      Text.sameAscii record.owner sharedKey.name = true ∧
      Algorithm.ofName? dated.algorithm = some sharedKey.algorithm ∧ dated.error = 0 ∧
      (Signing.keyed sharedKey).verify none response 1301 = .error (.timeSkew 301) ∧
      (∀ x, (Signing.keyed sharedKey).verify none response 0x80000000000003E8 ≠
        .error (.timeSkew x)) ∧
      (Signing.keyed sharedKey).verify none response 0xFFFFFFFFFFFFFFFF =
        .error (.timeSkew (-1001)) := by
  have hname : (Name.ofText sharedKey.name).Encodable := by decide
  have htext : (Name.ofText sharedKey.name).toText = sharedKey.name := by decide
  have hsize : dated.data.length ≤ ResourceRecord.maxData :=
    Nat.le_trans (Signature.data_length_le sharedKey.algorithm.encodable_name)
      (show 271 + (0 + 0) ≤ ResourceRecord.maxData by decide)
  have hfind := find_push Message.mailReply_wellFormed.toEncodable (by decide) hname hsize
  have hdata := sharedKey.ofRdata_data (s := dated) rfl ⟨by decide, by decide, by decide⟩
  have howner : Text.sameAscii (sharedKey.record dated).normal.owner sharedKey.name = true := by
    rw [Key.owner_record, htext]
    exact beq_self_eq_true _
  have halgorithm := sharedKey.algorithm.ofName?_name
  obtain ⟨hexact, -, -⟩ :=
    verify_timeSkew_iff hfind hdata howner halgorithm rfl none 1301
  obtain ⟨-, hhalf, -⟩ :=
    verify_timeSkew_iff hfind hdata howner halgorithm rfl none 0x80000000000003E8
  obtain ⟨-, -, hround⟩ :=
    verify_timeSkew_iff hfind hdata howner halgorithm rfl none 0xFFFFFFFFFFFFFFFF
  exact ⟨_, _, _, hfind, hdata, howner, halgorithm, rfl,
    ((hexact (by decide)).1 301).2 (by decide), hhalf (by decide),
    (hround (by decide) (-1001)).2 (by decide)⟩

/-! ## replies that are accepted at the wrong time -/

/-- what a holder of the key signs is accepted as long as its time passes the check -/
theorem verify_signed_fresh {key : Key} {m : Message} {time now : UInt64} {fudge : UInt16}
    (hname : (Name.ofText key.name).Encodable) (htext : (Name.ofText key.name).toText = key.name)
    (hm : m.Encodable) (room : m.additionals.length < 65535)
    (htime : time.toNat < 0x1000000000000)
    (hfresh : Fresh { Signing.blankSignature key m.header.id time with fudge } now)
    (queryMac : Option Bytes) :
    ∃ reply record offset s, signedReply key queryMac m time fudge = .ok reply ∧
      find reply.bytes = .ok (some (record, offset)) ∧
      Signature.ofRdata record.rdata = .ok s ∧
      s.time = time ∧ s.fudge = fudge ∧
      (Signing.keyed key).verify queryMac reply.bytes now = .ok () := by
  obtain ⟨fields, hfields⟩ := Key.coveredFields_ok hname
    (s := { Signing.blankSignature key m.header.id time with fudge }) rfl
  have hfits : (sealed key queryMac m time fudge fields).Fits := sealed_fits queryMac htime
  have hsize : (sealed key queryMac m time fudge fields).data.length ≤ ResourceRecord.maxData :=
    sealed_length queryMac
  have hexamine := examine_push hm room hname htext rfl hfits hsize rfl hfresh hfields queryMac
  refine ⟨_, _, _, _, signedReply_eq hname hm room hfields, find_push hm room hname hsize,
    key.ofRdata_data rfl hfits, rfl, rfl, verify_eq_ok.2 ⟨_, _, hexamine, ?_⟩⟩
  rw [← List.append_assoc]
  rfl

/-- a reply is accepted when half of all clocks have passed since its signing, and when the clock is
about to go round to it -/
theorem accepted_wrapped {key : Key} {m : Message} {time now : UInt64} {fudge : UInt16}
    (hname : (Name.ofText key.name).Encodable) (htext : (Name.ofText key.name).toText = key.name)
    (hm : m.Encodable) (room : m.additionals.length < 65535)
    (htime : time.toNat < 0x1000000000000)
    (hround : now.toNat = time.toNat + 0x8000000000000000 ∨
      time.toNat + 0x10000000000000000 ≤ now.toNat + fudge.toNat) (queryMac : Option Bytes) :
    ∃ reply record offset s, signedReply key queryMac m time fudge = .ok reply ∧
      find reply.bytes = .ok (some (record, offset)) ∧
      Signature.ofRdata record.rdata = .ok s ∧ s.fudge.toNat < (elapsed s now).natAbs ∧
      (Signing.keyed key).verify queryMac reply.bytes now = .ok () := by
  let blank : Signature := { Signing.blankSignature key m.header.id time with fudge }
  have hfits : blank.Fits := ⟨htime, Nat.zero_le _, Nat.zero_le _⟩
  have hnow := now.toNat_lt
  have hfudge := fudge.toNat_lt
  have helapsed : elapsed blank now = now.toNat - time.toNat := rfl
  have hskew := skew_toInt hfits now
  rw [if_neg (by omega)] at hskew
  have hfresh : Fresh blank now := by
    have hwithin : blank.fudge.toNat = fudge.toNat := rfl
    apply fresh_iff_skew.2
    omega
  obtain ⟨reply, record, offset, s, hreply, hfind, hdata, rfl, rfl, hverify⟩ :=
    verify_signed_fresh hname htext hm room htime hfresh queryMac
  refine ⟨reply, record, offset, s, hreply, hfind, hdata, ?_, hverify⟩
  unfold elapsed
  omega

/-- a reply of the hundredth second is accepted a hundred seconds before the last clock -/
theorem accepted_wrapped_mailReply :
    ∃ reply record offset s,
      signedReply sharedKey (some [1, 2, 3]) Message.mailReply 100 300 = .ok reply ∧
      find reply.bytes = .ok (some (record, offset)) ∧
      Signature.ofRdata record.rdata = .ok s ∧
      s.fudge.toNat < (elapsed s 0xFFFFFFFFFFFFFF9C).natAbs ∧
      (Signing.keyed sharedKey).verify (some [1, 2, 3]) reply.bytes 0xFFFFFFFFFFFFFF9C = .ok () :=
  accepted_wrapped (by decide) (by decide) Message.mailReply_wellFormed.toEncodable (by decide)
    (by decide) (by decide) (some [1, 2, 3])

end TransactionKey.Tsig
