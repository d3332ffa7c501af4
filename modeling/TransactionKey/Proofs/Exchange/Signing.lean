import TransactionKey.Proofs.Exchange.Run
import TransactionKey.Proofs.Request
import TransactionKey.Proofs.Tsig.KeyName
import TransactionKey.Proofs.Tsig.Signing

/-!
# When the attempts of an exchange are signed

The query of a request and its signing are prepared before the host is looked up, but each attempt
signs anew.  It fails to just if the request is not `Signable`: the key name in lower case is too long,
or there is no room for one more record.

* `attempts_signed`     no attempt fails for its signature, unless all do;
* `signable_of_ascii`   a request whose key name is in ASCII is signable while there is room.
-/

namespace TransactionKey

namespace Request

/-- the signature record of the query can be written, and counted after the key record and the extra
records -/
def Signable (r : Request) (signing : Signing) : Prop :=
  ∀ key, signing = .keyed key → (Name.ofText key.name).Encodable ∧ r.extraRecords.length < 65534

section
variable {r : Request} {signing : Signing}

theorem sign_query_iff {now : UInt32} {id : UInt16} {m : Message} (h : r.query now id = .ok m)
    (time : UInt64) : (∃ q, signing.sign m time = .ok q) ↔ r.Signable signing := by
  obtain ⟨-, rfl, hm⟩ := query_eq_ok.1 h
  have hlength : (r.message now id).additionals.length = r.extraRecords.length + 1 := rfl
  rw [Signing.sign_ok_iff, and_iff_right hm]
  unfold Signing.Admits Signable
  rw [hlength]
  exact forall_congr' fun key => imp_congr_right fun _ => and_congr_right fun _ => by omega

theorem ofRequest_keyed {key : Tsig.Key} (h : Signing.ofRequest r = .ok (.keyed key)) :
    ∃ name algorithm secret, r.credentials.complete? = some (name, algorithm, secret) ∧
      Tsig.Key.ofBase64 name algorithm secret = .ok key := by
  unfold Signing.ofRequest at h
  split at h
  · cases h
  · split at h
    · cases h
    · rename_i name algorithm secret hcredentials
      obtain ⟨key', hkey, hpure⟩ := bind_eq_ok.1 h
      cases hpure
      exact ⟨name, algorithm, secret, hcredentials, hkey⟩

theorem signable_of_ascii (h : Signing.ofRequest r = .ok signing)
    (hname : ∀ credentials, r.credentials.complete? = some credentials →
      Text.IsAscii credentials.1)
    (room : r.extraRecords.length < 65534) : r.Signable signing := by
  rintro key rfl
  obtain ⟨name, algorithm, secret, hcredentials, hkey⟩ := ofRequest_keyed h
  exact ⟨Tsig.Key.encodable_of_ascii hkey (hname _ hcredentials), room⟩

end

end Request

namespace Script

section
variable {s : Script} {signing : Signing} {query : Message} {i : Nat}

theorem Failed.of_unsigned {endpoint : Endpoint} {cause : TransportError}
    (h : s.Failed signing query i endpoint cause)
    (hnone : ¬ ∃ q, s.signed signing query i = .ok q) : ∃ fault, cause = .signing fault := by
  cases h with
  | signing => exact ⟨_, rfl⟩
  | delivery hq | parse hq | idMismatch hq | notAResponse hq => exact absurd ⟨_, hq⟩ hnone

/-- an attempt that failed did so for its signature just if there was none -/
theorem Failed.signing_iff {endpoint : Endpoint} {cause : TransportError}
    (h : s.Failed signing query i endpoint cause)
    (hdeliver : ∀ call endpoint bytes fault,
      s.deliver call endpoint bytes ≠ .error (.signing fault)) :
    (∃ fault, cause = .signing fault) ↔ ¬ ∃ q, s.signed signing query i = .ok q := by
  refine ⟨?_, h.of_unsigned⟩
  rintro ⟨fault, rfl⟩ ⟨q, hq⟩
  cases h with
  | signing hq' =>
    rw [hq] at hq'
    cases hq'
  | delivery hq' hd => exact hdeliver _ _ _ _ hd

/-- a run without a usable reply lists how each attempt failed -/
theorem firstUsable_failed {endpoints : List Endpoint} {attempts : List Attempt} {t t' : Trace}
    (h : s.Reached signing query i t)
    (hrun : (Exchange.firstUsable s.world signing query endpoints).run t = (.error attempts, t')) :
    ∀ a ∈ attempts, ∃ j, s.Failed signing query j a.endpoint a.cause := by
  induction endpoints generalizing i t t' attempts with
  | nil =>
    obtain ⟨hnil, -⟩ := Prod.mk.inj hrun
    obtain rfl := Except.error.inj hnil
    exact List.forall_mem_nil _
  | cons first endpoints ih =>
    obtain ⟨t₁, -, ⟨m, -, hfirst⟩ | ⟨e, hfailed, hreached, hfirst⟩⟩ := attempt_run h first
    · rw [Exchange.firstUsable, run_bind, hfirst] at hrun
      cases hrun
    · rw [Exchange.firstUsable, run_bind, hfirst] at hrun
      simp only [run_bind] at hrun
      cases hrest : (Exchange.firstUsable s.world signing query endpoints).run t₁ with
      | mk result t₂ =>
        rw [hrest] at hrun
        cases result with
        | ok m => cases hrun
        | error others =>
          obtain ⟨hall, -⟩ := Prod.mk.inj hrun
          obtain rfl := Except.error.inj hall
          exact List.forall_mem_cons.2 ⟨⟨i, hfailed⟩, ih hreached hrest⟩

theorem exchange_failed {port : UInt16} {r : Request} {attempts : List Attempt}
    (hprepare : Exchange.prepare r (s.clock 0) s.id = .ok (query, signing))
    (h : (s.exchange port r).1 = .error (.transport attempts)) :
    ∀ a ∈ attempts, ∃ j, s.Failed signing query j a.endpoint a.cause := by
  rw [exchange_prepared hprepare] at h
  cases hfound : Exchange.found (s.lookup r.host) with
  | error reason =>
    rw [contact_failed hfound] at h
    cases h
  | ok addresses =>
    rw [contact_found hfound] at h
    generalize hrun : (Exchange.firstUsable s.world signing query _).run _ = run at h
    obtain ⟨result, t'⟩ := run
    cases result with
    | ok m =>
      -- a usable reply is judged, which is no failure of transport
      have hjudged : (Reply.judge m).mapError ExchangeError.reply =
          .error (.transport attempts) := h
      cases hjudge : Reply.judge m <;> rw [hjudge] at hjudged <;> cases hjudged
    | error attempts' =>
      obtain rfl : attempts' = attempts := by
        cases h
        rfl
      exact firstUsable_failed ⟨rfl, rfl⟩ hrun

end

/-- **an attempt fails for its signature just if the request is not signable**, and so never fails for
it, or always, if the transport does not report such failures itself -/
theorem attempts_signed {s : Script} {port : UInt16} {r : Request} {query : Message}
    {signing : Signing} (hquery : r.query (UInt32.ofNat (s.clock 0).toNat) s.id = .ok query)
    (hsigning : Signing.ofRequest r = .ok signing)
    (hdeliver : ∀ call endpoint bytes fault,
      s.deliver call endpoint bytes ≠ .error (.signing fault)) :
    (∀ time, (∃ q, signing.sign query time = .ok q) ↔ r.Signable signing) ∧
      ∀ attempts, (s.exchange port r).1 = .error (.transport attempts) →
        ∀ a ∈ attempts, (∃ fault, a.cause = .signing fault) ↔ ¬ r.Signable signing := by
  refine ⟨Request.sign_query_iff hquery, fun attempts h a ha => ?_⟩
  have hprepare : Exchange.prepare r (s.clock 0) s.id = .ok (query, signing) := by
    simp only [Exchange.prepare, hquery, hsigning]
  obtain ⟨j, hfailed⟩ := exchange_failed hprepare h a ha
  rw [hfailed.signing_iff hdeliver, signed, Request.sign_query_iff hquery]

/-- an exchange of a request that is not signable looks its host up, and sends nothing -/
theorem exchange_unsignable {s : Script} {r : Request} {query : Message} {signing : Signing}
    {addresses : List Address} (hquery : r.query (UInt32.ofNat (s.clock 0).toNat) s.id = .ok query)
    (hsigning : Signing.ofRequest r = .ok signing) (h : ¬ r.Signable signing)
    (hfound : Exchange.found (s.lookup r.host) = .ok addresses) (port : UInt16) :
    ∃ attempts, (s.exchange port r).1 = .error (.transport attempts) ∧
      attempts.map Attempt.endpoint = addresses.map (fun address => { address, port }) ∧
      (∀ a ∈ attempts, ∃ fault, a.cause = .signing fault) ∧
      (s.exchange port r).2.sent = [] := by
  have hprepare : Exchange.prepare r (s.clock 0) s.id = .ok (query, signing) := by
    simp only [Exchange.prepare, hquery, hsigning]
  have hnone (i : Nat) : ¬ ∃ q, s.signed signing query i = .ok q :=
    mt (Request.sign_query_iff hquery _).1 h
  have hsends (i : Nat) (endpoint : Endpoint) : s.sends signing query i endpoint = [] := by
    unfold sends
    cases hq : s.signed signing query i with
    | ok q => exact absurd ⟨q, hq⟩ (hnone i)
    | error e => rfl
  have hunusable : ∀ k e m, ¬ s.Usable signing query k e m := by
    rintro k e m ⟨q, reply, hq, -⟩
    exact hnone k ⟨q, hq⟩
  obtain ⟨attempts, houtcome, hends, hfailed, -, hsent⟩ :=
    exchange_exhausted hprepare hfound hunusable port
  refine ⟨attempts, houtcome, hends, fun a ha => ?_, ?_⟩
  · obtain ⟨k, hk⟩ := List.mem_iff_getElem?.1 ha
    exact (hfailed k a hk).of_unsigned (hnone k)
  · rw [hsent]
    exact List.flatMap_eq_nil_iff.2 fun _ _ => hsends _ _

/-! ## examples -/

/-- the request to delete a key, signed with a shared key of a name -/
def deletion (keyName : String) : Request where
  host := "ns.example"
  keyName := "k.example."
  algorithm := "hmac-sha256."
  mode := 5
  credentials := ⟨some keyName, some "hmac-sha256.", some "c2VjcmV0"⟩

/-- a host that never answers -/
def silence : Script where
  clock := fun i => UInt64.ofNat (1000 + i)
  id := 7
  lookup := fun _ => .ok [.v4 192 0 2 1, .v4 192 0 2 2]
  deliver := fun _ _ _ => .error (.timeout 5000)

theorem attempts_signed_silence :
    (∀ time, ∃ q, (Signing.keyed ⟨"k.example.", .sha256, [115, 101, 99, 114, 101, 116]⟩).sign
        ((deletion "K.Example.").message 1000 7) time = .ok q) ∧
      ∀ attempts, (silence.exchange 53 (deletion "K.Example.")).1 = .error (.transport attempts) →
        ∀ a ∈ attempts, ¬ ∃ fault, a.cause = .signing fault := by
  have hquery : (deletion "K.Example.").query (UInt32.ofNat (silence.clock 0).toNat) silence.id =
      .ok ((deletion "K.Example.").message 1000 7) := rfl
  have hsigning : Signing.ofRequest (deletion "K.Example.") =
      .ok (.keyed ⟨"k.example.", .sha256, [115, 101, 99, 114, 101, 116]⟩) := by decide +kernel
  have hsignable : (deletion "K.Example.").Signable _ := Request.signable_of_ascii hsigning
    (by rintro _ ⟨⟩; decide) (by decide)
  obtain ⟨hsign, hattempts⟩ := attempts_signed hquery hsigning nofun
  refine ⟨fun time => (hsign time).2 hsignable, fun attempts h a ha => ?_⟩
  rw [hattempts attempts h a ha]
  exact not_not_intro hsignable

/-- a key name of one label in sixty-two bytes, which lower case makes ninety-three -/
def dottedName : String := String.ofList (List.replicate 31 'İ')

def dottedKey : Tsig.Key := .make dottedName .sha256 [115, 101, 99, 114, 101, 116]

theorem exchange_dottedName :
    ∃ query signing, (deletion dottedName).query (UInt32.ofNat (silence.clock 0).toNat) silence.id =
        .ok query ∧ Signing.ofRequest (deletion dottedName) = .ok signing ∧
      (∀ time, ¬ ∃ q, signing.sign query time = .ok q) ∧
      ∃ attempts, (silence.exchange 53 (deletion dottedName)).1 = .error (.transport attempts) ∧
        attempts.length = 2 ∧ ∀ a ∈ attempts, ∃ fault, a.cause = .signing fault := by
  have hquery : (deletion dottedName).query (UInt32.ofNat (silence.clock 0).toNat) silence.id =
      .ok ((deletion dottedName).message 1000 7) := rfl
  have hsigning : Signing.ofRequest (deletion dottedName) =
      .ok (.keyed dottedKey) := by
    decide +kernel
  have hlong : ¬ (Name.ofText dottedKey.name).Encodable := by decide +kernel
  have hunsignable : ¬ (deletion dottedName).Signable _ := fun h =>
    hlong (h dottedKey rfl).1
  obtain ⟨attempts, houtcome, hends, hall, -⟩ :=
    exchange_unsignable hquery hsigning hunsignable rfl 53
  refine ⟨_, _, hquery, hsigning, fun time => ?_, attempts, houtcome, ?_, hall⟩
  · exact mt (Request.sign_query_iff hquery time).1 hunsignable
  · rw [← List.length_map (f := Attempt.endpoint), hends]
    rfl

end Script

end TransactionKey
