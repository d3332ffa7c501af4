import TransactionKey.Proofs.Exchange.Signing
import TransactionKey.Proofs.Frame
import TransactionKey.Proofs.Request.Size

/-!
# Queries that do not fit a frame

The limits that are checked when a query is made leave it room to be longer than a frame can hold.
Such a query is refused only where the frame is made: the host has been looked up by then, and there
is a connection.

* `sent_framed`          which requests send a frame, and what becomes of the others;
* `exchange_oversized`   the exchange of a request that sends none.
-/

namespace TransactionKey

namespace Request

/-- **what a request sends has the size of the request and of its signing together; it is sent in a
frame just if that is at most 65535, and otherwise nothing of it is sent on any connection** -/
theorem sent_framed {r : Request} {now : UInt32} {id : UInt16} {query : Message}
    {signing : Signing} {time : UInt64} {sent : SignedQuery} (hquery : r.query now id = .ok query)
    (hsign : signing.sign query time = .ok sent) :
    sent.bytes.length = r.size + signing.size ∧
    ∀ (settings : Settings) (peer : Peer),
      (r.size + signing.size ≤ 65535 → (Frame.converse settings peer sent.bytes).1 =
        bigEndian 2 sent.bytes.length ++ sent.bytes) ∧
      (65535 < r.size + signing.size → Frame.converse settings peer sent.bytes =
        ([], .error (.messageTooLarge (r.size + signing.size)))) := by
  have hlength := sent_length hquery hsign
  refine ⟨hlength, fun settings peer => ⟨fun hfits => ?_, fun hlarge => ?_⟩⟩
  · exact Frame.converse_framed (hlength ▸ hfits) settings peer
  · rw [Frame.converse_oversized (hlength ▸ hlarge), hlength]

theorem filled_size (mode : UInt16) (n : Nat) : (filled mode n).size = 74 + n := by
  have hkeyName : (Name.ofText (filled mode n).keyName).wireLength = 11 :=
    show (Name.ofText "k.example.").wireLength = 11 by decide
  have hextra : (filled mode n).extraRecords = [] := rfl
  rw [size, filled_data, hkeyName, hextra, Header.size, List.map_nil, List.sum_nil]
  omega

/-- such a request has a query while the data of its key record has room, and any key can sign it -/
theorem filled_sent {mode : UInt16} {n : Nat} (hmode : (filled mode n).Supported) (hn : n ≤ 65509)
    {signing : Signing} (hsignable : (filled mode n).Signable signing) (now : UInt32) (id : UInt16)
    (time : UInt64) : ∃ query sent, (filled mode n).query now id = .ok query ∧
      signing.sign query time = .ok sent := by
  have hquery : (filled mode n).query now id = .ok ((filled mode n).message now id) :=
    query_buildable hmode (filled_buildable.2 hn)
  obtain ⟨sent, hsent⟩ := (sign_query_iff hquery time).2 hsignable
  exact ⟨_, sent, hquery, hsent⟩

theorem filled_signable (mode : UInt16) (n : Nat) :
    (filled mode n).Signable (.keyed Tsig.sharedKey) := by
  rintro _ ⟨⟩
  exact ⟨by decide, show 0 < 65534 by decide⟩

/-- a signed query that just fills its frame, and one that is a byte too long -/
theorem sent_framed_filled :
    (∃ query sent, (filled 2 65370).query 1000 7 = .ok query ∧
      (Signing.keyed Tsig.sharedKey).sign query 1000 = .ok sent ∧ sent.bytes.length = 65535 ∧
      ∀ settings peer, (Frame.converse settings peer sent.bytes).1 =
        bigEndian 2 sent.bytes.length ++ sent.bytes) ∧
    ∃ query sent, (filled 2 65371).query 1000 7 = .ok query ∧
      (Signing.keyed Tsig.sharedKey).sign query 1000 = .ok sent ∧
      ∀ settings peer,
        Frame.converse settings peer sent.bytes = ([], .error (.messageTooLarge 65536)) := by
  have hsignature : (Signing.keyed Tsig.sharedKey).size = 91 := by decide
  constructor
  · obtain ⟨query, sent, hquery, hsent⟩ :=
      filled_sent (.inl rfl) (by decide) (filled_signable 2 65370) 1000 7 1000
    obtain ⟨hlength, hframed⟩ := sent_framed hquery hsent
    rw [filled_size, hsignature] at hlength hframed
    exact ⟨query, sent, hquery, hsent, hlength, fun settings peer =>
      (hframed settings peer).1 (by decide)⟩
  · obtain ⟨query, sent, hquery, hsent⟩ :=
      filled_sent (.inl rfl) (by decide) (filled_signable 2 65371) 1000 7 1000
    obtain ⟨-, hframed⟩ := sent_framed hquery hsent
    rw [filled_size, hsignature] at hframed
    exact ⟨query, sent, hquery, hsent, fun settings peer =>
      (hframed settings peer).2 (by decide)⟩

end Request

namespace Script

/-- deliveries over TCP: each call has a connection to its endpoint, or an error -/
def OverTcp (s : Script) (settings : Settings)
    (connection : Nat → Endpoint → Except TransportError Peer) : Prop :=
  ∀ call endpoint bytes, s.deliver call endpoint bytes =
    (Frame.exchange settings (connection call endpoint) bytes).2

/-- why a call cannot deliver a query of `n` bytes: it has no connection, or no frame holds them -/
def Refused (connection : Nat → Endpoint → Except TransportError Peer) (n : Nat)
    (endpoint : Endpoint) (cause : TransportError) : Prop :=
  ∃ call, connection call endpoint = .error cause ∨
    (∃ peer, connection call endpoint = .ok peer) ∧ cause = .messageTooLarge n

section
variable {s : Script} {settings : Settings}
  {connection : Nat → Endpoint → Except TransportError Peer} {signing : Signing} {query : Message}

theorem deliver_oversized (htcp : s.OverTcp settings connection) {bytes : Bytes}
    (hlarge : 65535 < bytes.length) (call : Nat) (endpoint : Endpoint) :
    ∃ cause, s.deliver call endpoint bytes = .error cause ∧
      Refused connection bytes.length endpoint cause := by
  rw [htcp]
  cases hconnection : connection call endpoint with
  | error cause => exact ⟨cause, rfl, call, .inl hconnection⟩
  | ok peer =>
    have hconverse := Frame.converse_oversized hlarge settings peer
    exact ⟨_, congrArg Prod.snd hconverse, call, .inr ⟨⟨peer, hconnection⟩, rfl⟩⟩

/-- an attempt that is signed and cannot be delivered fails for its delivery -/
theorem Failed.of_undelivered {i : Nat} {endpoint : Endpoint} {cause : TransportError}
    {P : TransportError → Prop} (h : s.Failed signing query i endpoint cause)
    (hsigned : ∃ q, s.signed signing query i = .ok q)
    (hdeliver : ∀ q, s.signed signing query i = .ok q → ∀ call,
      ∃ e, s.deliver call endpoint q.bytes = .error e ∧ P e) : P cause := by
  cases h with
  | signing hq =>
    obtain ⟨q, hq'⟩ := hsigned
    rw [hq'] at hq
    cases hq
  | delivery hq hd =>
    obtain ⟨e, he, hP⟩ := hdeliver _ hq _
    rw [he] at hd
    exact Except.error.inj hd ▸ hP
  | parse hq hd | idMismatch hq hd | notAResponse hq hd =>
    obtain ⟨e, he, -⟩ := hdeliver _ hq _
    rw [he] at hd
    cases hd

variable {r : Request} {addresses : List Address}

/-- the exchange of an oversized request looks the host up, and each of its addresses refuses it -/
theorem exchange_oversized (htcp : s.OverTcp settings connection)
    (hquery : r.query (UInt32.ofNat (s.clock 0).toNat) s.id = .ok query)
    (hsigning : Signing.ofRequest r = .ok signing) (hsignable : r.Signable signing)
    (hlarge : 65535 < r.size + signing.size)
    (hfound : Exchange.found (s.lookup r.host) = .ok addresses) (port : UInt16) :
    ∃ attempts, (s.exchange port r).1 = .error (.transport attempts) ∧
      attempts.map Attempt.endpoint = addresses.map (fun address => { address, port }) ∧
      (∀ a ∈ attempts, Refused connection (r.size + signing.size) a.endpoint a.cause) ∧
      (s.exchange port r).2.lookups = [r.host] := by
  have hprepare : Exchange.prepare r (s.clock 0) s.id = .ok (query, signing) := by
    simp only [Exchange.prepare, hquery, hsigning]
  have hrefused {i : Nat} {q : SignedQuery} (hq : s.signed signing query i = .ok q) (call : Nat)
      (endpoint : Endpoint) : ∃ e, s.deliver call endpoint q.bytes = .error e ∧
        Refused connection (r.size + signing.size) endpoint e := by
    have hlength := Request.sent_length hquery hq
    rw [← hlength] at hlarge ⊢
    exact deliver_oversized htcp hlarge call endpoint
  have hunusable : ∀ k e m, ¬ s.Usable signing query k e m := by
    rintro k e m ⟨q, reply, hq, hd, -⟩
    obtain ⟨cause, hcause, -⟩ := hrefused hq (s.calls signing query k) e
    rw [hcause] at hd
    cases hd
  obtain ⟨attempts, houtcome, hends, hfailed, hlookups, -⟩ :=
    exchange_exhausted hprepare hfound hunusable port
  refine ⟨attempts, houtcome, hends, fun a ha => ?_, hlookups⟩
  obtain ⟨k, hk⟩ := List.mem_iff_getElem?.1 ha
  exact (hfailed k a hk).of_undelivered ((Request.sign_query_iff hquery _).2 hsignable)
    fun q hq call => hrefused hq call a.endpoint

end

/-- a host with one address, where connections are taken and closed again -/
def accepting : Script where
  clock := fun _ => 1000
  id := 7
  lookup := fun _ => .ok [.v4 192 0 2 1]
  deliver := fun _ _ bytes => (Frame.exchange {} (.ok ⟨fun _ => [], .closed⟩) bytes).2

/-- a request whose key record is as long as data can be, and whose query is accepted and signed -/
theorem exchange_filled :
    let r := Request.filled 3 65509
    (∃ query, r.query (UInt32.ofNat (accepting.clock 0).toNat) accepting.id = .ok query ∧
      Signing.ofRequest r = .ok (.gss "k.example.") ∧
      ∀ time, ∃ sent, (Signing.gss "k.example.").sign query time = .ok sent ∧
        sent.bytes.length = 65583) ∧
    (accepting.exchange 53 r).2.lookups = ["ns.example"] ∧
    ∃ attempts, (accepting.exchange 53 r).1 = .error (.transport attempts) ∧
      attempts.map Attempt.endpoint = [{ address := .v4 192 0 2 1, port := 53 }] ∧
      ∀ a ∈ attempts, a.cause = .messageTooLarge 65583 := by
  intro r
  have hmode : r.Supported := .inr (.inl rfl)
  have hquery : r.query (UInt32.ofNat (accepting.clock 0).toNat) accepting.id =
      .ok (r.message 1000 7) :=
    Request.query_buildable hmode (Request.filled_buildable.2 (by decide))
  have hsigning : Signing.ofRequest r = .ok (.gss "k.example.") := if_pos (by decide +kernel)
  have hsignable : r.Signable (.gss "k.example.") := nofun
  have hsize : r.size + (Signing.gss "k.example.").size = 65583 := by
    rw [Request.filled_size]
    rfl
  have htcp : accepting.OverTcp {} fun _ _ => .ok ⟨fun _ => [], .closed⟩ := fun _ _ _ => rfl
  obtain ⟨attempts, houtcome, hends, hall, hlookups⟩ :=
    exchange_oversized htcp hquery hsigning hsignable (by omega) rfl 53
  refine ⟨⟨_, hquery, hsigning, fun time => ?_⟩, hlookups, attempts, houtcome, hends, ?_⟩
  · obtain ⟨sent, hsent⟩ := (Request.sign_query_iff hquery time).2 hsignable
    exact ⟨sent, hsent, hsize ▸ Request.sent_length hquery hsent⟩
  · intro a ha
    obtain ⟨call, hrefused | ⟨-, hcause⟩⟩ := hall a ha
    · cases hrefused
    · rw [hcause, hsize]

end Script

end TransactionKey
