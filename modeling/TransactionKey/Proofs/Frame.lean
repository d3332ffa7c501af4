import TransactionKey.Frame

/-!
# Frames

A query that fits a frame is sent in one, and a longer query is not sent.  What comes back is judged
by its bytes alone: bytes that decide the reply still do so when more of them follow
(`reply?_append`), so it makes no difference where they are cut into chunks.

* `Delivered`            what a stream of bytes amounts to as a reply;
* `receive_eq`           chunks give what their bytes give at once;
* `converse_delivered`   what is sent to a peer that closes, and what its bytes amount to.
-/

namespace TransactionKey

namespace Frame

variable {limit : Nat} {cause : TransportError} {result : Except TransportError Bytes}

/-! ## sending -/

section
variable {query : Bytes}

theorem converse_fits (h : query.length ≤ maxLength) (settings : Settings) (peer : Peer) :
    converse settings peer query = (bigEndian 2 query.length ++ query,
      receive settings.maxReply.toNat settings.readTimeout.toNat peer.ending []
        (peer.chunks (bigEndian 2 query.length ++ query))) := by
  have hframe : frame? query = .ok (bigEndian 2 query.length ++ query) := if_neg (Nat.not_lt.2 h)
  rw [converse, hframe]

theorem converse_framed (h : query.length ≤ maxLength) (settings : Settings) (peer : Peer) :
    (converse settings peer query).1 = bigEndian 2 query.length ++ query := by
  rw [converse_fits h]

theorem converse_oversized (h : maxLength < query.length) (settings : Settings) (peer : Peer) :
    converse settings peer query = ([], .error (.messageTooLarge query.length)) := by
  have hframe : frame? query = .error (.messageTooLarge query.length) := if_pos h
  rw [converse, hframe]

end

/-! ## bytes that decide the reply -/

/-- what a stream of bytes amounts to as a reply of at most `limit` bytes, `cause` being what a stream
that stops too early amounts to -/
inductive Delivered (limit : Nat) (cause : TransportError) (stream : Bytes) :
    Except TransportError Bytes → Prop where
  | headless (hshort : stream.length < 2) : Delivered limit cause stream (.error cause)
  | tooLarge {n : Nat} {rest : Bytes} (hn : n ≤ 65535) (hstream : stream = bigEndian 2 n ++ rest)
    (hlarge : limit < n) : Delivered limit cause stream (.error (.messageTooLarge n))
  | cut {n : Nat} {rest : Bytes} (hn : n ≤ 65535) (hstream : stream = bigEndian 2 n ++ rest)
    (hsmall : n ≤ limit) (hcut : rest.length < n) : Delivered limit cause stream (.error cause)
  | whole {body surplus : Bytes} (hn : body.length ≤ 65535)
    (hstream : stream = bigEndian 2 body.length ++ (body ++ surplus))
    (hsmall : body.length ≤ limit) : Delivered limit cause stream (.ok body)

theorem reply?_short {received : Bytes} (h : received.length < 2) : reply? limit received = none := by
  match received with
  | [] | [_] => rfl
  | _ :: _ :: rest =>
    rw [List.length_cons, List.length_cons] at h
    omega

/-- once the length of the reply is there, it decides between refusal and the bytes after it -/
theorem reply?_bigEndian {n : Nat} (hn : n ≤ 65535) (limit : Nat) (rest : Bytes) :
    reply? limit (bigEndian 2 n ++ rest) = if limit < n then some (.error (.messageTooLarge n))
      else (Bytes.take? n rest).map fun (body, _) => .ok body := by
  have hlength : ofBigEndian [UInt8.ofNat (n / 256), UInt8.ofNat n] = n :=
    ofBigEndian_bigEndian_of_lt (w := 2) (Nat.lt_succ_of_le hn)
  rw [bigEndian_two, List.cons_append, List.cons_append, List.nil_append, reply?]
  simp only [hlength]

/-- two bytes are a length -/
theorem exists_length {stream : Bytes} (h : 2 ≤ stream.length) :
    ∃ n ≤ 65535, ∃ rest, stream = bigEndian 2 n ++ rest := by
  match stream with
  | [] | [_] => simp at h
  | high :: low :: rest =>
    have hlt : ofBigEndian [high, low] < 0x10000 := ofBigEndian_lt (w := 2) rfl
    have hbytes : bigEndian 2 (ofBigEndian [high, low]) = [high, low] :=
      bigEndian_ofBigEndian [high, low]
    exact ⟨_, Nat.le_of_lt_succ hlt, rest, by rw [hbytes]; rfl⟩

/-- the bytes that a stream holds decide what it amounts to, and it amounts to nothing else -/
theorem delivered_iff {stream : Bytes} :
    (reply? limit stream).getD (.error cause) = result ↔ Delivered limit cause stream result := by
  constructor
  · rintro rfl
    by_cases hshort : stream.length < 2
    · rw [reply?_short hshort]
      exact .headless hshort
    obtain ⟨n, hn, rest, rfl⟩ := exists_length (Nat.le_of_not_lt hshort)
    rw [reply?_bigEndian hn]
    by_cases hlarge : limit < n
    · rw [if_pos hlarge]
      exact .tooLarge hn rfl hlarge
    rw [if_neg hlarge]
    cases htake : Bytes.take? n rest with
    | none => exact .cut hn rfl (Nat.le_of_not_lt hlarge) (Bytes.take?_eq_none.1 htake)
    | some parts =>
      obtain ⟨rfl, rfl⟩ := Bytes.take?_eq_some htake
      exact .whole hn rfl (Nat.le_of_not_lt hlarge)
  · intro h
    cases h with
    | headless hshort =>
      rw [reply?_short hshort]
      rfl
    | tooLarge hn hstream hlarge =>
      rw [hstream, reply?_bigEndian hn, if_pos hlarge]
      rfl
    | cut hn hstream hsmall hcut =>
      rw [hstream, reply?_bigEndian hn, if_neg (Nat.not_lt.2 hsmall), Bytes.take?_eq_none.2 hcut]
      rfl
    | whole hn hstream hsmall =>
      rw [hstream, reply?_bigEndian hn, if_neg (Nat.not_lt.2 hsmall), Bytes.take?_append]
      rfl

/-! ## chunks -/

theorem reply?_append {received : Bytes} (h : reply? limit received = some result) (more : Bytes) :
    reply? limit (received ++ more) = some result := by
  by_cases hshort : received.length < 2
  · rw [reply?_short hshort] at h
    cases h
  obtain ⟨n, hn, rest, rfl⟩ := exists_length (Nat.le_of_not_lt hshort)
  rw [reply?_bigEndian hn] at h
  rw [List.append_assoc, reply?_bigEndian hn]
  by_cases hlarge : limit < n
  · rwa [if_pos hlarge] at h ⊢
  rw [if_neg hlarge] at h ⊢
  obtain ⟨⟨body, surplus⟩, htake, hbody⟩ := Option.map_eq_some_iff.1 h
  rw [Bytes.take?_append_right htake]
  exact congrArg some hbody

/-- the reply is found after the first chunk that completes it, or in all the bytes together -/
theorem receive_eq (limit timeout : Nat) (ending : Ending) (received : Bytes) (chunks : List Bytes) :
    receive limit timeout ending received chunks =
      (reply? limit (received ++ chunks.flatten)).getD (.error (endingError timeout ending)) := by
  induction chunks generalizing received with
  | nil =>
    rw [receive, List.flatten_nil, List.append_nil]
    cases reply? limit received <;> rfl
  | cons chunk chunks ih =>
    rw [receive, List.flatten_cons]
    cases hreply : reply? limit received with
    | none => rw [ih, List.append_assoc]
    | some result =>
      rw [reply?_append hreply]
      rfl

/-! ## the whole -/

/-- **a query of at most 65535 bytes is sent after its length, and what becomes of it is what the
bytes amount to that the peer sends before it closes; a longer query is refused and nothing is sent** -/
theorem converse_delivered (settings : Settings) (chunks : Bytes → List Bytes) (query : Bytes) :
    (65535 < query.length → converse settings ⟨chunks, .closed⟩ query =
      ([], .error (.messageTooLarge query.length))) ∧
    (query.length ≤ 65535 →
      (converse settings ⟨chunks, .closed⟩ query).1 = bigEndian 2 query.length ++ query ∧
      ∀ result, (converse settings ⟨chunks, .closed⟩ query).2 = result ↔
        Delivered settings.maxReply.toNat (.io "early eof")
          (chunks (bigEndian 2 query.length ++ query)).flatten result) := by
  refine ⟨fun hlarge => converse_oversized hlarge settings _, fun hfits => ?_⟩
  rw [converse_fits hfits]
  refine ⟨rfl, fun result => ?_⟩
  rw [receive_eq, List.nil_append]
  exact delivered_iff

/-- a reply whose length and body are both torn, with a byte after it -/
theorem converse_delivered_torn :
    converse {} ⟨fun _ => [[0], [3, 1], [], [2, 3, 9]], .closed⟩ [7, 8] =
      ([0, 2, 7, 8], .ok [1, 2, 3]) := by
  obtain ⟨-, hfits⟩ := converse_delivered {} (fun _ => [[0], [3, 1], [], [2, 3, 9]]) [7, 8]
  obtain ⟨hsent, hreply⟩ := hfits (by decide)
  have hstream : [0, 3, 1, 2, 3, 9] = bigEndian 2 3 ++ ([1, 2, 3] ++ [9]) := rfl
  have hwhole : Delivered 65535 (.io "early eof") [0, 3, 1, 2, 3, 9] (.ok [1, 2, 3]) :=
    .whole (by decide) hstream (by decide)
  exact Prod.ext hsent ((hreply _).2 hwhole)

end Frame

end TransactionKey
