import TransactionKey.Name.Decode
import TransactionKey.Proofs.Decoder
import TransactionKey.Proofs.Except

/-!
# Names on the wire

The bytes of a run of labels are `spell labels` and then a `Stop`: the zero byte, or a pointer.
`run_eq_ok` says that `run` reads exactly these byte strings, from which follow

* `run_congr`              a run depends on nothing but the bytes that it takes up;
* `decode_accepts`         what `encode` writes is read back as `normal name`;
* `decode_coextensive`     the extent of a name does not depend on the places that it points to;
* `encode_append_inj`      written names are self-delimiting.
-/

namespace TransactionKey.Name

/-! ## names that can be written -/

def Encodable (name : Name) : Prop :=
  (∀ label ∈ name.proper, label.utf8ByteSize ≤ 63) ∧ name.wireLength ≤ 255

instance (name : Name) : Decidable name.Encodable := inferInstanceAs (Decidable (_ ∧ _))

/-- the form in which names are read: the labels that count and the root label -/
def normal (name : Name) : Name := name.proper ++ [""]

/-- a label that can be written -/
def IsLabel (label : String) : Prop := label ≠ "" ∧ label.utf8ByteSize ≤ 63

theorem check_eq_ok {name : Name} : name.check = .ok () ↔ name.Encodable := by
  unfold check Encodable
  split
  · rename_i label hfind
    obtain hlong := List.find?_some hfind
    have hmem := List.mem_of_find?_eq_some hfind
    refine iff_of_false (by simp) fun h => ?_
    have := h.1 label hmem
    simp at hlong
    omega
  · rename_i hfind
    have hall : ∀ label ∈ name.proper, label.utf8ByteSize ≤ 63 := by simpa using hfind
    split
    · refine iff_of_false (by simp) fun h => ?_
      have := h.2
      omega
    · exact iff_of_true rfl ⟨hall, by omega⟩

theorem toWire_eq_ok {name : Name} {bytes : Bytes} :
    name.toWire = .ok bytes ↔ name.Encodable ∧ bytes = name.encode := by
  simp only [toWire, bind_eq_ok, ← check_eq_ok, pure_eq_ok]
  exact ⟨fun ⟨_, h⟩ => h, fun h => ⟨(), h⟩⟩

theorem canonicalWire_eq_ok {name : Name} {bytes : Bytes} :
    name.canonicalWire = .ok bytes ↔ name.Encodable ∧ bytes = name.canonical.encode := by
  simp only [canonicalWire, bind_eq_ok, ← check_eq_ok, pure_eq_ok]
  exact ⟨fun ⟨_, h⟩ => h, fun h => ⟨(), h⟩⟩

theorem mem_proper {name : Name} {label : String} :
    label ∈ name.proper ↔ label ∈ name ∧ label ≠ "" := by simp [proper]

theorem Encodable.isLabel {name : Name} (h : name.Encodable) :
    ∀ label ∈ name.proper, IsLabel label :=
  fun label hl => ⟨(mem_proper.1 hl).2, h.1 label hl⟩

theorem proper_append (a b : Name) : proper (a ++ b) = a.proper ++ b.proper :=
  List.filter_append ..

theorem proper_complete {labels : List String} (h : ∀ label ∈ labels, label ≠ "") :
    proper (labels ++ [""]) = labels := by
  rw [proper_append, proper, List.filter_eq_self.2 fun label hl => decide_eq_true (h label hl)]
  exact List.append_nil labels

theorem proper_normal (name : Name) : name.normal.proper = name.proper := by
  simp [normal, proper]

/-! ## spelling -/

/-- labels on the wire, each after its length -/
def spell (labels : List String) : Bytes :=
  labels.flatMap fun label => UInt8.ofNat label.utf8ByteSize :: Text.utf8 label

theorem spell_cons (label : String) (labels : List String) :
    spell (label :: labels) =
      UInt8.ofNat label.utf8ByteSize :: (Text.utf8 label ++ spell labels) := rfl

theorem encode_eq (name : Name) : name.encode = spell name.proper ++ [0] := rfl

theorem encode_normal (name : Name) : name.normal.encode = name.encode := by
  rw [encode_eq, encode_eq, proper_normal]

theorem encode_length (name : Name) : name.encode.length = name.wireLength := by
  have fold (labels : List String) (n : Nat) :
      labels.foldl (fun n label => n + (label.utf8ByteSize + 1)) n = n + (spell labels).length := by
    induction labels generalizing n with
    | nil => rfl
    | cons label labels ih =>
      rw [List.foldl_cons, ih, spell_cons, List.length_cons, List.length_append,
        Text.utf8_length]
      omega
  rw [wireLength, fold, encode_eq, List.length_append, List.length_singleton]
  omega

theorem wireLength_normal (name : Name) : name.normal.wireLength = name.wireLength := by
  rw [← encode_length, encode_normal, encode_length]

theorem Encodable.normal {name : Name} (h : name.Encodable) : name.normal.Encodable := by
  unfold Encodable
  rwa [proper_normal, wireLength_normal]

/-! ## runs of labels -/

inductive Stop where
  | root
  | pointer (high low : UInt8)

def Stop.bytes : Stop → Bytes
  | .root => [0]
  | .pointer high low => [high, low]

def Stop.next : Stop → Option Nat
  | .root => none
  | .pointer high low => some (target high low)

def Stop.Marked : Stop → Prop
  | .root => True
  | .pointer high _ => high &&& 0xC0 = 0xC0

theorem not_marked {n : Nat} (h : n ≤ 63) : ¬ UInt8.ofNat n &&& 0xC0 = 0xC0 := by
  have all : ∀ k : Fin 64, ¬ UInt8.ofNat k.val &&& 0xC0 = 0xC0 := by decide
  exact all ⟨n, by omega⟩

theorem run_stop (labels : List String) (taken : Nat) {stop : Stop} (h : stop.Marked)
    (rest : Bytes) :
    run labels taken (stop.bytes ++ rest) = .ok ⟨labels, taken + stop.bytes.length, stop.next⟩ := by
  cases stop with
  | root =>
    show run labels taken (0 :: rest) = _
    unfold run
    simp [Stop.bytes, Stop.next]
  | pointer high low =>
    have hm : high &&& 0xC0 = 0xC0 := h
    show run labels taken (high :: low :: rest) = _
    unfold run
    rw [if_pos hm]
    rfl

/-- the length byte of a label is told from a zero byte and from a pointer -/
theorem IsLabel.lengthByte {label : String} (h : IsLabel label) :
    let len := UInt8.ofNat label.utf8ByteSize
    len.toNat = label.utf8ByteSize ∧ ¬ len &&& 0xC0 = 0xC0 ∧ len ≠ 0 ∧ ¬ 63 < len := by
  obtain ⟨hne, hle⟩ := h
  have hpos : label.utf8ByteSize ≠ 0 := fun h0 => hne (String.utf8ByteSize_eq_zero_iff.1 h0)
  have hlen : (UInt8.ofNat label.utf8ByteSize).toNat = label.utf8ByteSize := by
    rw [UInt8.toNat_ofNat']
    omega
  refine ⟨hlen, not_marked hle, ?_, ?_⟩
  · intro hzero
    rw [hzero] at hlen
    exact hpos hlen.symm
  · rw [UInt8.lt_iff_toNat_lt, hlen]
    exact Nat.not_lt.2 hle

theorem run_label (labels : List String) (taken : Nat) {label : String} (h : IsLabel label)
    (rest : Bytes) :
    run labels taken (UInt8.ofNat label.utf8ByteSize :: (Text.utf8 label ++ rest)) =
      run (label :: labels) (taken + 1 + label.utf8ByteSize) rest := by
  obtain ⟨hlen, hmark, hzero, hshort⟩ := h.lengthByte
  have htake : Bytes.take? label.utf8ByteSize (Text.utf8 label ++ rest) =
      some (Text.utf8 label, rest) := Bytes.take?_append (Text.utf8 label) rest
  conv => lhs; unfold run
  rw [if_neg hmark, if_neg hzero, if_neg hshort, hlen, htake]
  simp only [Text.ofUtf8?_utf8]
  rw [← Text.utf8_length, List.drop_left]

theorem run_spell (done : List String) (taken : Nat) {labels : List String}
    (h : ∀ label ∈ labels, IsLabel label) {stop : Stop} (hs : stop.Marked) (rest : Bytes) :
    run done taken (spell labels ++ stop.bytes ++ rest) =
      .ok ⟨labels.reverse ++ done, taken + (spell labels ++ stop.bytes).length, stop.next⟩ := by
  -- along the labels that are written, not along the bytes that `run` takes off
  induction labels generalizing done taken with
  | nil => exact run_stop done taken hs rest
  | cons label labels ih =>
    have hlabel := h label (List.mem_cons_self ..)
    have hrest := fun l hl => h l (List.mem_cons_of_mem _ hl)
    rw [spell_cons, List.cons_append, List.cons_append, List.append_assoc, List.append_assoc,
      run_label done taken hlabel, ← List.append_assoc, ih _ _ hrest]
    simp [Text.utf8_length]
    omega

/-- a run reads labels and a stop, and nothing else -/
theorem run_eq_ok {done : List String} {taken : Nat} {r : Bytes} {result : Run} :
    run done taken r = .ok result ↔
      ∃ labels stop rest, (∀ label ∈ labels, IsLabel label) ∧ Stop.Marked stop ∧
        r = spell labels ++ stop.bytes ++ rest ∧
        result = ⟨labels.reverse ++ done, taken + (spell labels ++ stop.bytes).length,
          stop.next⟩ := by
  constructor
  · intro h
    fun_induction run done taken r with
    | case1 | case2 | case5 | case6 | case7 => cases h
    | case3 done taken len hm low rest =>
      obtain rfl := Except.ok.inj h
      exact ⟨[], .pointer len low, rest, by simp, hm, rfl, rfl⟩
    | case4 done taken rest =>
      obtain rfl := Except.ok.inj h
      exact ⟨[], .root, rest, by simp, trivial, rfl, rfl⟩
    | case8 done taken len rest _ hzero hsmall raw tail htake label hlabel ih =>
      obtain ⟨labels, stop, rest', hall, hs, hr, rfl⟩ := ih h
      obtain ⟨rfl, hraw⟩ := Bytes.take?_eq_some htake
      obtain rfl := Text.utf8_of_ofUtf8? hlabel
      have hsize : label.utf8ByteSize = len.toNat := hraw
      have hl : IsLabel label := by
        refine ⟨?_, ?_⟩
        · rintro rfl
          exact hzero (UInt8.toNat_inj.1 hsize.symm)
        · rw [hsize]
          exact UInt8.le_iff_toNat_le.1 (UInt8.not_lt.1 hsmall)
      refine ⟨label :: labels, stop, rest', ?_, hs, ?_, ?_⟩
      · intro l hmem
        rcases List.mem_cons.1 hmem with rfl | hmem
        · exact hl
        · exact hall l hmem
      · rw [← hraw, List.drop_left] at hr
        rw [spell_cons, hsize, UInt8.ofNat_toNat, hr]
        simp
      · rw [spell_cons, hsize]
        simp [Text.utf8_length, hsize]
        omega
  · rintro ⟨labels, stop, rest, hall, hs, rfl, rfl⟩
    exact run_spell done taken hall hs rest

theorem run_congr {r r' : Bytes} {result : Run} (h : run [] 0 r = .ok result)
    (same : r'.take result.taken = r.take result.taken) : run [] 0 r' = .ok result := by
  obtain ⟨labels, stop, rest, hall, hs, rfl, rfl⟩ := run_eq_ok.1 h
  refine run_eq_ok.2 ⟨labels, stop, r'.drop (spell labels ++ stop.bytes).length, hall, hs, ?_, rfl⟩
  simp only [Nat.zero_add, List.take_left] at same
  calc r' = r'.take (spell labels ++ stop.bytes).length ++ r'.drop _ :=
        (List.take_append_drop ..).symm
    _ = _ := by rw [same]

/-! ## reading a name -/

theorem decode_run {m r : Bytes} {name : Name} {n : Nat} (h : decode m r = .ok (name, n)) :
    ∃ result, run [] 0 r = .ok result ∧ result.taken = n := by
  unfold decode at h
  split at h
  · cases h
  · rename_i labels taken hrun
    obtain ⟨-, rfl⟩ := Prod.mk.inj (Except.ok.inj h)
    exact ⟨_, hrun, rfl⟩
  · rename_i labels taken place hrun
    split at h
    · cases h
    · obtain ⟨-, rfl⟩ := Prod.mk.inj (Except.ok.inj h)
      exact ⟨_, hrun, rfl⟩

theorem decode_extent {m r : Bytes} {name : Name} {n : Nat} (h : decode m r = .ok (name, n)) :
    0 < n ∧ n ≤ r.length := by
  obtain ⟨result, hrun, rfl⟩ := decode_run h
  obtain ⟨labels, stop, rest, -, -, rfl, rfl⟩ := run_eq_ok.1 hrun
  have hstop : 0 < stop.bytes.length := by cases stop <;> exact Nat.succ_pos _
  simp only [Nat.zero_add, List.length_append]
  omega

theorem decode_advances : Decoder.Advances decode := fun _ _ _ _ h => decode_extent h

theorem decode_bounded : Decoder.Bounded decode := decode_advances.bounded

theorem decode_coextensive : Decoder.Coextensive decode decode := by
  intro m m' r r' name name' n k h h' same
  obtain ⟨result, hrun, rfl⟩ := decode_run h
  obtain ⟨result', hrun', rfl⟩ := decode_run h'
  rw [run_congr hrun same] at hrun'
  rw [Except.ok.inj hrun']

section
variable {name : Name} (h : ∀ label ∈ name.proper, IsLabel label)
include h

theorem run_encode (rest : Bytes) :
    run [] 0 (name.encode ++ rest) = .ok ⟨name.proper.reverse, name.encode.length, none⟩ := by
  have hroot : Stop.Marked .root := trivial
  have := run_spell [] 0 h hroot rest
  simpa [encode_eq, Stop.bytes, Stop.next] using this

/-- reading a name limits its labels, but not the whole name -/
theorem decode_accepts_labels : Decoder.Accepts decode name.encode name.normal := by
  intro m rest
  unfold decode
  rw [run_encode h]
  simp [normal]

theorem decodePlain_accepts_labels : Decoder.Accepts decodePlain name.encode name.normal := by
  intro m rest
  unfold decodePlain
  rw [run_encode h]
  simp [normal]

end

theorem decode_accepts {name : Name} (h : name.Encodable) :
    Decoder.Accepts decode name.encode name.normal := decode_accepts_labels h.isLabel

theorem decodePlain_accepts {name : Name} (h : name.Encodable) :
    Decoder.Accepts decodePlain name.encode name.normal := decodePlain_accepts_labels h.isLabel

/-! ## what a name is read as -/

theorem run_isLabel {done : List String} {taken : Nat} {r : Bytes} {result : Run}
    (hdone : ∀ label ∈ done, IsLabel label) (h : run done taken r = .ok result) :
    ∀ label ∈ result.labels, IsLabel label := by
  obtain ⟨labels, stop, rest, hall, -, -, rfl⟩ := run_eq_ok.1 h
  intro label hl
  rcases List.mem_append.1 hl with hl | hl
  · exact hall label (List.mem_reverse.1 hl)
  · exact hdone label hl

theorem follow_isLabel {m : Bytes} {labels found : List String} {place pointers : Nat}
    (hlabels : ∀ label ∈ labels, IsLabel label) (h : follow m labels place pointers = .ok found) :
    ∀ label ∈ found, IsLabel label := by
  induction pointers generalizing labels place with
  | zero => cases h
  | succ pointers ih =>
    unfold follow at h
    split at h
    · cases h
    · rename_i hrun
      obtain rfl := Except.ok.inj h
      exact run_isLabel hlabels hrun
    · rename_i hrun
      exact ih (run_isLabel hlabels hrun) h

theorem decode_returns : Decoder.Returns decode fun name =>
    ∃ labels, (∀ label ∈ labels, IsLabel label) ∧ name = labels ++ [""] := by
  intro m r name n h
  have hreverse (labels : List String) : ("" :: labels).reverse = labels.reverse ++ [""] :=
    List.reverse_cons
  unfold decode at h
  split at h
  · cases h
  · rename_i labels taken hrun
    obtain ⟨rfl, -⟩ := Prod.mk.inj (Except.ok.inj h)
    have hall := run_isLabel (List.forall_mem_nil _) hrun
    exact ⟨labels.reverse, fun l hl => hall l (List.mem_reverse.1 hl), hreverse labels⟩
  · rename_i labels taken place hrun
    split at h
    · cases h
    · rename_i found hfound
      obtain ⟨rfl, -⟩ := Prod.mk.inj (Except.ok.inj h)
      have hall := follow_isLabel (run_isLabel (List.forall_mem_nil _) hrun) hfound
      exact ⟨found.reverse, fun l hl => hall l (List.mem_reverse.1 hl), hreverse found⟩

theorem labels_of_readAt {message : Bytes} {place past : Nat} {name : Name}
    (h : decode.readAt message place = .ok (name, past)) :
    ∀ label ∈ name.proper, IsLabel label := by
  obtain ⟨n, hread, -⟩ := Decoder.readAt_eq_ok.1 h
  obtain ⟨labels, hlabels, rfl⟩ := decode_returns hread
  rw [proper_complete fun label hl => (hlabels label hl).1]
  exact hlabels

/-! ## names within bounds -/

/-- bytes that hold a whole name decide what is read before any rest -/
theorem decode_within {data : Bytes} {labels : List String} {taken : Nat}
    (h : run [] 0 data = .ok ⟨labels, taken, none⟩) (m rest : Bytes) :
    taken ≤ data.length ∧
      decode m (data ++ rest) = .ok (("" :: labels).reverse, taken) := by
  have hle : taken ≤ data.length := by
    obtain ⟨labels', stop, rest', -, -, rfl, hresult⟩ := run_eq_ok.1 h
    have htaken : taken = 0 + (spell labels' ++ stop.bytes).length := congrArg Run.taken hresult
    rw [htaken, Nat.zero_add]
    exact (List.prefix_append _ rest').length_le
  have hrun : run [] 0 (data ++ rest) = .ok ⟨labels, taken, none⟩ :=
    run_congr h (List.take_append_of_le_length hle)
  refine ⟨hle, ?_⟩
  unfold decode
  simp only [hrun]

theorem encode_of_run {data : Bytes} {labels : List String} {taken : Nat}
    (h : run [] 0 data = .ok ⟨labels, taken, none⟩) :
    encode (("" :: labels).reverse) = data.take taken := by
  obtain ⟨labels', stop, rest, hall, -, rfl, hresult⟩ := run_eq_ok.1 h
  obtain ⟨rfl, rfl, hnext⟩ := Run.mk.inj hresult
  cases stop with
  | pointer => cases hnext
  | root =>
    have hproper : proper (labels' ++ [""]) = labels' := proper_complete fun l hl => (hall l hl).1
    rw [List.append_nil, List.reverse_cons, List.reverse_reverse, encode_eq, hproper, Nat.zero_add,
      List.take_left]
    rfl

/-- a name that is read in full is spelt by the bytes that it takes up -/
theorem decodePlain_eq_ok {m data : Bytes} {name : Name} {n : Nat}
    (h : decodePlain m data = .ok (name, n)) :
    (∀ label ∈ name.proper, IsLabel label) ∧ name.encode = data.take n := by
  unfold decodePlain at h
  split at h
  · cases h
  · rename_i labels taken hrun
    obtain ⟨rfl, rfl⟩ := Prod.mk.inj (Except.ok.inj h)
    have hall := run_isLabel (List.forall_mem_nil _) hrun
    refine ⟨?_, encode_of_run hrun⟩
    intro label hl
    obtain ⟨hmem, hne⟩ := mem_proper.1 hl
    exact hall label ((List.mem_cons.1 (List.mem_reverse.1 hmem)).resolve_left hne)
  · cases h

/-- bytes that hold no whole name are overrun by any name that begins with them -/
theorem decode_overrun {data : Bytes} {e : WireError} (h : run [] 0 data = .error e)
    {m rest : Bytes} {name : Name} {n : Nat} (hd : decode m (data ++ rest) = .ok (name, n)) :
    data.length < n := by
  obtain ⟨result, hrun, rfl⟩ := decode_run hd
  refine Nat.not_le.1 fun hle => ?_
  have hdata := run_congr hrun (List.take_append_of_le_length hle).symm
  rw [h] at hdata
  cases hdata

theorem encode_append_inj {a b : Name} (ha : a.Encodable) (hb : b.Encodable) {r s : Bytes}
    (h : a.encode ++ r = b.encode ++ s) : a.encode = b.encode ∧ r = s := by
  have hread := decodePlain_accepts ha [] r
  rw [h, decodePlain_accepts hb [] s] at hread
  exact List.append_inj h (Prod.mk.inj (Except.ok.inj hread)).2.symm

end TransactionKey.Name
