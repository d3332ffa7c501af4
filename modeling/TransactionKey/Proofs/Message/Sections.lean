import TransactionKey.Proofs.ResourceRecord.Data

/-!
# The sections of a message that was written

The length field of a record says the length of its data only up to 65535 bytes, but longer data is
written all the same.

* `decode_sections`        a message without such data is read with as many questions and records in
                           each section, unless a pointer in the data of a record makes it too long;
* `decode_push_oversized`  a message whose last record has such data is not read.
-/

namespace TransactionKey

namespace ResourceRecord

/-- the record with as much of its data as its length field says -/
def cut (r : ResourceRecord) : ResourceRecord :=
  { r with rdata := r.rdata.take (r.rdata.length % 65536) }

/-- the data after that -/
def surplus (r : ResourceRecord) : Bytes := r.rdata.drop (r.rdata.length % 65536)

theorem cut_length (r : ResourceRecord) : r.cut.rdata.length = r.rdata.length % 65536 := by
  rw [cut, List.length_take, Nat.min_eq_left (Nat.mod_le _ _)]

theorem encode_cut (r : ResourceRecord) : r.encode = r.cut.encode ++ r.surplus := by
  have hdata : r.cut.rdata ++ r.surplus = r.rdata := List.take_append_drop _ _
  have hspell : bigEndian 2 (r.rdata.length % 65536) = bigEndian 2 r.rdata.length :=
    bigEndian_mod 2 _
  unfold encode fields
  rw [cut_length, hspell]
  simp only [List.append_assoc]
  rw [hdata]
  rfl

theorem surplus_length (r : ResourceRecord) :
    r.surplus.length = r.rdata.length / 65536 * 65536 := by
  rw [surplus, List.length_drop]
  omega

end ResourceRecord

namespace Message

/-- the same number of entries in each section -/
structure SameSections (m m' : Message) : Prop where
  questions : m'.questions.length = m.questions.length
  answers : m'.answers.length = m.answers.length
  authorities : m'.authorities.length = m.authorities.length
  additionals : m'.additionals.length = m.additionals.length

theorem SeenAs.sameSections {R : ResourceRecord → ResourceRecord → Prop} {m m' : Message}
    (h : m.SeenAs R m') : m.SameSections m' where
  questions := by rw [h.questions, List.length_map]
  answers := h.answers.length_eq.symm
  authorities := h.authorities.length_eq.symm
  additionals := h.additionals.length_eq.symm

section
variable {m : Message}

/-- what is read of any message whose data the length fields can tell -/
theorem encode_reads_sized (h : m.Writable)
    (hsize : ∀ r ∈ m.records, r.rdata.length ≤ ResourceRecord.maxData) :
    (Header.decode.bind decodeSections).Reads m.encode
      (m.SeenAs fun r r' => ∃ data, r' = r.seen data) fun e => ∃ r ∈ m.records, r.Swollen e := by
  refine encode_reads h fun r hr => ?_
  refine (ResourceRecord.decode_reads (h.records r hr) (hsize r hr)).mono ?_ ?_
  · rintro r' ⟨m', rest, rfl⟩
    exact ⟨_, rfl⟩
  · intro e he
    exact ⟨r, hr, he.swollen (hsize r hr)⟩

/-- **a message that can be written is read with the same number of entries in each section**, if no
data is longer than a length field can say and no data swells when pointers in it are followed -/
theorem decode_sections {bytes : Bytes} (h : m.toWire = .ok bytes)
    (hsize : ∀ r ∈ m.records, r.rdata.length ≤ ResourceRecord.maxData) :
    (∃ m', decode bytes = .ok m' ∧ m.SameSections m') ∨
      ∃ e, decode bytes = .error e ∧ ∃ r ∈ m.records, r.Swollen e := by
  obtain ⟨hm, rfl⟩ := toWire_eq_ok.1 h
  rcases decode_of_reads (encode_reads_sized hm hsize) with ⟨m', hread, hseen⟩ | hswollen
  · exact .inl ⟨m', hread, hseen.sameSections⟩
  · exact .inr hswollen

/-! ## data that no length field can say -/

theorem encode_push_cut (r : ResourceRecord) :
    (m.push r).encode = (m.push r.cut).encode ++ r.surplus := by
  have hcounted : (m.push r.cut).counted = (m.push r).counted := by
    simp only [counted, push, List.length_append, List.length_singleton]
  rw [encode_push, encode_push, hcounted, r.encode_cut]
  simp only [List.append_assoc]

/-- what a length field does not say of the last record is left over -/
theorem decode_push_oversized {r : ResourceRecord} (h : m.Writable) (hname : r.name.Encodable)
    (room : m.additionals.length < 65535)
    (hsize : ∀ x ∈ m.records, x.rdata.length ≤ ResourceRecord.maxData)
    (hlong : ResourceRecord.maxData < r.rdata.length) :
    decode (m.push r).encode = .error (.trailing (r.rdata.length / 65536 * 65536)) ∨
      ∃ e, decode (m.push r).encode = .error e ∧ ∃ x ∈ (m.push r.cut).records, x.Swollen e := by
  have hsurplus : 0 < r.surplus.length := by
    rw [r.surplus_length]
    have hlong' : 65535 < r.rdata.length := hlong
    omega
  have hcut : (m.push r.cut).Writable := h.push hname room
  have hcutSize : ∀ x ∈ (m.push r.cut).records, x.rdata.length ≤ ResourceRecord.maxData := by
    refine forall_records_push hsize ?_
    rw [r.cut_length]
    exact Nat.le_of_lt_succ (Nat.mod_lt _ (by decide))
  rw [encode_push_cut, ← r.surplus_length]
  exact decode_append_of_reads (encode_reads_sized hcut hcutSize) (List.length_pos_iff.1 hsurplus)

end

/-! ## examples -/

theorem decode_sections_mailReply :
    ∃ bytes m', mailReply.toWire = .ok bytes ∧ decode bytes = .ok m' ∧
      mailReply.SameSections m' := by
  have hm := mailReply_wellFormed.toEncodable
  have hwire : mailReply.toWire = .ok mailReply.encode := toWire_eq_ok.2 ⟨hm.writable, rfl⟩
  have hsize : ∀ r ∈ mailReply.records, r.rdata.length ≤ ResourceRecord.maxData :=
    fun r hr => (hm.records r hr).size
  rcases decode_sections hwire hsize with ⟨m', h⟩ | ⟨e, -, r, hr, hp, -⟩
  · exact ⟨_, m', hwire, h⟩
  · have hnone : ∀ r ∈ mailReply.records, r.pointing = false := by decide +kernel
    rw [hnone r hr] at hp
    cases hp

/-- a record with one byte of data more than its length field can say -/
def longRecord : ResourceRecord :=
  ⟨[""], .other 65280, .internet, 0, 0, List.replicate 65536 0⟩

/-- the length field says that there is no data, and all of it is left over -/
theorem decode_longRecord :
    ∃ bytes, (push {} longRecord).toWire = .ok bytes ∧ decode bytes = .error (.trailing 65536) := by
  have hlength : longRecord.rdata.length = 65536 := List.length_replicate
  have hempty : ({} : Message).Writable := ⟨by decide, ⟨by decide, by decide, by decide, by decide⟩,
    List.forall_mem_nil _, List.forall_mem_nil _⟩
  have hname : longRecord.name.Encodable := by decide
  have hwritable : (push {} longRecord).Writable := hempty.push hname (by decide)
  refine ⟨_, toWire_eq_ok.2 ⟨hwritable, rfl⟩, ?_⟩
  rcases decode_push_oversized hempty hname (by decide) (List.forall_mem_nil _)
    (by rw [hlength]; decide) with h | ⟨e, -, x, hx, hp, -⟩
  · rw [h, hlength]
  · rw [List.mem_singleton.1 hx] at hp
    cases hp

end Message

end TransactionKey
