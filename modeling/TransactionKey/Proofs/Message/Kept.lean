import TransactionKey.Proofs.Message.RoundTrip

/-!
# Messages that are read back unchanged

A record is `Kept` if reading it gives the same record: it is `InForm`, that is, its name is complete,
its type and class are those of their codes and it states the length of its data, and writing out the
names in its data changes nothing.  A message of such records is read back as it was, but for the
counts in its header (`decode_kept`).
-/

namespace TransactionKey

theorem Name.ofText_complete (text : String) : (ofText text).Complete := by
  refine ⟨(ofText text).proper, fun _ hl => (mem_proper.1 hl).2, ?_⟩
  exact (ofText_normal text).symm

namespace Question

/-- in the form in which questions are read -/
structure InForm (q : Question) : Prop where
  complete : q.name.Complete
  type : q.type.Canonical
  rclass : q.rclass.Canonical

/-- can be written, and is read back unchanged -/
structure Kept (q : Question) : Prop extends q.InForm where
  name : q.name.Encodable

theorem Kept.seen_eq {q : Question} (h : q.Kept) : q.seen = q := by
  rw [seen, h.complete.normal_eq, h.type, h.rclass]

end Question

namespace ResourceRecord

/-- in the form in which records are read, but for the data -/
structure InForm (r : ResourceRecord) : Prop where
  complete : r.name.Complete
  type : r.type.Canonical
  rclass : r.rclass.Canonical
  length : r.rdlength.toNat = r.rdata.length

/-- can be written, and is read back unchanged -/
structure Kept (r : ResourceRecord) : Prop extends r.InForm where
  name : r.name.Encodable
  settled : Settled r.type r.rdata

/-- can be written, and of the form in which records are read, with its names in full -/
structure WellFormed (r : ResourceRecord) : Prop extends r.InForm where
  name : r.name.Encodable
  data : FullNames r.type r.rdata

variable {r : ResourceRecord}

theorem WellFormed.kept (h : r.WellFormed) : r.Kept :=
  ⟨h.toInForm, h.name, h.data.settled⟩

theorem InForm.size (h : r.InForm) : r.rdata.length ≤ maxData :=
  h.length ▸ Nat.le_of_lt_succ r.rdlength.toNat_lt

/-- such a record is read with nothing but its data changed -/
theorem InForm.seen_eq (h : r.InForm) (data : Bytes) :
    r.seen data = { r with rdata := data, rdlength := UInt16.ofNat data.length } := by
  rw [seen, h.type, h.rclass, h.complete.normal_eq]

theorem Kept.accepts (h : r.Kept) : decode.Accepts r.encode r := by
  intro m rest
  have hsame : r.seen r.rdata = r := by rw [h.seen_eq, ← h.length, UInt16.ofNat_toNat]
  rw [decode_append h.name h.size, h.settled.reading_eq h.type, if_neg (Nat.not_lt.2 h.size), hsame]

end ResourceRecord

namespace Message

theorem map_seen_kept {qs : List Question} (h : ∀ q ∈ qs, q.Kept) : qs.map Question.seen = qs := by
  rw [List.map_congr_left fun q hq => (h q hq).seen_eq]
  exact List.map_id' qs

theorem decode_kept {m : Message} (h : m.Writable) (hq : ∀ q ∈ m.questions, q.Kept)
    (hr : ∀ r ∈ m.records, r.Kept) : decode m.encode = .ok { m with header := m.counted } := by
  have hreads := encode_reads (E := fun _ => False) h fun r hmem =>
    (hr r hmem).accepts.reads (P := (id r = ·)) rfl
  rcases decode_of_reads hreads with ⟨m', hm', hseen⟩ | ⟨e, -, hfalse⟩
  · rw [hm', hseen.eq_map, map_seen_kept hq]
    simp only [List.map_id]
  · exact hfalse.elim

theorem WellFormed.record {m : Message} (h : m.WellFormed) {r : ResourceRecord}
    (hr : r ∈ m.records) : r.WellFormed :=
  let he := h.records r hr
  ⟨⟨h.recordNames r hr, he.type, he.rclass, h.lengths r hr⟩, he.name, he.plain.full⟩

end Message

end TransactionKey
