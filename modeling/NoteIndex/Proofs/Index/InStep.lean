import NoteIndex.Index.Snapshot
import NoteIndex.Proofs.Index.Check

/-!
# Indexes and the notes they were made from

What an index knows can be told note by note, also halfway through a series of changes when some
notes are known in their new form and others still in their old one. Two indexes that know the same
notes agree but for the order of their records. An index in step with a notebook has that order too,
and there is one such index: the one made by entering the notes one after another, and the one
restored from whatever snapshot, if any is.
-/

namespace NoteIndex

/-- The records of the notes, in their order. -/
def Notebook.records (b : Notebook) : Records := b.map Record.ofNote Record.id_ofNote

namespace Index

/-- The index is exact, and knows under each identifier what `notes` has there. -/
structure Knows (x : Index) (notes : String → Option Note) : Prop where
  exact : x.Exact
  records : ∀ id, x.records.find? id = (notes id).map Record.ofNote
  fingerprints : ∀ id, x.fingerprints.find? id = (notes id).map Note.fingerprint

/-- The indexes are the same but for the order of their records. -/
structure Agree (x y : Index) : Prop where
  records : ∀ id, x.records.find? id = y.records.find? id
  tags : x.tags = y.tags
  links : x.links = y.links
  backlinks : x.backlinks = y.backlinks
  outbound : x.outbound = y.outbound
  titles : x.titles = y.titles
  fingerprints : x.fingerprints = y.fingerprints

/-- The maps of exact indexes depend on the records, not on their order. -/
theorem Exact.agree {x y : Index} (hx : x.Exact) (hy : y.Exact)
    (hr : ∀ id, x.records.find? id = y.records.find? id) (hf : x.fingerprints = y.fingerprints) :
    x.Agree y := by
  have hy' := hy.maps_of_alike fun id => .of_eq (hr id)
  exact ⟨hr, hx.tags.unique hy'.tags, hx.links.unique hy'.links,
    hx.backlinks.unique hy'.backlinks, hx.outbound.unique hy'.outbound,
    hx.titles.unique hy'.titles, hf⟩

namespace Knows

variable {x y : Index} {notes : String → Option Note}

theorem agree (hx : x.Knows notes) (hy : y.Knows notes) : x.Agree y := by
  refine hx.exact.agree hy.exact (fun id => ?_) (SortedMap.ext fun id => ?_)
  · rw [hx.records, hy.records]
  · rw [hx.fingerprints, hy.fingerprints]

theorem congr {notes' : String → Option Note} (h : x.Knows notes)
    (hn : ∀ id, notes id = notes' id) : x.Knows notes' :=
  ⟨h.exact, fun id => by rw [h.records, hn], fun id => by rw [h.fingerprints, hn]⟩

theorem enterNote (h : x.Knows notes) (n : Note) :
    (x.enterNote n).Knows fun id => if id = n.id then some n else notes id where
  exact := h.exact.enter _ _
  records id := by
    rw [Index.enterNote, records_enter, Keyed.find?_add, Record.id_ofNote]
    split
    · rfl
    · exact h.records id
  fingerprints id := by
    rw [Index.enterNote, fingerprints_enter, SortedMap.find?_insert, Record.id_ofNote]
    split
    · rfl
    · exact h.fingerprints id

theorem leave (h : x.Knows notes) (id : String) :
    (x.leave id).Knows fun j => if j = id then none else notes j where
  exact := h.exact.leave id
  records j := by
    rw [records_leave, Keyed.find?_erase]
    split
    · rfl
    · exact h.records j
  fingerprints j := by
    rw [h.exact.find?_fingerprints_leave]
    split
    · rfl
    · exact h.fingerprints j

end Knows

/-- The index knows the notes of the notebook, and has them in its order. -/
structure InStep (x : Index) (b : Notebook) : Prop where
  knows : x.Knows b.find?
  order : x.records = b.records

namespace InStep

variable {x y : Index} {b : Notebook}

theorem eq (hx : x.InStep b) (hy : y.InStep b) : x = y :=
  hx.knows.exact.eq hy.knows.exact (hx.order.trans hy.order.symm)
    (hx.knows.agree hy.knows).fingerprints

theorem empty : InStep ∅ ∅ where
  knows := ⟨exact_empty, fun _ => rfl, fun _ => rfl⟩
  order := rfl

theorem enterNote (h : x.InStep b) (n : Note) : (x.enterNote n).InStep (b.add n) where
  knows := (h.knows.enterNote n).congr fun id => (Keyed.find?_add b n id).symm
  order := by
    rw [Index.enterNote, records_enter, h.order]
    exact (Keyed.map_add Record.ofNote Record.id_ofNote b n).symm

theorem leave (h : x.InStep b) (id : String) : (x.leave id).InStep (b.erase id) where
  knows := (h.knows.leave id).congr fun j => (Keyed.find?_erase b id j).symm
  order := by
    rw [records_leave, h.order]
    exact (Keyed.map_erase Record.ofNote Record.id_ofNote b id).symm

theorem foldl_enterNote (h : x.InStep b) (ns : List Note) :
    (ns.foldl Index.enterNote x).InStep (ns.foldl Keyed.add b) := by
  induction ns generalizing x b with
  | nil => exact h
  | cons n ns ih => exact ih (h.enterNote n)

theorem ofNotes (b : Notebook) : (Index.ofNotes b.notes).InStep b := by
  have h := InStep.empty.foldl_enterNote b.notes
  have hb : b.notes.foldl Keyed.add ∅ = b := Keyed.ofValues_values b
  rw [hb] at h
  exact h

end InStep

/-! ## Restoring -/

theorem lists_outboundOf (m : IdMap) : (outboundOf m).Lists fun a b => a ∈ m.ids b := by
  refine (IdMap.lists_empty.foldl_addUnder (fun e : String × StringSet => e.2.toList) Prod.fst
    m.entries).congr fun a b => ?_
  rw [or_false, IdMap.mem_ids_iff]
  constructor
  · rintro ⟨⟨_, s⟩, he, ha, rfl⟩
    exact ⟨s, (m.mem_entries_iff b s).mp he, ha⟩
  · rintro ⟨s, hs, ha⟩
    exact ⟨(b, s), (m.mem_entries_iff b s).mpr hs, ha, rfl⟩

theorem fingerprints_ofNotes (ns : List Note) :
    (Index.ofNotes ns).fingerprints = fingerprintsOf ns := by
  suffices ∀ x : Index, (ns.foldl Index.enterNote x).fingerprints =
      (ns.map fun n => (n.id, n.fingerprint)).foldl (fun m e => m.insert e.1 e.2)
        x.fingerprints from this ∅
  induction ns with
  | nil => exact fun _ => rfl
  | cons n ns ih =>
    intro x
    rw [List.foldl_cons, ih, Index.enterNote, fingerprints_enter]
    rfl

theorem values_records (b : Notebook) : b.records.values = b.notes.map Record.ofNote :=
  Keyed.values_map Record.ofNote Record.id_ofNote b

theorem values_ofNotes (b : Notebook) :
    (ofNotes b.notes).records.values = b.notes.map Record.ofNote := by
  rw [(InStep.ofNotes b).order]
  exact values_records b

theorem ofValues_records (b : Notebook) : Keyed.ofValues (b.notes.map Record.ofNote) = b.records := by
  rw [← values_records]
  exact Keyed.ofValues_values b.records

/-- The check vouches for the maps of a snapshot; what it does not look at is computed. -/
theorem exact_adopt (b : Notebook) (s : Snapshot)
    (hf : s.fingerprints = fingerprintsOf b.notes)
    (hv : (adopt b.notes s).validate.hasErrors = false) : (adopt b.notes s).Exact := by
  obtain ⟨htags, hlinks, hbacklinks⟩ := (validate_hasErrors_iff _).mp hv
  have hr : (adopt b.notes s).records = b.records := ofValues_records b
  have htitles : (adopt b.notes s).titles = titlesOf (adopt b.notes s).records.values := by
    rw [hr, values_records]
    rfl
  refine ⟨⟨htags, hlinks, ?_, hbacklinks, ?_⟩, fun id => ?_⟩
  · rw [htitles]
    exact lists_titlesOf _
  · exact (lists_outboundOf s.backlinks).congr fun a b => hbacklinks.mem_iff b a
  · have hknows := (InStep.ofNotes b).knows
    have hs : (adopt b.notes s).fingerprints = (Index.ofNotes b.notes).fingerprints := by
      rw [fingerprints_ofNotes]
      exact hf
    rw [hs, hr, ← (InStep.ofNotes b).order]
    exact hknows.exact.fingerprints id

/-- A snapshot that is accepted makes no difference: it gives the index that the notes give. -/
theorem restore?_eq_ofNotes {b : Notebook} {s : Snapshot} {x : Index}
    (h : restore? b.notes s = some x) : x = Index.ofNotes b.notes := by
  simp only [restore?] at h
  split at h
  · cases h
  · rename_i hf
    split at h
    · cases h
    · split at h
      · cases h
      · rename_i hv
        cases h
        have hf' := (SortedMap.eq_of_entries (Classical.not_not.mp hf)).symm
        have hexact := exact_adopt b s hf' (Bool.eq_false_iff.mpr hv)
        refine hexact.eq (InStep.ofNotes b).knows.exact ?_ ?_
        · rw [(InStep.ofNotes b).order]
          exact ofValues_records b
        · rw [fingerprints_ofNotes]
          exact hf'

end Index

end NoteIndex
