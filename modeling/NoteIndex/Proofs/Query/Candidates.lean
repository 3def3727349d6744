import NoteIndex.Proofs.Collection.StableSort
import NoteIndex.Proofs.Index.Reading
import NoteIndex.Query.Run

/-!
# The records a query is about

Sorting, where it comes to an end, only rearranges records, so without a limit a query is about the
records of its sources that meet its conditions. A tag as the only source stands for what its
look-up finds.
-/

namespace NoteIndex

namespace Index

variable {x : Index} {p : Record → Prop} {rs : List Record}

/-- Found again by their identifiers, the records are the same in the order of the index. -/
theorem Scan.perm_select (h : x.Scan p rs) :
    (x.records.values.filter fun r => (rs.map Record.id).contains r.id).Perm rs := by
  refine (List.perm_ext_iff_of_nodup (x.nodup_records.filter _) h.nodup).mpr fun r => ?_
  rw [List.mem_filter, List.contains_iff_mem, List.mem_map]
  constructor
  · rintro ⟨hr, q, hq, hid⟩
    have hfind := Keyed.find?_key ((h.mem_iff q).mp hq).1
    rw [hid, Keyed.find?_key hr] at hfind
    cases hfind
    exact hq
  · intro hr
    exact ⟨((h.mem_iff r).mp hr).1, r, hr, rfl⟩

end Index

namespace Query

variable {x : Index} {q : Query} {rs sorted found : List Record}

/-! ## Sorting and limits -/

/-- The properties that go along with the records do not matter to how these are sorted. -/
theorem sortRecords_eq (o : Order) (rs : List Record) : sortRecords o rs = sortBy? (fun r s =>
    comesBefore o.descending (r.property? o.field) (s.property? o.field)) rs := by
  rw [sortRecords, sortBy?_map, Option.map_map]
  simp [Function.comp_def]

theorem perm_of_sortRecords {o : Order} (h : sortRecords o rs = some sorted) :
    sorted.Perm rs := by
  rw [sortRecords_eq] at h
  rw [eq_sortStable_of_sortBy? h]
  exact sortStable_perm _ rs

theorem arranged_of_unordered (h : q.order = none) (rs : List Record) :
    q.arranged rs = some rs := by
  rw [arranged, h]

theorem perm_of_arranged (h : q.arranged rs = some sorted) : sorted.Perm rs := by
  rw [arranged] at h
  split at h
  · exact perm_of_sortRecords h
  · rw [Option.some.inj h]

theorem limited_of_unlimited (h : q.limit = none) (rs : List Record) : q.limited rs = rs := by
  rw [limited, h]

theorem limited_sublist (q : Query) (rs : List Record) : (q.limited rs).Sublist rs := by
  rw [limited]
  split
  · exact List.take_sublist ..
  · exact .refl _

theorem matched_eq_some_iff : matched x q = some found ↔
    ∃ sorted, q.arranged (selected x q) = some sorted ∧ q.limited sorted = found :=
  Option.map_eq_some_iff

/-- What is told of the records makes no difference to which they are. -/
theorem matched_shape (x : Index) (q : Query) (shape : Shape) (fields : List String) :
    matched x { q with shape, fields } = matched x q := rfl

theorem perm_of_matched (hlimit : q.limit = none) (h : matched x q = some found) :
    found.Perm (selected x q) := by
  obtain ⟨sorted, hsorted, rfl⟩ := matched_eq_some_iff.mp h
  rw [limited_of_unlimited hlimit]
  exact perm_of_arranged hsorted

theorem subset_of_matched (h : matched x q = some found) : found ⊆ selected x q := by
  obtain ⟨sorted, hsorted, rfl⟩ := matched_eq_some_iff.mp h
  exact List.Subset.trans (limited_sublist q sorted).subset (perm_of_arranged hsorted).subset

/-! ## A tag as the only source -/

theorem candidates_tag_perm (h : x.Exact) (t : Tag) :
    (candidates x [.tag t]).Perm (x.byTag t.text) := by
  have hselected : [Source.tag t].flatMap (Source.ids x) = (x.byTag t.text).map Record.id :=
    List.flatMap_singleton ..
  rw [candidates, List.isEmpty_cons, if_neg Bool.false_ne_true]
  simp only [hselected]
  exact (h.scan_byTag t.text).perm_select

/-- A query in one tag selects what the look-up of that tag finds, as far as it meets the
conditions. -/
theorem selected_tag_perm (h : x.Exact) {t : Tag} (hsource : q.sources = [.tag t]) :
    (selected x q).Perm
      ((x.byTag t.text).filter fun r => q.conditions.all fun c => c.accepts r) := by
  rw [selected, hsource]
  exact (candidates_tag_perm h t).filter _

end Query

end NoteIndex
