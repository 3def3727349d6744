import NoteIndex.Index.Validation
import NoteIndex.Proofs.Index.Exact

/-!
# What the check of an index finds

The maps computed from the records list what the records give. Every issue with a map is an error,
and a map without issues is the computed one: empty sets, stale keys, unknown identifiers, entries
too many and entries too few are all there is to differ in.
-/

namespace NoteIndex.Index

open Records

/-! ## The maps that records give -/

theorem lists_tagsOf (rs : Records) : (tagsOf rs.values).Lists rs.Tagged := by
  refine (IdMap.lists_empty.foldl_addUnder (fun r : Record => r.tags.toList) Record.id
    rs.values).congr fun t id => ?_
  rw [or_false]
  exact Keyed.has_iff_exists.symm

theorem lists_linksOf (rs : Records) : (linksOf rs.values).Lists rs.LinksBy := by
  refine (IdMap.lists_empty.foldl_addUnder (fun r : Record => r.linkKeys.toList) Record.id
    rs.values).congr fun k id => ?_
  rw [or_false]
  exact Keyed.has_iff_exists.symm

theorem lists_titlesOf (rs : Records) : (titlesOf rs.values).Lists rs.Titled := by
  refine (IdMap.lists_empty.foldl_addUnder (fun r : Record => [r.titleKey]) Record.id
    rs.values).congr fun k id => ?_
  rw [or_false]
  refine Iff.trans ?_ Keyed.has_iff_exists.symm
  simp only [List.mem_singleton, eq_comm (a := k)]

theorem mem_targetsOf (titles : IdMap) (r : Record) (b : String) :
    b ∈ targetsOf titles r ↔ ∃ key ∈ r.linkKeys, b ∈ titles.ids key :=
  List.mem_flatMap

theorem lists_backlinksOf (rs : Records) :
    (backlinksOf rs.values).Lists fun b a => rs.LinksTo a b := by
  refine (IdMap.lists_empty.foldl_addUnder (targetsOf (titlesOf rs.values)) Record.id
    rs.values).congr fun b a => ?_
  rw [or_false]
  constructor
  · rintro ⟨r, hr, hb, rfl⟩
    obtain ⟨key, hkey, hb⟩ := (mem_targetsOf ..).mp hb
    exact ⟨key, ⟨r, Keyed.find?_key hr, hkey⟩, ((lists_titlesOf rs).mem_iff key b).mp hb⟩
  · rintro ⟨key, hl, hn⟩
    obtain ⟨r, hr, hkey, rfl⟩ := Keyed.has_iff_exists.mp hl
    exact ⟨r, hr, (mem_targetsOf ..).mpr ⟨key, hkey, ((lists_titlesOf rs).mem_iff key b).mpr hn⟩,
      rfl⟩

/-! ## One map -/

section CheckMap

variable (x : Index) (m : MapKind)

theorem checkKey_eq_nil_iff (key : String) (ids expected : StringSet) :
    x.checkKey m key ids expected = [] ↔
      ids ≠ ∅ ∧ (m = .backlink → x.records.contains key) ∧
        ∀ id ∈ ids, x.records.contains id ∧ id ∈ expected := by
  have hempty : ids.isEmpty = true ↔ ids = ∅ := ids.isEmpty_iff
  have hlist (P : String → Prop) : (∀ id ∈ ids.toList, P id) ↔ ∀ id ∈ ids, P id := .rfl
  simp only [checkKey, List.append_eq_nil_iff, List.filterMap_eq_nil_iff, hlist]
  refine (and_assoc.trans (and_congr ?_ (and_congr ?_ (forall₂_congr fun id _ => ?_))))
  · rw [ne_eq, ← hempty]
    cases ids.isEmpty <;> simp
  · by_cases hm : m = .backlink <;> by_cases hk : x.records.contains key = true <;> simp [hm, hk]
  · by_cases hl : x.records.contains id = true <;> by_cases he : id ∈ expected <;>
      simp [StringSet.contains, hl, he]

theorem missingAt_eq_nil_iff (key : String) (ids expected : StringSet) :
    missingAt m key ids expected = [] ↔ ∀ id ∈ expected, id ∈ ids := by
  have hlist (P : String → Prop) : (∀ id ∈ expected.toList, P id) ↔ ∀ id ∈ expected, P id := .rfl
  simp only [missingAt, List.filterMap_eq_nil_iff, hlist]
  refine forall₂_congr fun id _ => ?_
  by_cases h : id ∈ ids <;> simp [StringSet.contains, h]

/-- If what is expected involves live notes only, then a map without issues lists just that. -/
theorem checkMap_eq_nil_iff {R : String → String → Prop} (actual : IdMap) {expected : IdMap}
    (hexpected : expected.Lists R) (hid : ∀ k id, R k id → x.records.contains id)
    (hkey : ∀ k id, m = .backlink → R k id → x.records.contains k) :
    x.checkMap m actual expected = [] ↔ actual.Lists R := by
  simp only [checkMap, List.append_eq_nil_iff, List.flatMap_eq_nil_iff, Prod.forall,
    SortedMap.mem_entries_iff, checkKey_eq_nil_iff, missingAt_eq_nil_iff]
  constructor
  · rintro ⟨hactual, hmissing⟩
    refine ⟨fun k s hs => (hactual k s hs).1, fun k id => ⟨fun h => ?_, fun h => ?_⟩⟩
    · obtain ⟨s, hs, hmem⟩ := (actual.mem_ids_iff k id).mp h
      exact (hexpected.mem_iff k id).mp ((hactual k s hs).2.2 id hmem).2
    · obtain ⟨s, hs, hmem⟩ := (expected.mem_ids_iff k id).mp ((hexpected.mem_iff k id).mpr h)
      exact hmissing k s hs id hmem
  · intro h
    have hsame := h.unique hexpected
    refine ⟨fun k s hs => ⟨h.noEmptySet k s hs, fun hm => ?_, fun id hmem => ?_⟩,
      fun k s hs id hmem => ?_⟩
    · obtain ⟨id, hmem⟩ := StringSet.exists_mem (h.noEmptySet k s hs)
      exact hkey k id hm ((h.mem_iff k id).mp ((actual.mem_ids_iff k id).mpr ⟨s, hs, hmem⟩))
    · have hR := (actual.mem_ids_iff k id).mpr ⟨s, hs, hmem⟩
      exact ⟨hid k id ((h.mem_iff k id).mp hR), hsame ▸ hR⟩
    · exact hsame ▸ (expected.mem_ids_iff k id).mpr ⟨s, hs, hmem⟩

theorem isError_of_mem_checkMap {actual expected : IdMap} {i : Issue}
    (h : i ∈ x.checkMap m actual expected) : i.isError = true := by
  simp only [checkMap, checkKey, missingAt, List.mem_append, List.mem_flatMap,
    List.mem_filterMap] at h
  rcases h with ⟨e, -, (h | h) | ⟨id, -, h⟩⟩ | ⟨e, -, id, -, h⟩
  · split at h
    · rw [List.mem_singleton.mp h]
      rfl
    · exact absurd h List.not_mem_nil
  · split at h
    · rw [List.mem_singleton.mp h]
      rfl
    · exact absurd h List.not_mem_nil
  · split at h
    · cases h
      rfl
    · split at h
      · cases h
        rfl
      · cases h
  · split at h
    · cases h
    · cases h
      rfl

theorem hasErrors_checkMap (actual expected : IdMap) :
    (x.checkMap m actual expected).hasErrors = false ↔ x.checkMap m actual expected = [] := by
  constructor
  · intro h
    refine List.eq_nil_iff_forall_not_mem.mpr fun i hi => ?_
    have herr := isError_of_mem_checkMap x m hi
    exact absurd herr (by simpa using List.any_eq_false.mp h i hi)
  · intro h
    rw [h]
    rfl

end CheckMap

/-! ## All maps -/

theorem hasErrors_append (is js : Issues) :
    Issues.hasErrors (is ++ js) = (is.hasErrors || js.hasErrors) := List.any_append

theorem hasErrors_unresolvedOf (titles : IdMap) (rs : List Record) :
    Issues.hasErrors (rs.flatMap (unresolvedOf titles)) = false := by
  refine List.any_eq_false.mpr fun i hi => ?_
  obtain ⟨r, -, hi⟩ := List.mem_flatMap.mp hi
  obtain ⟨l, -, rfl⟩ := List.mem_map.mp hi
  exact Bool.false_ne_true

theorem validate_hasErrors_iff (x : Index) :
    x.validate.hasErrors = false ↔ x.tags.Lists x.records.Tagged ∧
      x.links.Lists x.records.LinksBy ∧ x.backlinks.Lists fun b a => x.records.LinksTo a b := by
  have htags := x.checkMap_eq_nil_iff .tag x.tags (lists_tagsOf x.records)
    (fun _ _ h => h.contains) fun _ _ h => nomatch h
  have hlinks := x.checkMap_eq_nil_iff .link x.links (lists_linksOf x.records)
    (fun _ _ h => h.contains) fun _ _ h => nomatch h
  have hbacklinks := x.checkMap_eq_nil_iff .backlink x.backlinks (lists_backlinksOf x.records)
    (fun _ _ ⟨_, hl, _⟩ => hl.contains) fun _ _ _ ⟨_, _, hn⟩ => hn.contains
  simp only [validate, hasErrors_append, hasErrors_unresolvedOf, Bool.false_or, Bool.or_eq_false_iff,
    hasErrors_checkMap, htags, hlinks, hbacklinks, and_assoc]

theorem hasErrors_eq_false_iff (is : Issues) :
    is.hasErrors = false ↔ ∀ i ∈ is, i.severity ≠ .error := by
  rw [Issues.hasErrors, List.any_eq_false]
  refine forall₂_congr fun i _ => not_congr ?_
  rw [Issue.isError, beq_iff_eq]

/-- Whatever an index holds, its check finds no error just if its maps are those that its records
give: no empty set, each note under its tags and link keys, and each note that links to a title
under the notes of that title. -/
theorem validate_free_of_errors_iff (x : Index) :
    ((∀ i ∈ x.validate, i.severity ≠ .error) ↔
      x.tags = tagsOf x.records.values ∧ x.links = linksOf x.records.values ∧
        x.backlinks = backlinksOf x.records.values) ∧
    (tagsOf x.records.values).Lists x.records.Tagged ∧
    (linksOf x.records.values).Lists x.records.LinksBy ∧
    (backlinksOf x.records.values).Lists fun b a => x.records.LinksTo a b := by
  have htags := lists_tagsOf x.records
  have hlinks := lists_linksOf x.records
  have hbacklinks := lists_backlinksOf x.records
  refine ⟨?_, htags, hlinks, hbacklinks⟩
  rw [← hasErrors_eq_false_iff, validate_hasErrors_iff]
  constructor
  · rintro ⟨ht, hl, hb⟩
    exact ⟨ht.unique htags, hl.unique hlinks, hb.unique hbacklinks⟩
  · rintro ⟨ht, hl, hb⟩
    rw [ht, hl, hb]
    exact ⟨htags, hlinks, hbacklinks⟩

/-- An exact index passes its own check. -/
theorem Exact.validate {x : Index} (h : x.Exact) : x.validate.hasErrors = false :=
  (validate_hasErrors_iff x).mpr ⟨h.tags, h.links, h.backlinks⟩

end NoteIndex.Index
