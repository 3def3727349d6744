import NoteIndex.Proofs.Index.Reading
import NoteIndex.Proofs.Session.Basic
import NoteIndex.Proofs.Text.Lowercase

/-!
# Finding a note by its identifier

A name is trimmed, then looked up as an identifier, and only then taken for a title. Identifiers are
not trimmed when notes are entered. So a note is found by its identifier, whatever the identifiers
and titles of the others look like, as long as that has no blank at either end. One with a blank
there is found at best by its own title.
-/

namespace NoteIndex

theorem Text.trimmed_eq_iff (s : String) : trimmed s = s ↔ Trimmed s.toList := by
  constructor
  · intro h
    rw [← h, trimmed, String.toList_ofList]
    exact trimmed_trim _
  · intro h
    rw [trimmed, h.trim_eq, String.ofList_toList]

namespace Index

variable {x : Index} {name : String} {r : Record}

theorem resolve_of_find? (h : x.records.find? (Text.trimmed name) = some r) :
    x.resolve name = .unique r := by
  rw [resolve, h]

theorem resolve_of_none (h : x.records.find? (Text.trimmed name) = none) :
    x.resolve name = .unique r ↔ x.titled (Record.keyOfTitle name) = [r] := by
  rw [resolve, h]
  simp only
  split <;> simp_all

/-- A title finds just one note when all notes have other titles but that one. -/
theorem titled_eq_singleton_iff (hr : r ∈ x.records.values) (key : String) :
    x.titled key = [r] ↔ ∀ s ∈ x.records.values, s.titleKey = key ↔ s = r := by
  have hmem (s : Record) : s ∈ x.titled key ↔ s ∈ x.records.values ∧ s.titleKey = key := by
    rw [titled, List.mem_filter, beq_iff_eq]
  have hnodup : (x.titled key).Nodup := x.nodup_records.filter _
  rw [← List.perm_singleton, List.perm_ext_iff_of_nodup hnodup (List.nodup_singleton r)]
  simp only [hmem, List.mem_singleton]
  constructor
  · intro h s hs
    rw [← h s]
    exact (and_iff_right hs).symm
  · intro h s
    constructor
    · rintro ⟨hs, hkey⟩
      exact (h s hs).mp hkey
    · rintro rfl
      exact ⟨hr, (h s hr).mpr rfl⟩

/-- A note is found by its identifier just when that has no blank at either end, or when no note has
the trimmed identifier and just this note has it, in whatever letter case, as its title. A note that
has the trimmed identifier is found in its place. -/
theorem resolve_id_iff (x : Index) {r : Record} (hr : r ∈ x.records.values) :
    (x.resolve r.id = .unique r ↔ Text.Trimmed r.id.toList ∨
      ∀ s ∈ x.records.values, s.id ≠ Text.trimmed r.id ∧
        (s.titleKey = Record.keyOfTitle r.id ↔ s = r)) ∧
    ∀ s ∈ x.records.values, s.id = Text.trimmed r.id → x.resolve r.id = .unique s := by
  have hfound {s : Record} (hs : s ∈ x.records.values) (hid : s.id = Text.trimmed r.id) :
      x.resolve r.id = .unique s := by
    refine resolve_of_find? ?_
    rw [← hid]
    exact Keyed.find?_key hs
  refine ⟨?_, fun s hs hid => hfound hs hid⟩
  by_cases htrimmed : Text.Trimmed r.id.toList
  · have hid : r.id = Text.trimmed r.id := ((Text.trimmed_eq_iff r.id).mpr htrimmed).symm
    exact iff_of_true (hfound hr hid) (.inl htrimmed)
  rw [or_iff_right htrimmed]
  cases hs : x.records.find? (Text.trimmed r.id) with
  | some s =>
    -- the note found has the trimmed identifier, so it is another one
    obtain ⟨hmem, hid⟩ := (Keyed.find?_eq_some_iff _ _ _).mp hs
    refine iff_of_false (fun h => ?_) (fun h => (h s hmem).1 hid)
    rw [hfound hmem hid] at h
    cases h
    exact htrimmed ((Text.trimmed_eq_iff _).mp hid.symm)
  | none =>
    have hfree : ∀ s ∈ x.records.values, s.id ≠ Text.trimmed r.id := by
      intro s hmem hid
      rw [← hid, Keyed.find?_key hmem] at hs
      cases hs
    rw [resolve_of_none hs, titled_eq_singleton_iff hr]
    exact forall₂_congr fun s hmem => (and_iff_right (hfree s hmem)).symm

/-- Others that have the identifier as their title, or in another letter case, or with a blank, are
no hindrance. -/
theorem resolve_id_of_lookalikes :
    let a := Note.page "work" "Home" ""
    let b := Note.page "home" "Work" ""
    let s := (Session.start none).after [.put b, .put (.page "WORK" "work" ""), .put a,
      .put (.page " work" "Work " ""), .init]
    Record.ofNote a ∈ s.catalog.index.records.values ∧
      Text.Trimmed (Record.ofNote a).id.toList ∧
      s.catalog.index.resolve (Record.ofNote a).id = .unique (.ofNote a) ∧
      (s.catalog.index.titled (Record.keyOfTitle "work")).length = 3 := by
  intro a b s
  have hmem : Record.ofNote a ∈ s.catalog.index.records.values :=
    Session.mem_records_init ((Session.start none).after [.put b, .put (.page "WORK" "work" ""),
      .put a, .put (.page " work" "Work " "")]) rfl (by decide)
  have htrimmed : Text.Trimmed (Record.ofNote a).id.toList := by
    rw [Record.id_ofNote]
    exact (Text.trimmed_eq_iff "work").mp (by decide)
  have hfound := (resolve_id_iff s.catalog.index hmem).1.mpr (.inl htrimmed)
  exact ⟨hmem, htrimmed, hfound, by decide⟩

/-- The identifier ` a` finds the other note, whose identifier it is without the blank. -/
theorem padded_id_finds_other :
    let a := Note.page " a" "Alpha" ""
    let b := Note.page "a" "Beta" ""
    let s := (Session.start none).after [.put a, .put b, .init]
    Record.ofNote a ∈ s.catalog.index.records.values ∧
      s.catalog.index.resolve (Record.ofNote a).id = .unique (.ofNote b) ∧
      (Record.ofNote b).id ≠ (Record.ofNote a).id := by
  intro a b s
  have hmem {n : Note} (hn : n ∈ [a, b]) : Record.ofNote n ∈ s.catalog.index.records.values :=
    Session.mem_records_init ((Session.start none).after [.put a, .put b]) rfl hn
  have hname : Text.trimmed (Record.ofNote a).id = (Record.ofNote b).id := by
    rw [Record.id_ofNote, Record.id_ofNote]
    decide
  refine ⟨hmem (by simp), resolve_of_find? ?_, ?_⟩
  · rw [hname]
    exact Keyed.find?_key (hmem (by simp))
  · rw [Record.id_ofNote, Record.id_ofNote]
    decide

end Index

end NoteIndex
