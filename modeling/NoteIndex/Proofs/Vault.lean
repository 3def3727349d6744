import NoteIndex.Proofs.Collection.Keys
import NoteIndex.Proofs.Disk.Markdown
import NoteIndex.Vault

/-!
# What becomes of the files of a vault

A markdown file becomes a note, or it is reported. Its note is known by its path without the ending,
so that no file takes the place of another: on a disk different files have different paths, and the
paths can be told apart without their endings.
-/

namespace NoteIndex

namespace Note

variable {p q : Path} {f : File}

theorem idOfPath_of_ends (folder : Path) {stem : String} (h : stem ≠ "") :
    idOfPath (folder ++ [stem ++ ".md"]) = Path.text (folder ++ [stem]) := by
  have hstem : stem? (stem ++ ".md") = some stem := (stem?_eq_some_iff _ _).mpr ⟨h, rfl⟩
  rw [idOfPath, List.dropLast_concat, List.getLast?_concat, Option.bind_some, hstem]
  rfl

theorem wellNamed_of_ends {folder : Path} {stem : String}
    (h : Path.WellNamed (folder ++ [stem ++ ".md"])) : Path.WellNamed (folder ++ [stem]) := by
  obtain ⟨hfolder, hname⟩ := List.forall_mem_append.mp h
  refine Path.WellNamed.snoc hfolder fun hslash => List.forall_mem_singleton.mp hname ?_
  rw [String.toList_append]
  exact List.mem_append_left _ hslash

/-- The ending is no loss, as all markdown files have the same. -/
theorem idOfPath_inj (hp : p.Markdown) (hq : q.Markdown) : idOfPath p = idOfPath q ↔ p = q := by
  refine ⟨fun h => ?_, congrArg idOfPath⟩
  obtain ⟨folder, stem, rfl, hstem⟩ := hp.ends
  obtain ⟨folder', stem', rfl, hstem'⟩ := hq.ends
  rw [idOfPath_of_ends folder hstem, idOfPath_of_ends folder' hstem'] at h
  have heq := (Path.text_inj (wellNamed_of_ends hp.wellNamed) (wellNamed_of_ends hq.wellNamed)
    (by simp) (by simp)).mp h
  obtain ⟨rfl, hlast⟩ := List.append_inj' heq rfl
  obtain rfl : stem = stem' := by simpa using hlast
  rfl

theorem id_of_ofFile {n : Note} (h : ofFile p f = .ok n) : n.id = idOfPath p := by
  rw [ofFile] at h
  split at h
  · cases h
  · split at h
    · cases h
    · cases h
      rfl

theorem path_of_ofFile {e : LoadError} (h : ofFile p f = .error e) : e.path = p.text := by
  rw [ofFile] at h
  split at h
  · cases h
    rfl
  · split at h
    · cases h
      rfl
    · cases h

end Note

namespace Vault

/-! ## Notes and reports -/

/-- The note that a file becomes. -/
def noteOf (e : Path × File) : Option Note := (Note.ofFile e.1 e.2).toOption

/-- The report of a file that does not become a note. -/
def errorOf (e : Path × File) : Option LoadError :=
  match Note.ofFile e.1 e.2 with
  | .error x => some x
  | .ok _ => none

theorem noteOf_eq_some_iff (e : Path × File) (n : Note) :
    noteOf e = some n ↔ Note.ofFile e.1 e.2 = .ok n := by
  rw [noteOf]
  cases Note.ofFile e.1 e.2 <;> simp [Except.toOption]

theorem errorOf_eq_some_iff (e : Path × File) (x : LoadError) :
    errorOf e = some x ↔ Note.ofFile e.1 e.2 = .error x := by
  rw [errorOf]
  cases Note.ofFile e.1 e.2 <;> simp

/-- A file is a note or a report, not both. -/
theorem noteOf_or_errorOf (e : Path × File) :
    (∃ n, Note.ofFile e.1 e.2 = .ok n ∧ noteOf e = some n ∧ errorOf e = none) ∨
    ∃ x, Note.ofFile e.1 e.2 = .error x ∧ noteOf e = none ∧ errorOf e = some x := by
  rw [noteOf, errorOf]
  cases Note.ofFile e.1 e.2 with
  | ok n => exact .inl ⟨n, rfl, rfl, rfl⟩
  | error x => exact .inr ⟨x, rfl, rfl, rfl⟩

variable {files : List (Path × File)}

theorem errors_ofFiles (files : List (Path × File)) :
    (ofFiles files).errors = files.filterMap errorOf := by
  simp only [ofFiles, List.filterMap_map]
  rfl

theorem errors_eq_nil_iff (files : List (Path × File)) :
    (ofFiles files).errors = [] ↔ ∀ e ∈ files, ∃ n, Note.ofFile e.1 e.2 = .ok n := by
  rw [errors_ofFiles, List.filterMap_eq_nil_iff]
  refine forall_congr' fun e => forall_congr' fun _ => ?_
  rw [errorOf]
  cases Note.ofFile e.1 e.2 <;> simp

theorem errors_ne_nil_iff (files : List (Path × File)) :
    (ofFiles files).errors ≠ [] ↔ ∃ e ∈ files, ∃ x, Note.ofFile e.1 e.2 = .error x := by
  simp only [errors_ofFiles, Ne, List.filterMap_eq_nil_iff, not_forall, exists_prop,
    Option.ne_none_iff_exists', errorOf_eq_some_iff]

theorem notes_ofFiles (h : (files.map fun e => Note.idOfPath e.1).Nodup) :
    (ofFiles files).book.notes = files.filterMap noteOf := by
  have hids : ((files.filterMap noteOf).map Note.id).Nodup :=
    nodup_map_filterMap (fun e n hn => Note.id_of_ofFile ((noteOf_eq_some_iff e n).mp hn)) h
  simp only [ofFiles, List.filterMap_map]
  exact Keyed.values_ofValues hids

theorem length_add_length (files : List (Path × File)) :
    (files.filterMap noteOf).length + (files.filterMap errorOf).length = files.length := by
  induction files with
  | nil => rfl
  | cons e r ih =>
    rw [List.filterMap_cons, List.filterMap_cons, List.length_cons, ← ih]
    obtain ⟨n, -, hn, hx⟩ | ⟨x, -, hn, hx⟩ := noteOf_or_errorOf e
    · rw [hn, hx, List.length_cons]
      exact Nat.add_right_comm ..
    · rw [hn, hx, List.length_cons]
      rfl

theorem scan_eq_ok {d : Disk} {path : String} (h : scan d path = .ok files) :
    ∃ p, d.resolve path = .found p ∧ d.isFolder p = true ∧ d.markdownFiles p = files := by
  rw [scan] at h
  split at h
  · rename_i p hp
    split at h
    · rename_i hfolder
      exact ⟨p, hp, hfolder, Except.ok.inj h⟩
    · cases h
  · cases h

/-- What tells markdown paths apart tells the files of a folder apart. -/
theorem nodup_map_path {d : Disk} (hd : d.root.WellNamed) {path : String}
    (h : scan d path = .ok files) {g : Path → String}
    (hg : ∀ p q : Path, p.Markdown → q.Markdown → g p = g q → p = q) :
    (files.map fun e => g e.1).Nodup := by
  obtain ⟨p, -, -, rfl⟩ := scan_eq_ok h
  have hmarkdown : ∀ q ∈ (d.markdownFiles p).map Prod.fst, Path.Markdown q := by
    refine List.forall_mem_map.mpr fun e he => ?_
    exact Disk.markdown_of_mem hd he
  have hnodup := (Disk.nodup_paths hd d.depthBound [] p).map_on (f := g) fun a ha b hb =>
    hg a b (hmarkdown a ha) (hmarkdown b hb)
  rw [List.map_map] at hnodup
  exact hnodup

/-- No file of a folder is lost. Files have identifiers of their own, and each of them is either one
note or one report, not both; notes and reports keep the order of the files. -/
theorem files_accounted_for {d : Disk} (hd : d.root.WellNamed) {path : String}
    (h : scan d path = .ok files) :
    (files.map fun e => Note.idOfPath e.1).Nodup ∧
    ∃ v, ofFolder d path = .ok v ∧
      (∀ e ∈ files,
        (∃ n, Note.ofFile e.1 e.2 = .ok n ∧
          v.book.notes.filter (·.id = Note.idOfPath e.1) = [n] ∧
          v.errors.filter (·.path = e.1.text) = []) ∨
        ∃ x, Note.ofFile e.1 e.2 = .error x ∧
          v.book.notes.filter (·.id = Note.idOfPath e.1) = [] ∧
          v.errors.filter (·.path = e.1.text) = [x]) ∧
      (v.book.notes.map Note.id).Sublist (files.map fun e => Note.idOfPath e.1) ∧
      (v.errors.map LoadError.path).Sublist (files.map fun e => e.1.text) ∧
      v.book.notes.length + v.errors.length = files.length := by
  have hids : (files.map fun e => Note.idOfPath e.1).Nodup :=
    nodup_map_path hd h fun p q hp hq => (Note.idOfPath_inj hp hq).mp
  have htexts : (files.map fun e => e.1.text).Nodup :=
    nodup_map_path hd h fun p q hp hq =>
      (Path.text_inj hp.wellNamed hq.wellNamed hp.ne_nil hq.ne_nil).mp
  have hid (e : Path × File) (n : Note) (hn : noteOf e = some n) : n.id = Note.idOfPath e.1 :=
    Note.id_of_ofFile ((noteOf_eq_some_iff e n).mp hn)
  have hpath (e : Path × File) (x : LoadError) (hx : errorOf e = some x) : x.path = e.1.text :=
    Note.path_of_ofFile ((errorOf_eq_some_iff e x).mp hx)
  refine ⟨hids, ofFiles files, ?_, ?_⟩
  · rw [ofFolder, h]
    rfl
  · rw [notes_ofFiles hids, errors_ofFiles]
    refine ⟨fun e he => ?_, map_filterMap_sublist hid files, map_filterMap_sublist hpath files,
      length_add_length files⟩
    rw [filter_filterMap_of_key hid hids he, filter_filterMap_of_key hpath htexts he]
    obtain ⟨n, hfile, hn, hx⟩ | ⟨x, hfile, hn, hx⟩ := noteOf_or_errorOf e
    · rw [hn, hx]
      exact .inl ⟨n, hfile, rfl, rfl⟩
    · rw [hn, hx]
      exact .inr ⟨x, hfile, rfl, rfl⟩

/-- Files of one name in folders that are named alike, and one with a blank and two dots. -/
theorem files_accounted_for_lookalikes :
    let text : Node := .file ⟨.ok [], none, default⟩
    let broken : Node := .file ⟨.ok [0xC3, 0x28], none, default⟩
    let folder : Node := .folder []
    let d := (((((Disk.fresh ["notes"]).put ["notes", "a"] folder).put ["notes", "a.md"] folder).put
      ["notes", "a", "b.md"] broken).put ["notes", "a.md", "b.md"] text).put
      ["notes", "a. b.md"] text
    ∃ v, ofFolder d "." = .ok v ∧
      (v.book.notes.map Note.id).Sublist ["a/b", "a. b", "a.md/b"] ∧
      v.book.notes.length + v.errors.length = 3 := by
  intro text broken folder d
  have hd : d.WellNamed := by
    have htext : text.WellNamed := .file _
    have hbroken : broken.WellNamed := .file _
    have hfolder : folder.WellNamed := .folder .nil (by simp) (by simp)
    have hfresh : (Disk.fresh ["notes"]).WellNamed := Disk.wellNamed_fresh (by decide)
    exact ((((hfresh.put (by decide) hfolder).put (by decide) hfolder).put (by decide) hbroken).put
      (by decide) htext).put (by decide) htext
  have hscan : scan d "." = .ok (d.markdownFiles ["notes"]) := by rfl
  have hids : (d.markdownFiles ["notes"]).map (fun e => Note.idOfPath e.1) =
      ["a/b", "a. b", "a.md/b"] := by decide
  obtain ⟨-, v, hv, -, hnotes, -, hlength⟩ := files_accounted_for hd.root hscan
  rw [hids] at hnotes
  refine ⟨v, hv, hnotes, ?_⟩
  rw [hlength, ← List.length_map (f := fun e => Note.idOfPath e.1), hids]
  rfl

end Vault

end NoteIndex
