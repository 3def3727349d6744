import NoteIndex.CommandLine.Run
import NoteIndex.Proofs.Index.Unresolved
import NoteIndex.Proofs.Vault

/-!
# How a check ends

A check goes by an index that is built anew or taken from the cache, and is free of errors either
way. So it fails for the files of the vault alone: for one that cannot be loaded. Links that lead
nowhere are reported, but do not make it fail, and can be left out.
-/

namespace NoteIndex

/-- Every link leads to a note. -/
def Notebook.LinksResolve (b : Notebook) : Prop :=
  ∀ n ∈ b.notes, ∀ l ∈ (Record.ofNote n).links, ∃ m ∈ b.notes, (Record.ofNote m).titleKey = l.key

instance (b : Notebook) : Decidable b.LinksResolve :=
  inferInstanceAs (Decidable (∀ n ∈ b.notes, ∀ l ∈ (Record.ofNote n).links,
    ∃ m ∈ b.notes, (Record.ofNote m).titleKey = l.key))

namespace Issues

theorem errors_eq_nil {is : Issues} (h : is.hasErrors = false) : is.errors = [] :=
  List.filter_eq_nil_iff.mpr (List.any_eq_false.mp h)

theorem warnings_eq_self {is : Issues} (h : is.hasErrors = false) : is.warnings = is := by
  refine List.filter_eq_self.mpr fun i hi => ?_
  have hnot := (Index.hasErrors_eq_false_iff is).mp h i hi
  rw [Issue.isWarning]
  cases hi : i.severity with
  | warning => rfl
  | error => exact absurd hi hnot

end Issues

/-! ## The index of a notebook -/

namespace Index

variable (b : Notebook)

theorem size_ofNotes : (ofNotes b.notes).size = b.notes.length := by
  rw [← List.length_map (f := Record.ofNote), ← values_ofNotes b, Table.values, List.length_map]
  rfl

theorem isEmpty_ofNotes : (ofNotes b.notes).records.isEmpty = b.notes.isEmpty := by
  rw [← List.isEmpty_map (f := Record.ofNote), ← values_ofNotes b, Table.values, List.isEmpty_map]
  rfl

theorem hasErrors_ofNotes : (ofNotes b.notes).validate.hasErrors = false :=
  (InStep.ofNotes b).knows.exact.validate

theorem validate_ofNotes_eq_nil_iff : (ofNotes b.notes).validate = [] ↔ b.LinksResolve := by
  rw [validate_eq_nil_iff (hasErrors_ofNotes b), values_ofNotes]
  simp only [List.mem_map, forall_exists_index, and_imp, forall_apply_eq_imp_iff₂,
    exists_exists_and_eq_and, Notebook.LinksResolve]

end Index

namespace CommandLine

/-! ## The report -/

section Report

variable {quiet : Bool} {vault : Vault} {x : Index}

/-- The line of a check that finds nothing. -/
def okLine (n : Nat) : String := "All " ++ Nat.repr n ++ " notes OK."

/-- The report of an index free of errors. -/
theorem checkReport_eq (hx : x.validate.hasErrors = false) :
    checkReport quiet vault x =
      if x.records.isEmpty = true ∧ vault.errors = [] then .ok ["No notes found."]
      else if vault.errors = [] ∧ (quiet = true ∨ x.validate = []) then .ok [okLine x.size]
      else
        let warnings := if quiet then 0 else x.validate.length
        { output :=
            vault.errors.map ("error: " ++ ·.line) ++
              (if quiet then [] else x.validate).map Issue.line ++
              ["", "Found " ++ countLine (vault.errors.length + warnings) "issue" ++ ": " ++
                countLine vault.errors.length "error" ++ ", " ++ countLine warnings "warning"]
          trouble := []
          failure := if vault.errors = [] then none else some (.told "check failed") } := by
  have hwarning : ∀ i ∈ x.validate, i.isWarning = true :=
    List.filter_eq_self.mp (Issues.warnings_eq_self hx)
  have hshown : x.validate.filter (fun i => !(quiet && i.isWarning)) =
      if quiet then [] else x.validate := by
    cases quiet with
    | false => exact List.filter_true x.validate
    | true => exact List.filter_eq_nil_iff.mpr fun i hi => by simp [hwarning i hi]
  have hcount : (if quiet then 0 else x.validate.length) = 0 ↔ quiet = true ∨ x.validate = [] := by
    cases quiet <;> simp
  rw [checkReport]
  simp only [Issues.bySeverity, Issues.errors_eq_nil hx, Issues.warnings_eq_self hx,
    List.nil_append, hshown, List.length_nil, Nat.zero_add, Bool.and_eq_true, List.isEmpty_iff,
    List.length_eq_zero_iff, hcount]
  rfl

theorem failure_checkReport (hx : x.validate.hasErrors = false) :
    (checkReport quiet vault x).failure.isSome = true ↔ vault.errors ≠ [] := by
  rw [checkReport_eq hx]
  split
  · rename_i h
    simp [Report.ok, h.2]
  · split
    · rename_i h
      simp [Report.ok, h.1]
    · by_cases herrors : vault.errors = [] <;> simp [herrors]

theorem checkReport_ne_crash (hx : x.validate.hasErrors = false) :
    (checkReport quiet vault x).failure ≠ some .crash := by
  rw [checkReport_eq hx]
  split
  · nofun
  · split
    · nofun
    · by_cases herrors : vault.errors = [] <;> simp [herrors]

theorem head?_okLine (n : Nat) : (okLine n).toList.head? = some 'A' := by
  rw [okLine, String.toList_append, String.toList_append]
  rfl

theorem head?_line (i : Issue) : i.line.toList.head? ≠ some 'A' := by
  rw [Issue.line, String.toList_append, String.toList_append]
  cases i.severity <;> simp [Severity.name]

theorem output_checkReport (hx : x.validate.hasErrors = false)
    (h : vault.errors = [] ∧ (quiet = true ∨ x.validate = []))
    (hne : x.records.isEmpty = false ∨ vault.errors ≠ []) :
    (checkReport quiet vault x).output = [okLine x.size] := by
  have hempty : ¬ (x.records.isEmpty = true ∧ vault.errors = []) := by
    rintro ⟨hnone, herrors⟩
    rcases hne with hsome | hsome
    · exact Bool.false_ne_true (hsome.symm.trans hnone)
    · exact hsome herrors
  rw [checkReport_eq hx, if_neg hempty, if_pos h]
  rfl

/-- No other line looks like that of a check that finds nothing. -/
theorem okLine_not_mem_checkReport (hx : x.validate.hasErrors = false)
    (h : ¬ (vault.errors = [] ∧ (quiet = true ∨ x.validate = []))) (n : Nat) :
    okLine n ∉ (checkReport quiet vault x).output := by
  -- The other lines begin with other letters, or are empty.
  intro hmem
  have hhead := head?_okLine n
  rw [checkReport_eq hx, if_neg h] at hmem
  split at hmem
  · rw [List.mem_singleton.mp hmem] at hhead
    cases hhead
  · simp only [List.mem_append, List.mem_map, List.mem_cons, List.not_mem_nil, or_false] at hmem
    rcases hmem with (⟨e, -, he⟩ | ⟨i, -, hi⟩) | hblank | hcount
    · rw [← he, String.toList_append] at hhead
      cases hhead
    · exact head?_line i (hi ▸ hhead)
    · rw [hblank] at hhead
      cases hhead
    · simp only [hcount, String.append_assoc, String.toList_append] at hhead
      cases hhead

end Report

/-! ## The run -/

/-- Whatever the store, a check reports on the index of the notes. -/
theorem report_check (quiet verbose : Bool) (vault : Vault) (store : Option Store) :
    ((Command.check quiet).run verbose vault store).1 =
      checkReport quiet vault (Index.ofNotes vault.book.notes) :=
  congrArg (checkReport quiet vault) ((Catalog.fresh store).index_init vault.book rfl)

section Run

variable {d : Disk} {home : String} {args : List String} {call : Invocation} {config : Config}
  {quiet : Bool} {path : String} {files : List (Path × File)}

theorem run_check (hplan : plan d home args = .ok (call, config))
    (hcheck : call.command = .check quiet) (hplace : placeOf call config = .folder path)
    (hscan : Vault.scan d path = .ok files) : ∃ cache, run d home args =
      .ofReport (checkReport quiet (Vault.ofFiles files)
        (Index.ofNotes (Vault.ofFiles files).book.notes)) cache := by
  have hvault : loadVault d (.folder path) = .ok (Vault.ofFiles files) := by
    rw [loadVault, Vault.ofFolder, hscan]
    rfl
  simp only [run, hplan, hcheck, hplace, runAt, hvault]
  rw [report_check]
  exact ⟨_, rfl⟩

theorem status_ofReport {r : Report} (h : r.failure ≠ some .crash)
    (cache : Option (String × Store)) :
    (Outcome.ofReport r cache).status = .failure ↔ r.failure.isSome = true := by
  rw [Outcome.ofReport]
  match hf : r.failure with
  | none => simp
  | some (.told why) => simp [Failure.status]
  | some .crash => exact absurd hf h

theorem status_ofReport_success (r : Report) (cache : Option (String × Store)) :
    (Outcome.ofReport r cache).status = .success ↔ ¬ r.failure.isSome = true := by
  rw [Outcome.ofReport]
  match r.failure with
  | none => simp
  | some (.told why) => simp [Failure.status]
  | some .crash => simp [Failure.status]

/-- A check of a folder fails just if a file in it cannot be loaded, whatever is cached and whether
links are looked at. It says that all is well just if all files can be loaded and all links that are
looked at lead to notes. -/
theorem check_verdict (hplan : plan d home args = .ok (call, config))
    (hcheck : call.command = .check quiet) (hplace : placeOf call config = .folder path)
    (hscan : Vault.scan d path = .ok files) :
    let v := Vault.ofFiles files
    let o := run d home args
    (o.status = .failure ↔ ∃ e ∈ files, ∃ x, Note.ofFile e.1 e.2 = .error x) ∧
    (o.status = .success ↔ ∀ e ∈ files, ∃ n, Note.ofFile e.1 e.2 = .ok n) ∧
    (v.book.notes ≠ [] ∨ v.errors ≠ [] →
      (v.errors = [] ∧ (quiet = true ∨ v.book.LinksResolve) →
        o.output = ["All " ++ Nat.repr v.book.notes.length ++ " notes OK."]) ∧
      (¬ (v.errors = [] ∧ (quiet = true ∨ v.book.LinksResolve)) →
        ∀ n, "All " ++ Nat.repr n ++ " notes OK." ∉ o.output)) ∧
    ∀ store quiet', let r := ((Command.check quiet').run call.verbose v store).1
      (r.failure.isSome = true ↔ o.status = .failure) ∧ (quiet' = quiet → r.output = o.output) := by
  intro v o
  obtain ⟨cache, ho⟩ := run_check hplan hcheck hplace hscan
  replace ho : o = .ofReport (checkReport quiet v (Index.ofNotes v.book.notes)) cache := ho
  have hfree := Index.hasErrors_ofNotes v.book
  have hfailure : o.status = .failure ↔ v.errors ≠ [] := by
    rw [ho, status_ofReport (checkReport_ne_crash hfree)]
    exact failure_checkReport hfree
  have hsuccess : o.status = .success ↔ v.errors = [] := by
    rw [ho, status_ofReport_success, failure_checkReport hfree, not_not]
  have houtput : o.output = (checkReport quiet v (Index.ofNotes v.book.notes)).output := by
    rw [ho]
    rfl
  refine ⟨hfailure.trans (Vault.errors_ne_nil_iff files),
    hsuccess.trans (Vault.errors_eq_nil_iff files), ?_, ?_⟩
  · intro hne
    rw [houtput, ← Index.validate_ofNotes_eq_nil_iff]
    refine ⟨fun h => ?_, okLine_not_mem_checkReport hfree⟩
    rw [output_checkReport hfree h ?_, Index.size_ofNotes]
    · rfl
    · rw [Index.isEmpty_ofNotes]
      simpa using hne
  · intro store quiet' r
    rw [show r = checkReport quiet' v _ from report_check quiet' call.verbose v store]
    refine ⟨(failure_checkReport hfree).trans hfailure.symm, ?_⟩
    rintro rfl
    exact houtput.symm

end Run

/-- A link that leads nowhere is passed over if it is not looked at; the cache is no cache. -/
theorem check_verdict_spoilt_cache :
    let note : Node := .file ⟨.ok (Text.encodeUtf8 "[[Nowhere]]"), none, default⟩
    let spoilt : Node := .file ⟨.ok [0xC3, 0x28], none, default⟩
    let d : Disk := ⟨.folder [(".index", .folder [("notedex.db", spoilt)]), ("a.md", note)], []⟩
    let quiet := run d "/home" ["check", "--quiet"]
    let loud := run d "/home" ["check"]
    quiet.status = .success ∧ quiet.output = ["All 1 notes OK."] ∧ loud.status = .success ∧
      ∀ n, "All " ++ Nat.repr n ++ " notes OK." ∉ loud.output := by
  intro note spoilt d quiet loud
  have hplan (b : Bool) (args : List String) (h : parse args = .ok ⟨none, none, false, .check b⟩) :
      plan d "/home" args = .ok (⟨none, none, false, .check b⟩, Config.usual) := by
    rw [plan, h]
    rfl
  have hscan : Vault.scan d "." = .ok (d.markdownFiles []) := rfl
  have hloads : (Vault.ofFiles (d.markdownFiles [])).errors = [] := by decide +kernel
  have hall := (Vault.errors_eq_nil_iff _).mp hloads
  have hnotes : (Vault.ofFiles (d.markdownFiles [])).book.notes.length = 1 := by decide +kernel
  have hne := List.ne_nil_of_length_pos (Nat.lt_of_lt_of_eq Nat.zero_lt_one hnotes.symm)
  have hquiet := check_verdict (hplan true ["check", "--quiet"] (by decide)) rfl rfl hscan
  have hloud := check_verdict (hplan false ["check"] (by decide)) rfl rfl hscan
  have hdangling : ¬ (Vault.ofFiles (d.markdownFiles [])).book.LinksResolve := by decide +kernel
  refine ⟨hquiet.2.1.mpr hall, ?_, hloud.2.1.mpr hall, ?_⟩
  · have hline := (hquiet.2.2.1 (.inl hne)).1 ⟨hloads, .inl rfl⟩
    rwa [hnotes] at hline
  · refine (hloud.2.2.1 (.inl hne)).2 ?_
    rintro ⟨-, hfalse | hresolve⟩
    · cases hfalse
    · exact hdangling hresolve

end CommandLine

end NoteIndex
