import NoteIndex.Proofs.Query.Sorting
import NoteIndex.Proofs.Query.Sources

/-!
# How queries fail

Once its text has been read a query fails only for a list of tasks, at the first note that is gone
from the notebook while the index still has its record. It then has no results at all, not even
those of the notes before, and whether it fails or not the index is left as building it would leave
it. Text that cannot be read is found out before anything is built.

A query in any shape has no answer, not even an error, where the program stops at sorting. It does
not where the records that are selected can be put in the order asked for.
-/

namespace NoteIndex

namespace Query

namespace Outcome

variable {result : Except Error Results}

theorem error_ofResult_iff (e : Error) : (ofResult result).error = some e ↔ result = .error e := by
  cases result <;> simp [ofResult, Outcome.ok, failed]

theorem eq_ok_of_error (h : (ofResult result).error = none) :
    result = .ok (ofResult result).results := by
  cases result with
  | ok results => rfl
  | error e => cases h

theorem results_ofResult (h : (ofResult result).error ≠ none) :
    (ofResult result).results = .list [] := by
  cases result with
  | ok results => exact absurd rfl h
  | error e => rfl

end Outcome

variable {x : Index} {book : Notebook} {q : Query}

/-- The first of the records whose note is not in the notebook. -/
def missing? (book : Notebook) (rs : List Record) : Option Record :=
  rs.find? fun r => (book.find? r.id).isNone

/-- Going through the records stops at the first whose note is gone, whatever came before. -/
theorem taskRows_error_iff (rs : List Record) (e : Error) :
    taskRows book rs = .error e ↔ ∃ r, missing? book rs = some r ∧ e = .noteUnavailable r.id := by
  induction rs with
  | nil => simp [taskRows, missing?]
  | cons r rs ih =>
    rw [taskRows, missing?]
    cases hr : book.find? r.id with
    | none =>
      rw [List.find?_cons_of_pos (by simp [hr])]
      simp [eq_comm]
    | some n =>
      rw [List.find?_cons_of_neg (by simp [hr])]
      exact map_eq_error_iff.trans ih

/-- All that the other shapes tell is at hand in the records. -/
theorem project_of_ne_task (h : q.shape ≠ .task) (book : Notebook) (rs : List Record) :
    ∃ results, q.project book rs = .ok results := by
  rw [project]
  cases hs : q.shape with
  | task => exact absurd hs h
  | list => exact ⟨_, rfl⟩
  | table => exact ⟨_, rfl⟩
  | count => exact ⟨_, rfl⟩

theorem project_error_iff (rs : List Record) (e : Error) : q.project book rs = .error e ↔
    q.shape = .task ∧ ∃ r, missing? book rs = some r ∧ e = .noteUnavailable r.id := by
  by_cases hs : q.shape = .task
  · rw [project, hs]
    exact map_eq_error_iff.trans ((taskRows_error_iff rs e).trans (and_iff_right rfl).symm)
  · obtain ⟨results, hresults⟩ := project_of_ne_task hs book rs
    rw [hresults]
    simp [hs]

/-- An answer is about the first of the records that are selected, as they are asked for. -/
theorem exists_arranged_of_run {result : Except Error Results} (h : q.run x book = some result) :
    ∃ arranged, q.Arranges (selected x q) arranged ∧
      q.project book (q.limit.elim arranged arranged.take) = result := by
  obtain ⟨found, hfound, rfl⟩ := Option.map_eq_some_iff.mp h
  obtain ⟨arranged, harranged, rfl⟩ := matched_eq_some_iff.mp hfound
  refine ⟨arranged, arranges_of_arranged harranged, congrArg (q.project book) ?_⟩
  rw [limited]
  cases q.limit <;> rfl

end Query

namespace Catalog

open Query (Outcome missing? parse)

variable (c : Catalog) (book : Notebook)

/-- Text that cannot be read leaves the catalog alone, with an error and no results. Otherwise the
catalog is as building it would leave it, and the query is about the records that it selects, as
they are asked for, as many of them as the limit lets through. There is an answer if these can be
put in order. It is an error just if tasks were asked for and one of the notes to go through is
gone; the first of these is named, and there are no results. -/
theorem execute_error_iff (text : String) :
    let ran := c.execute book text
    let built := (c.init book).1
    let x := built.index
    (∀ e, parse text = .error e → ran = (c, some ⟨.list [], some e⟩)) ∧
    (c.initialized = true → built = c) ∧
    ∀ q, parse text = .ok q → ran.1 = built ∧
      (x.Exact → ∀ s ∈ q.sources, ∀ r ∈ x.records.values, r.id ∈ s.ids x ↔ s.Covers r) ∧
      ∃ selected, q.Selects x selected ∧ (ran.2 = none → ¬q.Sortable selected) ∧
        ∀ o, ran.2 = some o → ∃ arranged, q.Arranges selected arranged ∧
          let kept := q.limit.elim arranged arranged.take
          (∀ e, o.error = some e ↔ q.shape = .task ∧
            ∃ r, missing? book kept = some r ∧ e = .noteUnavailable r.id ∧
              e.message = "note '" ++ r.id ++ "' is no longer available") ∧
          (q.shape ≠ .task → o.error = none) ∧
          (o.error ≠ none → o.results = .list []) ∧
          (o.error = none → q.project book kept = .ok o.results) := by
  intro ran built x
  refine ⟨fun e he => c.execute_of_error book he,
    fun h => congrArg Prod.fst (c.init_of_initialized book h), fun q hq => ?_⟩
  have hran : ran = (built, (q.run x book).map Outcome.ofResult) := c.execute_of_ok book hq
  refine ⟨congrArg Prod.fst hran, fun hexact s hs r hr =>
    Query.id_mem_ids_iff hexact (Query.readBack_of_parse hq s hs) hr,
    q.selected x, Query.selects_selected x q, fun hnone => ?_, fun o ho => ?_⟩
  · rw [hran, Option.map_eq_none_iff] at hnone
    exact Query.not_sortable_of_matched (Option.map_eq_none_iff.mp hnone)
  · rw [hran] at ho
    obtain ⟨result, hresult, rfl⟩ := Option.map_eq_some_iff.mp ho
    obtain ⟨arranged, harranged, rfl⟩ := Query.exists_arranged_of_run hresult
    refine ⟨arranged, harranged, ?_⟩
    intro kept
    have herror (e : Query.Error) : (Outcome.ofResult (q.project book kept)).error = some e ↔
        q.shape = .task ∧ ∃ r, missing? book kept = some r ∧ e = .noteUnavailable r.id :=
      (Outcome.error_ofResult_iff e).trans (Query.project_error_iff kept e)
    refine ⟨fun e => ?_, fun hs => ?_, Outcome.results_ofResult, Outcome.eq_ok_of_error⟩
    · rw [herror]
      constructor
      · rintro ⟨hs, r, hr, rfl⟩
        exact ⟨hs, r, hr, rfl, rfl⟩
      · rintro ⟨hs, r, hr, he, -⟩
        exact ⟨hs, r, hr, he⟩
    · exact Option.eq_none_iff_forall_ne_some.mpr fun e he => hs ((herror e).mp he).1

/-- The index still has the note that the notebook has lost. -/
theorem execute_error_vanished :
    let a := Note.page "a" "Alpha" "- [ ] call"
    let s := (Session.start none).after [.put a, .init, .drop "a"]
    s.catalog.execute s.book "TASK" =
      (s.catalog, some ⟨.list [], some (.noteUnavailable "a")⟩) := by
  intro a s
  obtain ⟨-, hsame, hparsed⟩ := s.catalog.execute_error_iff s.book "TASK"
  have htokens : (Query.Token.tokenize "TASK".toList).toOption = some [.word "TASK".toList] := by
    decide
  have hparse : parse "TASK" = .ok ⟨.task, [], [], [], none, none⟩ :=
    Query.parse_of_tokens htokens (List.cons_ne_nil _ _) (by rfl)
  have hinit : (s.catalog.init s.book).1 = s.catalog := hsame (by decide)
  obtain ⟨hbuilt, -, selected, hselects, hstops, hanswer⟩ := hparsed _ hparse
  rw [hinit] at hbuilt hselects
  have hsortable : Query.Sortable ⟨.task, [], [], [], none, none⟩ selected := by
    simp [Query.Sortable]
  obtain ⟨o, ho⟩ := Option.ne_none_iff_exists'.mp fun h => hstops h hsortable
  obtain ⟨arranged, harranges, herror, -, hempty, -⟩ := hanswer o ho
  obtain rfl : arranged = selected := harranges.eq_of_unordered rfl
  have hids : ∀ r ∈ s.catalog.index.records.values, r.id = "a" := by decide
  have hgone : ∀ r ∈ s.catalog.index.records.values, (s.book.find? r.id).isNone = true := by
    decide
  obtain ⟨r, hr⟩ : ∃ r, missing? s.book arranged = some r := by
    have hne : s.catalog.index.records.values ≠ [] := by decide
    obtain ⟨r, hr⟩ := List.exists_mem_of_ne_nil _ hne
    have hmem : r ∈ arranged := (hselects.mem_iff r).mpr ⟨hr, .inl rfl, by simp⟩
    exact Option.isSome_iff_exists.mp (List.find?_isSome.mpr ⟨r, hmem, hgone r hr⟩)
  have hid : r.id = "a" := hids r (hselects.sublist.subset (List.mem_of_find?_eq_some hr))
  have hfailed : o.error = some (.noteUnavailable r.id) := (herror _).mpr ⟨rfl, r, hr, rfl, rfl⟩
  have hresults : o.results = .list [] := hempty (hfailed ▸ Option.some_ne_none _)
  refine Prod.ext hbuilt (ho.trans (congrArg some ?_))
  rw [show o = ⟨o.results, o.error⟩ from rfl, hfailed, hresults, hid]

/-- By their values 9 stands before 10, 10 before 10a, and 10a before 9. Sorting 21 notes by these
stops the program. -/
theorem execute_circular :
    let values := ["10", "10", "10", "10a", "10", "9"] ++ List.replicate 15 "10"
    let ids := "abcdefghijklmnopqrstu".toList.map String.singleton
    let notes :=
      List.zipWith (fun id v => Note.page id id ("---\nv: " ++ v ++ "\n---\n")) ids values
    let s := (Session.start none).after (notes.map .put)
    ∀ text ∈ ["LIST ORDER BY v", "COUNT ORDER BY v"], ∃ q, parse text = .ok q ∧ q.shape ≠ .task ∧
      (s.catalog.execute s.book text).2 = none := by
  intro values ids notes s
  let order : Query.Order := ⟨"v", false⟩
  let q : Query := ⟨.list, [], [], [], some order, none⟩
  have hselected : q.selected (s.catalog.init s.book).1.index = s.book.notes.map Record.ofNote := by
    rw [s.catalog.index_init s.book rfl]
    exact (List.filter_eq_self.mpr fun _ _ => rfl).trans (Index.values_ofNotes s.book)
  have hmatched : q.matched (s.catalog.init s.book).1.index = none := by
    refine Option.map_eq_none_iff.mpr (Query.Order.sortRecords_eq_none_iff.mpr ⟨?_, fun h => ?_⟩)
    · rw [hselected, List.length_map]
      decide +kernel
    · let noteOf (id v : String) : Note := .page id id ("---\nv: " ++ v ++ "\n---\n")
      have hmem (n : Note) (hn : n ∈ s.book.notes) :
          Record.ofNote n ∈ q.selected (s.catalog.init s.book).1.index :=
        hselected ▸ List.mem_map_of_mem hn
      have hallows := h _ (hmem (noteOf "f" "9") (by decide +kernel))
        _ (hmem (noteOf "a" "10") (by decide +kernel))
        _ (hmem (noteOf "d" "10a") (by decide +kernel)) (by decide +kernel) (by decide +kernel)
      exact absurd hallows (by decide +kernel)
  have hstops {shape : Query.Shape} {text : String} (hparse : parse text = .ok { q with shape }) :
      (s.catalog.execute s.book text).2 = none := by
    rw [s.catalog.execute_of_ok s.book hparse, Query.run, Query.matched_shape _ q shape [],
      hmatched]
    rfl
  let tokens (word : String) : List Query.Token :=
    [.word word.toList, .word "ORDER".toList, .word "BY".toList, .word "v".toList]
  have htokens : ∀ word ∈ ["LIST", "COUNT"],
      (Query.Token.tokenize (word ++ " ORDER BY v").toList).toOption = some (tokens word) := by
    decide +kernel
  have hlist : parse "LIST ORDER BY v" = .ok { q with shape := .list } :=
    Query.parse_of_tokens (htokens "LIST" (by simp)) (List.cons_ne_nil _ _) (by rfl)
  have hcount : parse "COUNT ORDER BY v" = .ok { q with shape := .count } :=
    Query.parse_of_tokens (htokens "COUNT" (by simp)) (List.cons_ne_nil _ _) (by rfl)
  simp only [List.forall_mem_cons, List.not_mem_nil, false_imp_iff, implies_true, and_true]
  exact ⟨⟨_, hlist, by decide, hstops hlist⟩, _, hcount, by decide, hstops hcount⟩

end Catalog

end NoteIndex
