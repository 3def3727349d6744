import NoteIndex.Proofs.Query.Rows
import NoteIndex.Proofs.Session.Basic

/-!
# One list behind all shapes

A query in any shape goes through the same records: those of its list without a limit, as many from
the front as its limit lets through. A table has a row for each of them, a count is their number,
and a list of tasks, for which the limit comes first, keeps those whose notes have something left to
do. That the notes are still there is only asked of the last. Sorting the records comes first in all
of them, so that where it stops the program no shape has an answer.
-/

namespace NoteIndex

/-- The tasks of a note in their order, checked or not, if one of them is not checked. -/
def Notebook.openTasks? (book : Notebook) (id : String) : Option (String × List Block) :=
  (book.find? id).bind fun n =>
    if ∃ b ∈ n.blocks, b.kind = .task ∧ b.checked ≠ some true then
      some (id, n.blocks.filter (·.kind = .task))
    else none

theorem Note.hasOpenTasks_iff (n : Note) :
    n.hasOpenTasks = true ↔ ∃ b ∈ n.blocks, b.kind = .task ∧ b.checked ≠ some true := by
  have hopen (b : Block) : b.isOpenTask = true ↔ b.kind = .task ∧ b.checked ≠ some true := by
    rcases hc : b.checked with _ | _ | _ <;>
      simp [Block.isOpenTask, Block.isTask, Block.isChecked, hc]
  simp only [hasOpenTasks, List.any_eq_true, hopen]

theorem Note.tasks_eq (n : Note) : n.tasks = n.blocks.filter (·.kind = .task) := by
  simp only [tasks]
  congr

namespace Query

variable {x : Index} {book : Notebook}

/-! ## Rows of a table -/

theorem find?_id_tableRow {fields : List String} (h : "id" ∉ fields) (r : Record) :
    (tableRow fields r).find? "id" = some (.string r.id) :=
  (id_cell_tableRow_iff fields r).mpr fun hid => absurd hid h

/-! ## Rows of tasks -/

/-- With all notes at hand no record fails, and each is told of if its note has an open task. -/
theorem taskRows_of_held {rs : List Record} (h : ∀ r ∈ rs, ∃ n, book.find? r.id = some n) :
    ∃ rows, taskRows book rs = .ok rows ∧
      rows.map (fun row => (row.id, row.tasks)) = (rs.map Record.id).filterMap book.openTasks? := by
  induction rs with
  | nil => exact ⟨[], rfl, rfl⟩
  | cons r rs ih =>
    obtain ⟨⟨n, hn⟩, hrs⟩ := List.forall_mem_cons.mp h
    obtain ⟨rows, hrows, hids⟩ := ih hrs
    have hopen : book.openTasks? r.id = if n.hasOpenTasks then some (r.id, n.tasks) else none := by
      rw [Notebook.openTasks?, hn, Option.bind_some, n.tasks_eq]
      simp only [n.hasOpenTasks_iff]
    refine ⟨if n.hasOpenTasks then ⟨r.id, r.title, n.tasks⟩ :: rows else rows, ?_, ?_⟩
    · rw [taskRows, hn, hrows]
      rfl
    · rw [List.map_cons, List.filterMap_cons, hopen]
      cases n.hasOpenTasks
      · exact hids
      · simp only [if_true, List.map_cons, hids]

end Query

namespace Catalog

open Query (ListRow)

/-- Let a query be given but for its shape, its columns and its limit. Either its records cannot be
put in the order asked for, and it stops the program in every shape, or what it lists without a
limit decides the rest: with limit `n` it lists the first `n` of these, makes a table of them with a
row for each, counts them, and tells the tasks of those of them that have an open one. -/
theorem shapes_agree (c : Catalog) (book : Notebook)
    (hheld : ∀ r ∈ (c.init book).1.index.records.values, ∃ n, book.find? r.id = some n)
    (sources : List Query.Source) (conditions : List Query.Condition) (order : Option Query.Order)
    (n : Nat) :
    let q : Query := ⟨.list, [], sources, conditions, order, none⟩
    let ask := fun shape fields limit => (c.run book { q with shape, fields, limit }).2
    (∀ shape fields limit, ask shape fields limit = none) ∧
      ¬q.Sortable (q.selected (c.init book).1.index) ∨
    ∃ rows : List ListRow, (∀ fields, ask .list fields none = some (.ok (.list rows))) ∧
      let ids := (rows.map ListRow.id).take n
      (∀ fields, ask .list fields (some n) = some (.ok (.list (rows.take n)))) ∧
      (∀ fields, "id" ∉ fields → ∃ table, ask .table fields (some n) = some (.ok (.table table)) ∧
        table.map (·.find? "id") = ids.map fun id => some (.string id)) ∧
      (∀ fields, ask .count fields (some n) = some (.ok (.count (min n rows.length)))) ∧
      ∀ fields, ∃ tasks, ask .task fields (some n) = some (.ok (.task tasks)) ∧
        tasks.map (fun row => (row.id, row.tasks)) = ids.filterMap book.openTasks? := by
  intro q ask
  let x := (c.init book).1.index
  have hask (shape : Query.Shape) (fields : List String) (limit : Option Nat) :
      ask shape fields limit =
        ((q.arranged (q.selected x)).map (Query.limited { q with limit })).map
          (Query.project { q with shape, fields, limit } book) := rfl
  cases harranged : q.arranged (q.selected x) with
  | none =>
    refine .inl ⟨fun shape fields limit => ?_, Query.not_sortable_of_arranged harranged⟩
    rw [hask, harranged]
    rfl
  | some found =>
    have hids : (found.map ListRow.ofRecord).map ListRow.id = found.map Record.id := by
      rw [List.map_map]
      rfl
    simp only [hask, harranged]
    refine .inr ⟨found.map ListRow.ofRecord, fun _ => rfl, fun fields => ?_, fun fields hid => ?_,
      fun fields => ?_, fun fields => ?_⟩
    · rw [← List.map_take]
      rfl
    · refine ⟨(found.take n).map (Query.tableRow fields), rfl, ?_⟩
      rw [hids, ← List.map_take, List.map_map, List.map_map]
      exact List.map_congr_left fun r _ => Query.find?_id_tableRow hid r
    · rw [List.length_map, ← List.length_take]
      rfl
    · have hmatched : q.matched x = some found := by
        rw [Query.matched, harranged]
        rfl
      have hnotes : ∀ r ∈ found.take n, ∃ note, book.find? r.id = some note := fun r hr =>
        hheld r (Query.mem_records_of_mem_matched hmatched (List.mem_of_mem_take hr))
      obtain ⟨rows, hrows, htasks⟩ := Query.taskRows_of_held hnotes
      refine ⟨rows, ?_, ?_⟩
      · change some ((Query.taskRows book (found.take n)).map Query.Results.task) = _
        rw [hrows]
        rfl
      · rw [htasks, hids, List.map_take]

/-- The second of three notes has nothing left to do, and the third is beyond the limit. -/
theorem shapes_agree_todo :
    let note := fun id checked =>
      (⟨id, id, "", "", [.plain "p" .text "to do", .task "t" "call" true, .task "u" "pay" checked],
        ⟨0, 0⟩, ⟨0, 0⟩⟩ : Note)
    let s := (Session.start none).after
      [.put (note "a" false), .put (note "b" true), .put (note "c" false), .init]
    let todo : Query := ⟨.task, [], [], [], some ⟨"id", true⟩, some 2⟩
    (∀ r ∈ (s.catalog.init s.book).1.index.records.values, ∃ n, s.book.find? r.id = some n) ∧
      ∃ tasks, (s.catalog.run s.book todo).2 = some (.ok (.task tasks)) ∧
        tasks.map (fun row => (row.id, row.tasks)) =
          [("c", [.task "t" "call" true, .task "u" "pay" false])] := by
  intro note s todo
  have hheld : ∀ r ∈ (s.catalog.init s.book).1.index.records.values,
      ∃ n, s.book.find? r.id = some n := by
    simp only [← Option.isSome_iff_exists]
    decide
  let x := (s.catalog.init s.book).1.index
  let all : Query := { todo with shape := .list, limit := none }
  have hmatched : (all.matched x).map (·.map Record.id) = some ["c", "b", "a"] := by
    decide +kernel
  obtain ⟨hnone, -⟩ | ⟨rows, hlist, -, -, -, htask⟩ :=
    s.catalog.shapes_agree s.book hheld todo.sources todo.conditions todo.order 2
  · have hstopped : (s.catalog.run s.book all).2 = none := hnone .list [] none
    rw [matched_eq_none_of_run hstopped] at hmatched
    cases hmatched
  have hrun : (s.catalog.run s.book all).2 = some (.ok (.list rows)) := hlist []
  have hids : rows.map ListRow.id = ["c", "b", "a"] :=
    Option.some.inj ((ids_of_list rfl hrun).symm.trans hmatched)
  obtain ⟨tasks, htasks, hrows⟩ := htask []
  refine ⟨hheld, tasks, htasks, ?_⟩
  rw [hrows, hids]
  decide

end Catalog

end NoteIndex
