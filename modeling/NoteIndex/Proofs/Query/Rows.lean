import NoteIndex.Proofs.Query.Sorting
import NoteIndex.Proofs.Query.Sources

/-!
# Rows of a table

A row begins with the identifier of its record, and then takes the columns asked for, one after
another. A column called `id` takes the place of the identifier: it is looked up like every other,
in the frontmatter first. So a row tells of which record it is unless that column is asked for and
the frontmatter of the record has an entry of that name with another value. A list of the same
records stops the program where the table does.
-/

namespace NoteIndex

namespace Query

/-- Each column has the value of its name, be it asked for once or more often. -/
theorem find?_foldl_insert {α : Type} (fields : List String) (value : String → α) (row : Table α)
    (k : String) :
    (fields.foldl (fun row field => row.insert field (value field)) row).find? k =
      if k ∈ fields then some (value k) else row.find? k := by
  induction fields generalizing row with
  | nil => simp
  | cons field fields ih =>
    rw [List.foldl_cons, ih, Table.find?_insert]
    by_cases hfields : k ∈ fields
    · simp [hfields]
    · by_cases hk : k = field <;> simp [hfields, hk]

theorem property?_id (r : Record) :
    r.property? "id" = some ((r.frontmatter.find? "id").getD (.string r.id)) := by
  have hown : r.toValue.path? ((Text.splitOn '.' "id".toList).map String.ofList) =
      some (.string r.id) := by
    simp [Text.splitOn, Record.toValue, Value.path?, Value.get?, Table.lookup]
  rw [Record.property?, hown]
  cases h : r.frontmatter.find? "id" <;> simp

/-- What stands under `id` in the row of a record. -/
theorem id_cell_tableRow (fields : List String) (r : Record) :
    (tableRow fields r).find? "id" =
      some (((if "id" ∈ fields then r.frontmatter.find? "id" else none)).getD (.string r.id)) := by
  rw [tableRow, find?_foldl_insert, property?_id, Option.getD_some, Table.find?_insert, if_pos rfl]
  split <;> rfl

/-- No column called `id` is asked for, or the frontmatter of the record has nothing else in it. -/
def KeepsId (fields : List String) (r : Record) : Prop :=
  "id" ∈ fields → ∀ v ∈ r.frontmatter.find? "id", v = .string r.id

theorem same_string_iff (v : Value) (s : String) : v.same (.string s) = true ↔ v = .string s := by
  cases v <;> simp [Value.same]

instance (fields : List String) (r : Record) : Decidable (KeepsId fields r) :=
  decidable_of_iff ("id" ∈ fields → ∀ v ∈ r.frontmatter.find? "id", v.same (.string r.id) = true)
    (by simp only [KeepsId, same_string_iff])

theorem id_cell_tableRow_iff (fields : List String) (r : Record) :
    (tableRow fields r).find? "id" = some (.string r.id) ↔ KeepsId fields r := by
  rw [id_cell_tableRow, Option.some_inj, KeepsId]
  by_cases hid : "id" ∈ fields
  · cases h : r.frontmatter.find? "id" <;> simp [hid]
  · simp [hid]

theorem rowId?_eq_some_iff (row : Table Value) (id : String) :
    rowId? row = some id ↔ row.find? "id" = some (.string id) := by
  rw [rowId?]
  split
  · rename_i s h
    simp [h]
  · rename_i h
    exact iff_of_false nofun fun hid => h id hid

end Query

namespace Catalog

open Query (ListRow rowId? KeepsId)

section Lists

variable {c : Catalog} {book : Notebook} {q : Query}

theorem matched_eq_none_of_run (h : (c.run book q).2 = none) :
    q.matched (c.init book).1.index = none := Option.map_eq_none_iff.mp h

/-- A list is of the records that the query is about. -/
theorem ids_of_list {rows : List ListRow} (hs : q.shape = .list)
    (h : (c.run book q).2 = some (.ok (.list rows))) :
    (q.matched (c.init book).1.index).map (·.map Record.id) = some (rows.map ListRow.id) := by
  obtain ⟨found, hfound, hrows⟩ := Option.map_eq_some_iff.mp h
  rw [Query.project, hs] at hrows
  rw [← Query.Results.list.inj (Except.ok.inj hrows), hfound, Option.map_some, List.map_map]
  rfl

end Lists

/-- A query as a list and as a table, with whatever columns, has as many rows in both, or stops the
program in both, for which the records must be such that they cannot be put in the order asked for.
A row of the table begins with what the record has under `id` in its frontmatter if that column is
asked for and there is something, and with the identifier in the list otherwise; so the identifier
is that of the list just if the column is not asked for, or the frontmatter says nothing else. -/
theorem rows_keep_id (c : Catalog) (book : Notebook) (fields : List String)
    (sources : List Query.Source) (conditions : List Query.Condition) (order : Option Query.Order)
    (limit : Option Nat) :
    let q : Query := ⟨.table, fields, sources, conditions, order, limit⟩
    let ask := fun shape => (c.run book { q with shape }).2
    ask .list = none ∧ ask .table = none ∧ ¬q.Sortable (q.selected (c.init book).1.index) ∨
    ∃ (rows : List ListRow) (table : List (Table Value)),
      ask .list = some (.ok (.list rows)) ∧ ask .table = some (.ok (.table table)) ∧
      table.length = rows.length ∧
      ∀ (i : Nat) (l : ListRow) (row : Table Value), rows[i]? = some l → table[i]? = some row →
        ∃ r, (c.init book).1.index.records.find? l.id = some r ∧
          row.find? "id" = some ((if "id" ∈ fields then r.frontmatter.find? "id" else none).getD
            (.string l.id)) ∧
          (row.find? "id" = some (.string l.id) ↔ KeepsId fields r) ∧
          (rowId? row = some l.id ↔ KeepsId fields r) := by
  intro q ask
  have hask (shape : Query.Shape) : ask shape =
      (q.matched (c.init book).1.index).map (Query.project { q with shape } book) := rfl
  cases hmatched : q.matched (c.init book).1.index with
  | none =>
    rw [hask, hask, hmatched]
    exact .inl ⟨rfl, rfl, Query.not_sortable_of_matched hmatched⟩
  | some found =>
    rw [hask, hask, hmatched]
    refine .inr ⟨found.map ListRow.ofRecord, found.map (Query.tableRow fields), rfl, rfl, ?_,
      fun i l row hl hrow => ?_⟩
    · rw [List.length_map, List.length_map]
    · -- both rows come from the record at their place
      rw [List.getElem?_map] at hl hrow
      obtain ⟨r, hr, rfl⟩ := Option.map_eq_some_iff.mp hl
      obtain ⟨s, hs, rfl⟩ := Option.map_eq_some_iff.mp hrow
      obtain rfl : r = s := Option.some.inj (hr.symm.trans hs)
      have hmem := Query.mem_records_of_mem_matched hmatched (List.mem_of_getElem? hr)
      have hcell : _ ↔ KeepsId fields r := Query.id_cell_tableRow_iff fields r
      exact ⟨r, Keyed.find?_key hmem, Query.id_cell_tableRow fields r, hcell,
        (Query.rowId?_eq_some_iff _ _).trans hcell⟩

/-- The column `id` is asked for twice. Of three notes the first has no such entry, the second its
own identifier in it, and the third, which has that of the first, is beyond the limit. -/
theorem rows_keep_id_asked_for :
    let s := (Session.start none).after [.put (.page "a" "Alpha" "---\nstatus: done\n---"),
      .put (.page "b" "Beta" "---\nid: b\n---"), .put (.page "c" "Gamma" "---\nid: a\n---"), .init]
    let fields := ["id", "status", "id"]
    let ask := fun shape => (s.catalog.run s.book ⟨shape, fields, [], [], none, some 2⟩).2
    ∃ (rows : List ListRow) (table : List (Table Value)),
      ask .list = some (.ok (.list rows)) ∧ ask .table = some (.ok (.table table)) ∧
      rows.map ListRow.id = ["a", "b"] ∧
      ∀ (i : Nat) (l : ListRow) (row : Table Value), rows[i]? = some l → table[i]? = some row →
        rowId? row = some l.id := by
  intro s fields ask
  obtain ⟨-, -, hnot⟩ | ⟨rows, table, hlist, htable, -, hrows⟩ :=
    s.catalog.rows_keep_id s.book fields [] [] none (some 2)
  · exact absurd (fun o ho => by cases ho) hnot
  let x := (s.catalog.init s.book).1.index
  let q : Query := ⟨.list, fields, [], [], none, some 2⟩
  have hmatched : (q.matched x).map (·.map Record.id) = some ["a", "b"] := by decide +kernel
  have hrun : (s.catalog.run s.book q).2 = some (.ok (.list rows)) := hlist
  have hids : rows.map ListRow.id = ["a", "b"] :=
    Option.some.inj ((ids_of_list rfl hrun).symm.trans hmatched)
  have hkeeps : ∀ id ∈ ["a", "b"], ∀ r ∈ x.records.find? id, KeepsId fields r := by
    decide +kernel
  refine ⟨rows, table, hlist, htable, hids, fun i l row hl hrow => ?_⟩
  obtain ⟨r, hr, -, -, hiff⟩ := hrows i l row hl hrow
  have hl : l.id ∈ ["a", "b"] := hids ▸ List.mem_map_of_mem (List.mem_of_getElem? hl)
  exact hiff.mpr (hkeeps l.id hl r hr)

/-- In the row of the note `a` the entry `id: b` of its frontmatter stands where `a` should. -/
theorem id_hidden_by_entry :
    let s := (Session.start none).after [.put (.page "a" "Alpha" "---\nid: b\n---\n"), .init]
    let ask := fun shape => (s.catalog.run s.book ⟨shape, ["id"], [], [], none, none⟩).2
    ∃ (rows : List ListRow) (table : List (Table Value)),
      ask .list = some (.ok (.list rows)) ∧ ask .table = some (.ok (.table table)) ∧
      rows.map ListRow.id = ["a"] ∧ table.map rowId? = [some "b"] :=
  ⟨_, _, rfl, rfl, by decide, by decide⟩

end Catalog

end NoteIndex
