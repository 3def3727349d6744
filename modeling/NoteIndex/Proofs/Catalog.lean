import NoteIndex.Proofs.Index.InStep
import NoteIndex.Query.Run

/-!
# What catalogs do to their index

Each operation on a catalog in terms of the index it leaves and of whether that counts as built.
A build comes to the index of the notes, whatever the catalog held and whatever was cached.
-/

namespace NoteIndex.Catalog

variable (c : Catalog) (b : Notebook)

@[simp] theorem index_persist : c.persist.index = c.index := by
  rw [persist]
  split <;> rfl

@[simp] theorem initialized_persist : c.persist.initialized = c.initialized := by
  rw [persist]
  split <;> rfl

theorem index_build (cached : Option Snapshot) :
    (c.build b cached).1.index = Index.ofNotes b.notes := by
  have hrestored : (cached.bind (Index.restore? b.notes)).getD (Index.ofNotes b.notes) =
      Index.ofNotes b.notes := by
    cases h : cached.bind (Index.restore? b.notes) with
    | none => rfl
    | some x =>
      obtain ⟨s, -, hs⟩ := Option.bind_eq_some_iff.mp h
      exact Index.restore?_eq_ofNotes hs
  simp only [build, index_persist, hrestored]

theorem result_build (cached : Option Snapshot) :
    (c.build b cached).2 =
      ⟨(Index.ofNotes b.notes).size, (cached.bind (Index.restore? b.notes)).isSome⟩ := by
  have h := c.index_build b cached
  simp only [build, index_persist] at h
  simp only [build, h]

theorem initialized_build (cached : Option Snapshot) :
    (c.build b cached).1.initialized = true := by
  simp only [build, initialized_persist]

theorem init_of_initialized (h : c.initialized = true) : c.init b = (c, none) := by
  rw [init, if_pos h]

theorem index_init (h : c.initialized = false) :
    (c.init b).1.index = Index.ofNotes b.notes := by
  rw [init, if_neg (by rw [h]; decide)]
  exact c.index_build b c.cached

theorem result_init (h : c.initialized = false) :
    (c.init b).2 = some (c.build b c.cached).2 := by
  rw [init, if_neg (by rw [h]; decide)]

theorem initialized_init : (c.init b).1.initialized = true := by
  rw [init]
  split
  · assumption
  · exact c.initialized_build b c.cached

theorem index_rebuild : (c.rebuild b).1.index = Index.ofNotes b.notes := c.index_build b none

theorem result_rebuild : (c.rebuild b).2 = ⟨(Index.ofNotes b.notes).size, false⟩ :=
  c.result_build b none

theorem initialized_rebuild : (c.rebuild b).1.initialized = true := c.initialized_build b none

/-- Taking out a note that is not there leaves the index alone, as the test in front says. -/
theorem index_remove (id : String) : (c.remove id).index = c.index.leave id := by
  rw [remove]
  split
  · rw [index_persist]
  · rename_i h
    rw [Table.contains, Option.not_isSome_iff_eq_none] at h
    exact (Index.leave_of_none h).symm

theorem initialized_remove (id : String) : (c.remove id).initialized = c.initialized := by
  rw [remove]
  split
  · rw [initialized_persist]
  · rfl

theorem index_update_of_none {id : String} (h : b.find? id = none) :
    (c.update b id).index = c.index.leave id := by
  rw [update, h]
  exact c.index_remove id

theorem index_update_of_some {id : String} {n : Note} (h : b.find? id = some n) :
    (c.update b id).index = c.index.enterNote n := by
  rw [update, h]
  exact index_persist _

theorem initialized_update (id : String) : (c.update b id).initialized = c.initialized := by
  rw [update]
  split
  · exact c.initialized_remove id
  · rw [initialized_persist]

theorem execute_of_error {text : String} {e : Query.Error} (h : Query.parse text = .error e) :
    c.execute b text = (c, some (.failed e)) := by
  rw [execute, h]

theorem execute_of_ok {text : String} {q : Query} (h : Query.parse text = .ok q) :
    c.execute b text =
      ((c.init b).1, (q.run (c.init b).1.index b).map Query.Outcome.ofResult) := by
  rw [execute, h]
  rfl

/-- A query builds the index if it can be read, and does nothing else to the catalog. -/
theorem execute_catalog (text : String) :
    (c.execute b text).1 = c ∨ (c.execute b text).1 = (c.init b).1 := by
  cases h : Query.parse text with
  | error e => exact .inl (congrArg Prod.fst (c.execute_of_error b h))
  | ok q => exact .inr (congrArg Prod.fst (c.execute_of_ok b h))

theorem run_of_initialized (h : c.initialized = true) (q : Query) :
    c.run b q = (c, q.run c.index b) := by
  simp only [run, c.init_of_initialized b h]

/-- What the text of a query comes to hangs on the index and the notebook, not on the store. -/
theorem execute_congr {c d : Catalog} (hc : c.initialized = true) (hd : d.initialized = true)
    (h : c.index = d.index) (text : String) : (c.execute b text).2 = (d.execute b text).2 := by
  cases hparse : Query.parse text with
  | error e => rw [c.execute_of_error b hparse, d.execute_of_error b hparse]
  | ok q =>
    rw [c.execute_of_ok b hparse, d.execute_of_ok b hparse, c.init_of_initialized b hc,
      d.init_of_initialized b hd, h]

/-- The catalogs that come from building one over a notebook, for the first time or again. -/
inductive BuiltOver (b : Notebook) : Catalog → Prop where
  | init (c : Catalog) (h : c.initialized = false) : BuiltOver b (c.init b).1
  | rebuild (c : Catalog) : BuiltOver b (c.rebuild b).1

variable {c b}

theorem BuiltOver.index (h : BuiltOver b c) : c.index = Index.ofNotes b.notes := by
  cases h with
  | init c h => exact c.index_init b h
  | rebuild c => exact c.index_rebuild b

theorem BuiltOver.initialized (h : BuiltOver b c) : c.initialized = true := by
  cases h with
  | init c h => exact c.initialized_init b
  | rebuild c => exact c.initialized_rebuild b

theorem BuiltOver.inStep (h : BuiltOver b c) : c.index.InStep b := by
  rw [h.index]
  exact Index.InStep.ofNotes b

end NoteIndex.Catalog
