import NoteIndex.Proofs.Index.Store
import NoteIndex.Proofs.Session.Basic

/-!
# What the store of a session holds

A catalog that is told of a change does not always save: not before it is built, not when it is
built again, not when the note to take out is not there. Each time there is nothing to save. So a
store in order that was empty at the start stays so until the index is built, and from then on gives
back the snapshot of the index as it is. Nothing is claimed of a store that others write to.
-/

namespace NoteIndex

namespace Catalog

variable {c : Catalog} {b : Notebook}

/-- The catalog has a store, which is in order. -/
def StoreInOrder (c : Catalog) : Prop := ∃ s, c.store = some s ∧ s.InOrder

/-- The store is in order and gives back the snapshot of the index. -/
def Saved (c : Catalog) : Prop :=
  ∃ s, c.store = some s ∧ s.InOrder ∧ s.load = .ok (some c.snapshot)

theorem Saved.storeInOrder (h : c.Saved) : c.StoreInOrder := by
  obtain ⟨s, hs, horder, -⟩ := h
  exact ⟨s, hs, horder⟩

theorem Saved.cached (h : c.Saved) : c.cached = some c.snapshot := by
  obtain ⟨s, hs, -, hload⟩ := h
  simp only [Catalog.cached, hs, hload]

theorem persist_of_not_initialized (h : c.initialized = false) : c.persist = c := by
  rw [persist, if_neg (by rw [h]; decide)]

theorem saved_persist (hi : c.initialized = true) (h : c.StoreInOrder) : c.persist.Saved := by
  obtain ⟨s, hs, horder⟩ := h
  have hpersist : c.persist = { c with store := some (s.save c.snapshot) } := by
    rw [persist, if_pos hi, hs, Option.map_some]
  rw [hpersist]
  exact ⟨s.save c.snapshot, rfl, horder.save _, Store.load_save horder _⟩

theorem saved_build (h : c.StoreInOrder) (cached : Option Snapshot) :
    (c.build b cached).1.Saved :=
  saved_persist rfl h

/-- The store has been empty up to the first build, and since then it has been kept up. -/
structure Synced (c : Catalog) : Prop where
  before : c.initialized = false → c.store = some .empty
  since : c.initialized = true → c.Saved

namespace Synced

theorem fresh : (Catalog.fresh (some .empty)).Synced where
  before _ := rfl
  since h := nomatch h

theorem storeInOrder (h : c.Synced) : c.StoreInOrder := by
  cases hi : c.initialized with
  | false => exact ⟨.empty, h.before hi, Store.inOrder_empty⟩
  | true => exact (h.since hi).storeInOrder

theorem of_saved (hi : c.initialized = true) (h : c.Saved) : c.Synced where
  before hn := absurd (hi.symm.trans hn) (by decide)
  since _ := h

/-- A change of the index is followed by a save, which counts once the index is built. -/
theorem persist (h : c.Synced) (x : Index) : (Catalog.persist { c with index := x }).Synced := by
  by_cases hi : c.initialized = true
  · have hsaved : (Catalog.persist { c with index := x }).Saved :=
      saved_persist hi h.storeInOrder
    exact of_saved ((initialized_persist _).trans hi) hsaved
  · have hnot : c.initialized = false := Bool.eq_false_iff.mpr hi
    rw [persist_of_not_initialized (c := { c with index := x }) hnot]
    exact ⟨fun _ => h.before hnot, fun ht => absurd ht hi⟩

theorem build (h : c.Synced) (cached : Option Snapshot) : (c.build b cached).1.Synced :=
  of_saved (c.initialized_build b cached) (saved_build h.storeInOrder cached)

theorem init (h : c.Synced) : (c.init b).1.Synced := by
  rw [Catalog.init]
  split
  · exact h
  · exact h.build c.cached

theorem remove (h : c.Synced) (id : String) : (c.remove id).Synced := by
  rw [Catalog.remove]
  split
  · exact h.persist _
  · exact h

theorem update (h : c.Synced) (id : String) : (c.update b id).Synced := by
  rw [Catalog.update]
  split
  · exact h.remove id
  · exact h.persist _

end Synced

end Catalog

namespace Session

theorem synced_respond {s : Session} (h : s.catalog.Synced) (r : Request) :
    (s.respond r).1.catalog.Synced := by
  cases r with
  | put n => exact h
  | drop id => exact h
  | init => exact h.init
  | rebuild => exact h.build none
  | update id => exact h.update id
  | remove id => exact h.remove id
  | run q => exact h.init
  | execute text =>
    change (s.catalog.execute s.book text).1.Synced
    rcases s.catalog.execute_catalog s.book text with he | he
    · rw [he]
      exact h
    · rw [he]
      exact h.init
  | read r => exact h

theorem synced_after {s : Session} (h : s.catalog.Synced) (rs : List Request) :
    (s.after rs).catalog.Synced := by
  induction rs generalizing s with
  | nil => exact h
  | cons r rs ih => exact ih (synced_respond h r)

theorem initialized_after {s : Session} (h : s.catalog.initialized = true) (rs : List Request) :
    (s.after rs).catalog.initialized = true := by
  induction rs generalizing s with
  | nil => exact h
  | cons r rs ih => exact ih (initialized_respond h r)

/-- Whatever is asked of a session with an empty store in order, the store stays empty until the
index is built, and from then on, after each further request, it gives back the index's snapshot. -/
theorem store_follows_index (rs : List Request) :
    let s := (start (some .empty)).after rs
    (s.catalog.initialized = false →
      s.catalog.store = some .empty ∧ Store.empty.load = .ok none) ∧
    (s.catalog.initialized = true → ∀ qs, ∃ store, (s.after qs).catalog.store = some store ∧
      store.load = .ok (some (s.after qs).catalog.snapshot)) := by
  intro s
  have hs : s.catalog.Synced := synced_after Catalog.Synced.fresh rs
  refine ⟨fun hi => ⟨hs.before hi, Store.load_empty⟩, fun hi qs => ?_⟩
  have hsaved := (synced_after hs qs).since (initialized_after hi qs)
  obtain ⟨store, hstore, -, hload⟩ := hsaved
  exact ⟨store, hstore, hload⟩

end Session

end NoteIndex
