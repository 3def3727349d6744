import NoteIndex.Proofs.Session.Basic

/-!
# What a cached snapshot can change

A store may fail to be read, or hold a snapshot of any kind: of other notes, with entries missing or
made up, with keys that are no tags. A build that is given it comes to the index of a build without
a store, and so does everything asked afterwards. Only the word on where it came from may differ.
-/

namespace NoteIndex.Session

/-- The build is as one without a store, whatever has become of the store by then. -/
structure Uncached (b : Notebook) (c : Catalog) (r : BuildResult) : Prop where
  index : c.index = ((Catalog.fresh none).init b).1.index
  result : ((Catalog.fresh none).init b).2 = some { r with fromSnapshot := false }
  answers (store : Option Store) (rs : List Request) :
    answers ⟨b, { c with store }⟩ rs = answers ⟨b, ((Catalog.fresh none).init b).1⟩ rs

theorem uncached_build (c : Catalog) (b : Notebook) (cached : Option Snapshot) :
    Uncached b (c.build b cached).1 (c.build b cached).2 := by
  have hindex : (c.build b cached).1.index = ((Catalog.fresh none).init b).1.index := by
    rw [c.index_build, Catalog.index_init _ b rfl]
  refine ⟨hindex, ?_, fun store rs => ?_⟩
  · rw [Catalog.result_init _ b rfl, Catalog.result_build, Catalog.result_build]
    rfl
  · have halike : Alike ⟨b, { (c.build b cached).1 with store }⟩
        ⟨b, ((Catalog.fresh none).init b).1⟩ :=
      ⟨rfl, hindex, c.initialized_build b cached, Catalog.initialized_init _ b⟩
    exact halike.answers rs

/-- The first build goes by the notes alone, with whatever store the catalog has, and so it would if
the store came up with any other snapshot. -/
theorem first_build_uncached (b : Notebook) (x : Index) (store : Option Store)
    (cached : Option Snapshot) :
    (∃ r, ((Catalog.mk x false store).init b).2 = some r ∧
      Uncached b ((Catalog.mk x false store).init b).1 r) ∧
    Uncached b ((Catalog.mk x false store).build b cached).1
      ((Catalog.mk x false store).build b cached).2 := by
  refine ⟨⟨_, Catalog.result_init _ b rfl, ?_⟩, uncached_build _ b cached⟩
  exact uncached_build _ b (Catalog.mk x false store).cached

end NoteIndex.Session
