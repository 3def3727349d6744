import NoteIndex.Index.Store

/-!
# Catalogs

An index kept over a notebook, and the store that caches it. The index is built once, on first use;
from then on each change is saved. A store that fails only costs the cache.
-/

namespace NoteIndex

structure Catalog where
  index : Index
  initialized : Bool
  store : Option Store

/-- What building an index came to. -/
structure BuildResult where
  indexed : Nat
  fromSnapshot : Bool
  deriving DecidableEq, Repr

namespace Catalog

/-- A catalog that has not been built. -/
def fresh (store : Option Store) : Catalog := ⟨∅, false, store⟩

def snapshot (c : Catalog) : Snapshot := c.index.snapshot

/-- The snapshot in the store, if there is one that can be read. -/
def cached (c : Catalog) : Option Snapshot :=
  match c.store with
  | none => none
  | some s =>
    match s.load with
    | .ok snapshot => snapshot
    | .error _ => none

/-- Saves the index, once it is built. -/
def persist (c : Catalog) : Catalog :=
  if c.initialized then { c with store := c.store.map fun s => s.save c.snapshot } else c

/-- Builds the index from the notes, by way of a snapshot where that is one of them. -/
def build (c : Catalog) (book : Notebook) (cached : Option Snapshot) : Catalog × BuildResult :=
  let restored := cached.bind (Index.restore? book.notes)
  let index := restored.getD (Index.ofNotes book.notes)
  (persist { c with index, initialized := true }, ⟨index.size, restored.isSome⟩)

/-- Builds the index unless that has been done. -/
def init (c : Catalog) (book : Notebook) : Catalog × Option BuildResult :=
  if c.initialized then (c, none)
  else
    let (c, result) := c.build book c.cached
    (c, some result)

/-- Builds the index anew, whatever is cached. -/
def rebuild (c : Catalog) (book : Notebook) : Catalog × BuildResult := c.build book none

/-- Takes a note out. One that is not there changes nothing. -/
def remove (c : Catalog) (id : String) : Catalog :=
  if c.index.records.contains id then persist { c with index := c.index.leave id } else c

/-- Reads a note again; one that the notebook no longer has is taken out. -/
def update (c : Catalog) (book : Notebook) (id : String) : Catalog :=
  match book.find? id with
  | none => c.remove id
  | some n => persist { c with index := c.index.enterNote n }

end Catalog

end NoteIndex
