import NoteIndex.Collection.IdMap
import NoteIndex.Fingerprint
import NoteIndex.Record

/-!
# The index

Records in the order of the notebook, and four maps over them: the notes of each tag, the notes of
each link key, the notes that link to each note, and the notes of each title. `outbound` is the map
of links turned round, from a note to those it links to. A link key resolves to the notes whose
title has that key.

`tagsOf`, `linksOf`, `titlesOf` and `backlinksOf` say what the maps are for given records.
-/

namespace NoteIndex

/-- Records by identifier, in the order of their notes. -/
abbrev Records := Keyed Record.id

structure Index where
  records : Records
  tags : IdMap
  links : IdMap
  backlinks : IdMap
  outbound : IdMap
  titles : IdMap
  fingerprints : SortedMap String

namespace Index

def empty : Index := ⟨∅, ∅, ∅, ∅, ∅, ∅, ∅⟩

instance : EmptyCollection Index := ⟨empty⟩
instance : Inhabited Index := ⟨empty⟩

def size (x : Index) : Nat := x.records.size

def ids (x : Index) : List String := x.records.keys

def tagsOf (rs : List Record) : IdMap :=
  rs.foldl (fun m r => m.addUnder r.tags.toList r.id) ∅

def linksOf (rs : List Record) : IdMap :=
  rs.foldl (fun m r => m.addUnder r.linkKeys.toList r.id) ∅

def titlesOf (rs : List Record) : IdMap :=
  rs.foldl (fun m r => m.addId r.titleKey r.id) ∅

/-- The notes that a record's links resolve to, given the notes of each title. -/
def targetsOf (titles : IdMap) (r : Record) : List String :=
  r.linkKeys.toList.flatMap fun key => (titles.ids key).toList

def backlinksOf (rs : List Record) : IdMap :=
  let titles := titlesOf rs
  rs.foldl (fun m r => m.addUnder (targetsOf titles r) r.id) ∅

end Index

end NoteIndex
