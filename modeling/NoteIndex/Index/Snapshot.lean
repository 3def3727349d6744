import NoteIndex.Index.Update
import NoteIndex.Index.Validation

/-!
# Snapshots

A copy of the maps of an index with the fingerprints of the notes it was made from. A snapshot may
be of any origin, so it is not believed: an index is restored from it only if the fingerprints are
those of the present notes, its tags are tags, and its maps pass the check against the records.
-/

namespace NoteIndex

structure Snapshot where
  tags : IdMap
  links : IdMap
  backlinks : IdMap
  fingerprints : SortedMap String

namespace Snapshot

def empty : Snapshot := ⟨∅, ∅, ∅, ∅⟩

instance : EmptyCollection Snapshot := ⟨empty⟩
instance : Inhabited Snapshot := ⟨empty⟩

end Snapshot

namespace Index

def snapshot (x : Index) : Snapshot := ⟨x.tags, x.links, x.backlinks, x.fingerprints⟩

/-- The fingerprints of notes by their identifiers. -/
def fingerprintsOf (ns : List Note) : SortedMap String :=
  .ofList (ns.map fun n => (n.id, n.fingerprint))

/-- The map of backlinks turned round. -/
def outboundOf (backlinks : IdMap) : IdMap :=
  backlinks.entries.foldl (fun m e => m.addUnder e.2.toList e.1) ∅

/-- The index of some notes with the maps of a snapshot. -/
def adopt (ns : List Note) (s : Snapshot) : Index :=
  let rs := ns.map Record.ofNote
  { records := .ofValues rs
    tags := s.tags
    links := s.links
    backlinks := s.backlinks
    outbound := outboundOf s.backlinks
    titles := titlesOf rs
    fingerprints := s.fingerprints }

/-- Restores the index of some notes from a snapshot, if it is one of just these notes. -/
def restore? (ns : List Note) (s : Snapshot) : Option Index :=
  if (fingerprintsOf ns).entries ≠ s.fingerprints.entries then none
  else if s.tags.keys.any fun k => Tag.parse? k ≠ some ⟨k⟩ then none
  else
    let x := adopt ns s
    if x.validate.hasErrors then none else some x

end Index

end NoteIndex
