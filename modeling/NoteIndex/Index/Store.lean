import NoteIndex.Index.Snapshot
import NoteIndex.Json.Reader
import NoteIndex.Json.Writer
import NoteIndex.Note.Encoded

/-!
# Stores for snapshots

A store keeps a snapshot as four rows of JSON text, one for each map. It holds a snapshot only if
all four rows are there. A store may also be out of order, for reading or for writing; then reading
fails, and writing changes nothing.
-/

namespace NoteIndex

structure Store where
  rows : SortedMap String
  readable : Bool
  writable : Bool

namespace Store

inductive LoadError where
  /-- The store cannot be read. -/
  | unreadable
  /-- A row does not hold a map of its kind. -/
  | malformed
  deriving DecidableEq, Repr

def tagRow : String := "tag_index"

def linkRow : String := "link_index"

def backlinkRow : String := "backlink_index"

def fingerprintRow : String := "fingerprints"

def empty : Store := ⟨∅, true, true⟩

/-- A store of which neither reading nor writing succeeds. -/
def broken : Store := ⟨∅, false, false⟩

def idMapJson (m : IdMap) : Json := .object (m.entries.map fun e => (e.1, Json.strings e.2.toList))

def stringMapJson (m : SortedMap String) : Json :=
  .object (m.entries.map fun e => (e.1, .string e.2))

def stringSet? (j : Json) : Option StringSet := do
  let items ← j.array?
  pure (.ofList (← items.mapM Json.string?))

/-- Reads an object as a map; of a repeated key the last value counts. -/
def mapOf? {α : Type} (read : Json → Option α) : Json → Option (SortedMap α)
  | .object fields => (fields.mapM fun f => (read f.2).map fun v => (f.1, v)).map .ofList
  | _ => none

def decodeIds? (text : String) : Option IdMap := (Json.parse? text).bind (mapOf? stringSet?)

def decodeStrings? (text : String) : Option (SortedMap String) :=
  (Json.parse? text).bind (mapOf? Json.string?)

def load (s : Store) : Except LoadError (Option Snapshot) :=
  if ¬ s.readable then .error .unreadable
  else
    match s.rows.find? tagRow, s.rows.find? linkRow, s.rows.find? backlinkRow,
        s.rows.find? fingerprintRow with
    | some tags, some links, some backlinks, some fingerprints =>
      match decodeIds? tags, decodeIds? links, decodeIds? backlinks,
          decodeStrings? fingerprints with
      | some tags, some links, some backlinks, some fingerprints =>
        .ok (some ⟨tags, links, backlinks, fingerprints⟩)
      | _, _, _, _ => .error .malformed
    | _, _, _, _ => .ok none

def save (s : Store) (snapshot : Snapshot) : Store :=
  if s.writable then
    { s with
      rows := (((s.rows.insert tagRow (idMapJson snapshot.tags).compact).insert
        linkRow (idMapJson snapshot.links).compact).insert
        backlinkRow (idMapJson snapshot.backlinks).compact).insert
        fingerprintRow (stringMapJson snapshot.fingerprints).compact }
  else s

def clear (s : Store) : Store := if s.writable then { s with rows := ∅ } else s

/-- Writes a row, or deletes it. -/
def writeRow (s : Store) (key : String) (text : Option String) : Store :=
  { s with rows := s.rows.alter key fun _ => text }

end Store

end NoteIndex
