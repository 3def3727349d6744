import NoteIndex.Disk.Resolve
import NoteIndex.Index.Store
import NoteIndex.Text.Utf8

/-!
# Stores in files

A store is kept in a file as a line that says what it is, and the rows as a JSON object. An empty
file, and one that is not there yet, is an empty store; a file of anything else is no store.
-/

namespace NoteIndex.Store

def heading : String := "note index cache 1\n"

def encode (s : Store) : String := heading ++ (stringMapJson s.rows).compact

def decode? (text : List Char) : Option Store :=
  if text.isEmpty then some .empty
  else
    (Text.afterStart? heading.toList text).bind fun rows =>
      (decodeStrings? (String.ofList rows)).map fun rows => ⟨rows, true, true⟩

/-- The store at a path, if there is or can be one. -/
def open? (d : Disk) (path : String) : Option Store :=
  match d.bytes path with
  | .error .missing => some .empty
  | .error _ => none
  | .ok bytes =>
    match Text.decodeUtf8 bytes with
    | .ok text => decode? text
    | .error _ => none

end NoteIndex.Store
