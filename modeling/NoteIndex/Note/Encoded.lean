import NoteIndex.Json.Reader
import NoteIndex.Json.Writer
import NoteIndex.Note.Basic
import NoteIndex.Time.Reading

/-!
# Notes as JSON

A note is an object of seven fields, a block one of six, the last three of which are left out when
they have no value. When reading, fields of other names are skipped, but no known field may come
twice; path, content and blocks may be missing. Records may also come as arrays of their fields
in order.
-/

namespace NoteIndex

namespace Json

/-- What a record says about one of its fields. -/
inductive Entry where
  | missing
  | present (value : Json)
  | repeated

/-- Finds the field `name` among `fields`. -/
def entry (name : String) (fields : List (String × Json)) : Entry :=
  match fields.filter (·.1 == name) with
  | [] => .missing
  | [(_, v)] => .present v
  | _ => .repeated

/-- The fields of a record in the order of `names`, read from an object or from an array, which may
be cut short. -/
def recordEntries? (names : List String) : Json → Option (List Entry)
  | .object fields => some (names.map fun n => entry n fields)
  | .array items =>
    if names.length < items.length then none
    else some (items.map .present ++ List.replicate (names.length - items.length) .missing)
  | _ => none

def Entry.required {α : Type} (read : Json → Option α) : Entry → Option α
  | .present v => read v
  | _ => none

/-- A field with a value to take where it is missing. -/
def Entry.orElse {α : Type} (read : Json → Option α) (default : α) : Entry → Option α
  | .present v => read v
  | .missing => some default
  | .repeated => none

def string? : Json → Option String
  | .string s => some s
  | _ => none

def bool? : Json → Option Bool
  | .bool b => some b
  | _ => none

def array? : Json → Option (List Json)
  | .array items => some items
  | _ => none

/-- Null stands for no value. -/
def nullable? {α : Type} (read : Json → Option α) : Json → Option (Option α)
  | .null => some none
  | j => (read j).map some

def timestamp? (j : Json) : Option Timestamp := j.string?.bind Timestamp.parse?

end Json

namespace BlockKind

/-- A kind is a name, or an object that maps it to null. -/
def ofJson? : Json → Option BlockKind
  | .string s => some (ofName s)
  | .object [(s, .null)] => some (ofName s)
  | _ => none

end BlockKind

namespace Block

def fieldNames : List String := ["id", "type", "content", "checked", "createdAt", "completedAt"]

def ofJson? (j : Json) : Option Block := do
  match ← j.recordEntries? fieldNames with
  | [id, kind, content, checked, createdAt, completedAt] =>
    pure {
      id := ← id.required Json.string?
      kind := ← kind.required BlockKind.ofJson?
      content := ← content.orElse Json.string? ""
      checked := ← checked.orElse (Json.nullable? Json.bool?) none
      createdAt := ← createdAt.orElse (Json.nullable? Json.timestamp?) none
      completedAt := ← completedAt.orElse (Json.nullable? Json.timestamp?) none }
  | _ => none

/-- A field that is left out when it has no value. -/
def optionalField {α : Type} (name : String) (write : α → Json) : Option α → List (String × Json)
  | none => []
  | some a => [(name, write a)]

def toJson (b : Block) : Json :=
  .object ([("id", .string b.id), ("type", .string b.kind.name), ("content", .string b.content)] ++
    optionalField "checked" .bool b.checked ++
    optionalField "createdAt" (fun t => .string t.text) b.createdAt ++
    optionalField "completedAt" (fun t => .string t.text) b.completedAt)

end Block

namespace Note

def fieldNames : List String := ["id", "title", "path", "content", "blocks", "created", "modified"]

def ofJson? (j : Json) : Option Note := do
  match ← j.recordEntries? fieldNames with
  | [id, title, path, content, blocks, created, modified] =>
    pure {
      id := ← id.required Json.string?
      title := ← title.required Json.string?
      path := ← path.orElse Json.string? ""
      content := ← content.orElse Json.string? ""
      blocks := ← blocks.orElse (fun v => v.array?.bind fun items => items.mapM Block.ofJson?) []
      created := ← created.required Json.timestamp?
      modified := ← modified.required Json.timestamp? }
  | _ => none

def toJson (n : Note) : Json :=
  .object [("id", .string n.id), ("title", .string n.title), ("path", .string n.path),
    ("content", .string n.content), ("blocks", .array (n.blocks.map Block.toJson)),
    ("created", .string n.created.text), ("modified", .string n.modified.text)]

def encode (n : Note) : String := n.toJson.compact

def decode? (text : String) : Option Note := (Json.parse? text).bind ofJson?

/-- Reads an export: an array of notes. -/
def decodeAll? (text : String) : Option (List Note) :=
  ((Json.parse? text).bind Json.array?).bind fun items => items.mapM ofJson?

end Note

end NoteIndex
