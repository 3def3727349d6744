import NoteIndex.Link
import NoteIndex.Note.Tags
import NoteIndex.Note.Basic

/-!
# Records

What the index knows about a note. A record follows from the note alone, so that reading an
unchanged note again gives the same record.
-/

namespace NoteIndex

structure Record where
  id : String
  title : String
  path : String
  frontmatter : Frontmatter
  tags : StringSet
  links : List Link
  created : Timestamp
  modified : Timestamp
  wordCount : Nat
  blockCount : Nat

namespace Record

def ofNote (n : Note) : Record :=
  let (frontmatter, body) := Frontmatter.split n.text
  { id := n.id
    title := n.title
    path := n.path
    frontmatter
    tags := .ofList ((Tag.extract body frontmatter).map Tag.text)
    links := Link.extract body
    created := n.created
    modified := n.modified
    wordCount := Text.wordCount body
    blockCount := n.blocks.length }

@[simp] theorem id_ofNote (n : Note) : (ofNote n).id = n.id := rfl

/-- The form of a title by which links find it. -/
def keyOfTitle (title : String) : String := String.ofList (Text.lower (Text.trim title.toList))

def titleKey (r : Record) : String := keyOfTitle r.title

/-- The keys of the links, each once. -/
def linkKeys (r : Record) : StringSet := .ofList (r.links.map Link.key)

def tagsValue (r : Record) : Value := .list (r.tags.toList.map .string)

def linkValue (l : Link) : Value :=
  .map [("target", .string l.target), ("alias", .string l.label)]

/-- The record as a map of values, for paths into it. -/
def toValue (r : Record) : Value :=
  .map [("id", .string r.id), ("title", .string r.title), ("path", .string r.path),
    ("frontmatter", .map r.frontmatter.entries), ("tags", r.tagsValue),
    ("links", .list (r.links.map linkValue)), ("created", .string r.created.millisText),
    ("modified", .string r.modified.millisText), ("wordCount", .ofNat r.wordCount),
    ("blockCount", .ofNat r.blockCount)]

/-- The fields of a record in JSON, with whole timestamps. -/
def jsonFields (r : Record) : List (String × Json) :=
  [("id", .string r.id), ("title", .string r.title), ("path", .string r.path),
    ("frontmatter", .object (Value.entriesJson r.frontmatter.entries)),
    ("tags", Json.strings r.tags.toList),
    ("links", .array (r.links.map fun l => (linkValue l).toJson)),
    ("created", .string r.created.text), ("modified", .string r.modified.text),
    ("wordCount", .ofNat r.wordCount), ("blockCount", .ofNat r.blockCount)]

def toJson (r : Record) : Json := .object r.jsonFields

/-- The value of a property: a well-known name, else an entry of the frontmatter, else a path of
names and positions between dots into the record. -/
def property? (r : Record) (name : String) : Option Value :=
  if name = "file.name" ∨ name = "title" then some (.string r.title)
  else if name = "file.path" ∨ name = "path" then some (.string r.path)
  else if name = "file.tags" ∨ name = "tags" then some r.tagsValue
  else if name = "file.created" ∨ name = "created" then some (.string r.created.millisText)
  else if name = "file.modified" ∨ name = "modified" then some (.string r.modified.millisText)
  else if name = "wordCount" then some (.ofNat r.wordCount)
  else if name = "blockCount" then some (.ofNat r.blockCount)
  else match r.frontmatter.find? name with
    | some v => some v
    | none => r.toValue.path? ((Text.splitOn '.' name.toList).map String.ofList)

end Record

end NoteIndex
