import NoteIndex.Collection.StableSort
import NoteIndex.Index.Basic
import NoteIndex.Value.Compare

/-!
# Reading an index

Look-ups answer with records in ascending order of identifiers, searches with records in the order
of the index.
-/

namespace NoteIndex.Index

/-- The records of identifiers; those without one are passed over. -/
def lookup (x : Index) (ids : StringSet) : List Record := ids.toList.filterMap x.records.find?

/-- The notes that carry a tag. -/
def byTag (x : Index) (tag : String) : List Record :=
  match Tag.parse? tag with
  | some t => x.lookup (x.tags.ids t.text)
  | none => []

/-- The notes with a link that resolves to a note. -/
def backlinksTo (x : Index) (id : String) : List Record := x.lookup (x.backlinks.ids id)

/-- The notes with a link to a title, whether or not a note has it. -/
def linkingTo (x : Index) (target : String) : List Record :=
  x.lookup (x.links.ids (Record.keyOfTitle target))

/-- Every tag and how many notes carry it. -/
def allTags (x : Index) : List (String × Nat) := x.tags.entries.map fun e => (e.1, e.2.size)

/-- The notes whose frontmatter has exactly this value under a key. -/
def withEntry (x : Index) (key : String) (value : Value) : List Record :=
  x.records.values.filter fun r =>
    match r.frontmatter.find? key with
    | some v => v.same value
    | none => false

/-- How well a record matches lower-case text: 100 for the title, 50 for the tags, 25 for each value
of the frontmatter that contains it. -/
def score (needle : List Char) (r : Record) : Nat :=
  let hits (s : String) : Bool := Text.occursIn needle (Text.lower s.toList)
  (if hits r.title then 100 else 0) +
    (if r.tags.toList.any fun t => Text.occursIn needle t.toList then 50 else 0) +
    25 * (r.frontmatter.values.filter fun v => hits v.text).length

/-- The notes that match some text, best first. Blank text matches none. -/
def search (x : Index) (text : String) : List Record :=
  let needle := Text.lower (Text.trim text.toList)
  if needle.isEmpty then []
  else
    let scored := (x.records.values.map fun r => (score needle r, r)).filter fun s => 0 < s.1
    (sortStable (fun a b => b.1 < a.1) scored).map Prod.snd

/-- The notes of a title. -/
def titled (x : Index) (key : String) : List Record :=
  x.records.values.filter fun r => r.titleKey == key

inductive Resolution where
  | unique (r : Record)
  | ambiguous (rs : List Record)
  | notFound

/-- Finds a note by its identifier, or else by its title whatever the letter case. -/
def resolve (x : Index) (name : String) : Resolution :=
  match x.records.find? (Text.trimmed name) with
  | some r => .unique r
  | none =>
    match x.titled (Record.keyOfTitle name) with
    | [] => .notFound
    | [r] => .unique r
    | rs => .ambiguous rs

end NoteIndex.Index
