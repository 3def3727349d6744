import NoteIndex.Note.Encoded
import NoteIndex.Tag

/-!
# Tags as JSON

A tag is the string of its text. A string that is read is taken for a tag as any other text is.
-/

namespace NoteIndex.Tag

def toJson (t : Tag) : Json := .string t.text

def ofJson? (j : Json) : Option Tag := j.string?.bind parse?

def encode (t : Tag) : String := t.toJson.compact

def decode? (text : String) : Option Tag := (Json.parse? text).bind ofJson?

end NoteIndex.Tag
