import NoteIndex.Collection.StringSet
import NoteIndex.Frontmatter
import NoteIndex.Tag
import NoteIndex.Value.Written

/-!
# Tags of a note

A note is tagged by the entry `tags` of its frontmatter and by words after a hash sign in its body.
-/

namespace NoteIndex.Tag

def isTagChar (c : Char) : Bool := Text.isWordChar c || c == '-'

/-- The words after hash signs, from left to right. `word` is the one being read, last character
first, once its hash sign has gone by. -/
def hashWordsFrom (word : Option (List Char)) : List Char → List (List Char)
  | [] => finish word
  | c :: r =>
    match word with
    | some w =>
      if isTagChar c then hashWordsFrom (some (c :: w)) r
      else finish word ++ hashWordsFrom (start c) r
    | none => hashWordsFrom (start c) r
where
  start (c : Char) : Option (List Char) := if c = '#' then some [] else none
  /-- A hash sign alone makes no word. -/
  finish : Option (List Char) → List (List Char)
    | some (c :: w) => [(c :: w).reverse]
    | _ => []

def hashWords (body : List Char) : List (List Char) := hashWordsFrom none body

def inline (body : List Char) : List Tag := (hashWords body).filterMap ofChars?

/-- The tags that the entry `tags` gives: each item of a list, or the one value it is. -/
def ofEntry : Option Value → List Tag
  | none => []
  | some .null => []
  | some (.list items) => items.filterMap fun v => parse? v.text
  | some v => (parse? v.text).toList

def extract (body : List Char) (frontmatter : Frontmatter) : List Tag :=
  ofEntry (frontmatter.find? "tags") ++ inline body

end NoteIndex.Tag
