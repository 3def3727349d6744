import NoteIndex.Text.Lowercase
import NoteIndex.Text.Blank

/-!
# Tags

A tag is read from text by taking off the blanks around it, the hash signs in front and the blanks
after these, and lower-casing the rest, which must not be empty.
-/

namespace NoteIndex

structure Tag where
  text : String
  deriving DecidableEq, Repr

namespace Tag

def normalize (cs : List Char) : List Char :=
  Text.lower (Text.trim ((Text.trim cs).dropWhile (· == '#')))

def ofChars? (cs : List Char) : Option Tag :=
  let n := normalize cs
  if n.isEmpty then none else some ⟨String.ofList n⟩

def parse? (s : String) : Option Tag := ofChars? s.toList

end Tag

end NoteIndex
