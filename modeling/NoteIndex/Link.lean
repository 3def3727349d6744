import NoteIndex.Text.Blank
import NoteIndex.Text.Lowercase
import NoteIndex.Text.Split

/-!
# Links

A link in a note's body is a target between double square brackets, with or without another text to
show in its place, set off by a bar. It points to a title, whatever the letter case.
-/

namespace NoteIndex

structure Link where
  target : String
  label : String
  deriving DecidableEq, Repr

namespace Link

/-- The form of a target under which links are listed. -/
def key (l : Link) : String := Text.lowercase l.target

def text (l : Link) : String :=
  if l.label = l.target then "[[" ++ l.target ++ "]]"
  else "[[" ++ l.target ++ "|" ++ l.label ++ "]]"

/-- What stands between the brackets, if a link begins here: at least one character, none of them
a closing bracket. -/
def inside? : List Char → Option (List Char)
  | '[' :: '[' :: r =>
    let inner := r.takeWhile (· != ']')
    if inner.isEmpty then none
    else match r.drop inner.length with
      | ']' :: ']' :: _ => some inner
      | _ => none
  | _ => none

/-- The insides of all links from left to right, without overlap; `skip` characters belong to the
link found last. -/
def insidesFrom (skip : Nat) : List Char → List (List Char)
  | [] => []
  | c :: r =>
    match skip with
    | k + 1 => insidesFrom k r
    | 0 =>
      match inside? (c :: r) with
      | some inner => inner :: insidesFrom (inner.length + 3) r
      | none => insidesFrom 0 r

/-- Reads the inside of a link; one without a target is none. -/
def ofInside? (inner : List Char) : Option Link :=
  let (target, label) := match Text.splitOnce '|' inner with
    | some (target, label) => (Text.trim target, Text.trim label)
    | none => (Text.trim inner, Text.trim inner)
  if target.isEmpty then none else some ⟨String.ofList target, String.ofList label⟩

/-- The links of a body in the order they stand in it. -/
def extract (body : List Char) : List Link := (insidesFrom 0 body).filterMap ofInside?

end Link

end NoteIndex
