import NoteIndex.Note.Basic
import NoteIndex.Text.Blank
import NoteIndex.Text.Split

/-!
# Blocks of a markdown text

Each line that is not blank becomes a block, told apart by the mark it begins with. A task loses its
mark; other lines are kept whole. Blocks are numbered by their lines.
-/

namespace NoteIndex.Block

/-- The state and the content of a task line, which begins with a box after a dash or a star. -/
def taskMark? : List Char → Option (Bool × List Char)
  | bullet :: ' ' :: '[' :: mark :: ']' :: r =>
    if bullet = '-' ∨ bullet = '*' then
      if mark = ' ' then some (false, Text.trim r)
      else if mark = 'x' ∨ mark = 'X' then some (true, Text.trim r)
      else none
    else none
  | _ => none

/-- What a line is that begins, blanks aside, like this. -/
def kindOfLine (cs : List Char) : BlockKind :=
  let begins (s : String) : Bool := Text.beginsWith s.toList cs
  if begins "```" then .code
  else if begins "# " || begins "##" then .heading
  else if begins "- " || begins "* " then .bullet
  else if begins "> " then .quote
  else .text

def ofLine (id : String) (line : List Char) : Block :=
  let start := Text.trimStart line
  match taskMark? start with
  | some (checked, content) => task id (String.ofList content) checked
  | none => plain id (kindOfLine start) (String.ofList line)

/-- The blocks of lines of which the first is number `number`. -/
def ofLines (noteId : String) (number : Nat) : List (List Char) → List Block
  | [] => []
  | line :: r =>
    let rest := ofLines noteId (number + 1) r
    if (Text.trim line).isEmpty then rest
    else ofLine (noteId ++ "#L" ++ Nat.repr number) line :: rest

def ofMarkdown (noteId : String) (text : List Char) : List Block :=
  ofLines noteId 1 (Text.lines text)

end NoteIndex.Block
