import NoteIndex.Number.Reading
import NoteIndex.Text.Word
import NoteIndex.Text.Split
import NoteIndex.Value.Basic

/-!
# Frontmatter

The entries at the head of a note, between a first line `---` and a later line that begins with
`---`. Each line `key: value` in between is an entry; other lines mean nothing. Text without such a
block is all body.
-/

namespace NoteIndex

abbrev Frontmatter := Table Value

namespace Frontmatter

/-- Takes a quoted text out of its quotes. -/
def unquote? (cs : List Char) : Option (List Char) :=
  match cs with
  | q :: r => if (q = '"' ∨ q = '\'') ∧ r.getLast? = some q then some r.dropLast else none
  | [] => none

/-- The items of a bracketed list: trimmed, out of their quotes, and not empty. -/
def listItems (inner : List Char) : List Value :=
  ((Text.splitOn ',' inner).map fun item =>
    let item := Text.trim item
    (unquote? item).getD item).filterMap fun item =>
      if item.isEmpty then none else some (.string (String.ofList item))

/-- Reads the text after a colon, trimmed: a list of strings, a quoted string, a truth value, a
finite number, or else the text itself. -/
def readValue (raw : List Char) : Value :=
  match raw with
  | '[' :: r => if r.getLast? = some ']' then .list (listItems r.dropLast) else plain raw
  | _ => plain raw
where
  plain (raw : List Char) : Value :=
    match unquote? raw with
    | some inner => .string (String.ofList inner)
    | none =>
      if raw = "true".toList then .bool true
      else if raw = "false".toList then .bool false
      else match Number.parseText? raw with
        | some n => .number n
        | none => .string (String.ofList raw)

def isKeyChar (c : Char) : Bool := Text.isWordChar c || c == '.' || c == '-'

/-- Reads a line as an entry: a key that begins with a word character, blanks, a colon and a
value. -/
def readLine? : List Char → Option (String × Value)
  | [] => none
  | c :: r =>
    if Text.isWordChar c then
      match Text.trimStart (r.dropWhile isKeyChar) with
      | ':' :: value =>
        some (String.ofList (c :: r.takeWhile isKeyChar), readValue (Text.trim value))
      | _ => none
    else none

def dropReturns (line : List Char) : List Char := (line.reverse.dropWhile (· == '\r')).reverse

/-- The entries of the lines of a block; a later line of a key overwrites the value where the key
first stood. -/
def ofLines (lines : List (List Char)) : Frontmatter :=
  Table.ofList (lines.filterMap fun line => readLine? (dropReturns line))

def afterNewline? : List Char → Option (List Char)
  | '\n' :: r => some r
  | '\r' :: '\n' :: r => some r
  | _ => none

def afterDashes? : List Char → Option (List Char)
  | '-' :: '-' :: '-' :: r => some r
  | _ => none

/-- The text after the delimiter that closes the block, if one begins at this line end. -/
def afterClosing? (cs : List Char) : Option (List Char) := (afterNewline? cs).bind afterDashes?

/-- The inside of a block and the text after its closing delimiter. -/
def closeBlock? : List Char → Option (List Char × List Char)
  | [] => none
  | c :: r =>
    match afterClosing? (c :: r) with
    | some rest => some ([], rest)
    | none => (closeBlock? r).map fun p => (c :: p.1, p.2)

/-- The inside of the block at the head of a text, and the body after it. -/
def block? (text : List Char) : Option (List Char × List Char) := do
  let opened ← afterDashes? text
  let (inside, rest) ← closeBlock? (← afterNewline? opened)
  pure (inside, (afterNewline? rest).getD rest)

/-- Splits a text into frontmatter and body. -/
def split (text : List Char) : Frontmatter × List Char :=
  match block? text with
  | some (inside, body) => (ofLines (Text.lines inside), body)
  | none => (∅, text)

end Frontmatter

end NoteIndex
