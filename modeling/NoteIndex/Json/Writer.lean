import NoteIndex.Json.Basic

/-!
# Writing JSON

Compact text has no blanks; indented text puts each item and field on a line of its own, two
blanks deeper than its container, and leaves empty containers closed. In strings only the quote, the
backslash and the control characters are escaped.
-/

namespace NoteIndex.Json

def hexDigit (n : Nat) : Char := Nat.digitChar n

def escapeChar (c : Char) : List Char :=
  if c = '"' then ['\\', '"']
  else if c = '\\' then ['\\', '\\']
  else if c = '\x08' then ['\\', 'b']
  else if c = '\x0c' then ['\\', 'f']
  else if c = '\n' then ['\\', 'n']
  else if c = '\r' then ['\\', 'r']
  else if c = '\t' then ['\\', 't']
  else if c.toNat < 0x20 then
    ['\\', 'u', '0', '0', hexDigit (c.toNat / 16), hexDigit (c.toNat % 16)]
  else [c]

def quoted (s : String) : List Char := '"' :: s.toList.flatMap escapeChar ++ ['"']

/-- Sets pieces between brackets, with commas between them. -/
def enclose (opening closing : Char) (pieces : List (List Char)) : List Char :=
  opening :: ([','] : List Char).intercalate pieces ++ [closing]

mutual

def compactChars : Json → List Char
  | .null => "null".toList
  | .bool true => "true".toList
  | .bool false => "false".toList
  | .number text => text.toList
  | .string s => quoted s
  | .array items => enclose '[' ']' (compactItems items)
  | .object fields => enclose '\x7b' '\x7d' (compactFields fields)
  | .unpaired => "null".toList

def compactItems : List Json → List (List Char)
  | [] => []
  | j :: r => compactChars j :: compactItems r

def compactFields : List (String × Json) → List (List Char)
  | [] => []
  | (k, j) :: r => (quoted k ++ ':' :: compactChars j) :: compactFields r

end

def compact (j : Json) : String := String.ofList j.compactChars

def newLine (depth : Nat) : List Char := '\n' :: List.replicate (2 * depth) ' '

/-- Sets pieces between brackets, one a line, `depth` steps in; the closing bracket stands one step
further out. -/
def encloseLines (opening closing : Char) (depth : Nat) : List (List Char) → List Char
  | [] => [opening, closing]
  | pieces =>
    opening :: newLine depth ++ (',' :: newLine depth).intercalate pieces ++
      newLine (depth - 1) ++ [closing]

mutual

def indentedChars (depth : Nat) : Json → List Char
  | .array items => encloseLines '[' ']' (depth + 1) (indentedItems (depth + 1) items)
  | .object fields =>
    encloseLines '\x7b' '\x7d' (depth + 1) (indentedFields (depth + 1) fields)
  | j => j.compactChars

def indentedItems (depth : Nat) : List Json → List (List Char)
  | [] => []
  | j :: r => indentedChars depth j :: indentedItems depth r

def indentedFields (depth : Nat) : List (String × Json) → List (List Char)
  | [] => []
  | (k, j) :: r => (quoted k ++ [':', ' '] ++ indentedChars depth j) :: indentedFields depth r

end

def indented (j : Json) : String := String.ofList (j.indentedChars 0)

end NoteIndex.Json
