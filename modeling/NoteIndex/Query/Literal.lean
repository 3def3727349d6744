import NoteIndex.Number.Reading
import NoteIndex.Value.Basic

/-!
# Literals

Values as they are written in queries: quoted strings, truth values, numbers, lists in brackets, and
bare text for anything else. Brackets nest, and a quoted piece may hold commas and brackets;
`Nesting` keeps count of both.
-/

namespace NoteIndex.Query

def isQuote (c : Char) : Bool := c == '"' || c == '\''

/-- How deep in brackets a place is, and in which quotes. -/
structure Nesting where
  depth : Nat
  quote : Option Char
  deriving DecidableEq, Repr

namespace Nesting

def outside : Nesting := ⟨0, none⟩

/-- The place after one more character. -/
def step (n : Nesting) (c : Char) : Nesting :=
  match n.quote with
  | some q => if c = q then ⟨n.depth, none⟩ else n
  | none =>
    if isQuote c then ⟨n.depth, some c⟩
    else if c = '[' then ⟨n.depth + 1, none⟩
    else if c = ']' then ⟨n.depth - 1, none⟩
    else n

end Nesting

/-- The pieces between the commas that stand outside brackets and quotes. -/
def splitTop (n : Nesting) : List Char → List (List Char)
  | [] => [[]]
  | c :: r =>
    if c = ',' ∧ n = .outside then [] :: splitTop n r
    else
      match splitTop (n.step c) r with
      | [] => [[c]]
      | p :: ps => (c :: p) :: ps

/-- Takes a text out of the quotes that it begins and ends with. -/
def unquote? (cs : List Char) : Option (List Char) :=
  match cs with
  | q :: r => if isQuote q ∧ r.getLast? = some q then some r.dropLast else none
  | [] => none

/-- Takes a text out of its brackets. -/
def unbracket? (cs : List Char) : Option (List Char) :=
  match cs with
  | '[' :: r => if r.getLast? = some ']' then some r.dropLast else none
  | _ => none

/-- Reads a literal whose lists nest less than `fuel` deep. -/
def literalWithin : Nat → List Char → Value
  | 0, cs => .string (String.ofList cs)
  | fuel + 1, cs =>
    let cs := Text.trim cs
    match unquote? cs with
    | some inner => .string (String.ofList inner)
    | none =>
      if cs = "true".toList then .bool true
      else if cs = "false".toList then .bool false
      else match Number.parseText? cs with
        | some n => .number n
        | none =>
          match unbracket? cs with
          | some inner =>
            .list ((((splitTop .outside inner).map Text.trim).filter fun p => !p.isEmpty).map
              (literalWithin fuel))
          | none => .string (String.ofList cs)

/-- Each level of nesting takes up characters, so the length bounds the depth. -/
def literal (cs : List Char) : Value := literalWithin (cs.length + 1) cs

def parseValue (s : String) : Value := literal s.toList

end NoteIndex.Query
