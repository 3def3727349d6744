import NoteIndex.Query.Basic
import NoteIndex.Query.Literal

/-!
# Tokens

The words, literals and signs of a query's text. A character that begins no token is an error, but
once the word WHERE has gone by it is kept as a stray, for a malformed condition is no error.
-/

namespace NoteIndex.Query

inductive Keyword where
  | list | table | task | count | from_ | where_ | order | limit | or_ | and_ | not_ | by_ | asc
  | desc
  deriving DecidableEq, Repr

def Keyword.spelling : Keyword → List Char
  | .list => "LIST".toList
  | .table => "TABLE".toList
  | .task => "TASK".toList
  | .count => "COUNT".toList
  | .from_ => "FROM".toList
  | .where_ => "WHERE".toList
  | .order => "ORDER".toList
  | .limit => "LIMIT".toList
  | .or_ => "OR".toList
  | .and_ => "AND".toList
  | .not_ => "NOT".toList
  | .by_ => "BY".toList
  | .asc => "ASC".toList
  | .desc => "DESC".toList

/-- The signs of comparisons. -/
inductive Sign where
  | eqEq | notEq | gtEq | ltEq | eq | gt | lt
  deriving DecidableEq, Repr

namespace Sign

def spelling : Sign → List Char
  | .eqEq => ['=', '=']
  | .notEq => ['!', '=']
  | .gtEq => ['>', '=']
  | .ltEq => ['<', '=']
  | .eq => ['=']
  | .gt => ['>']
  | .lt => ['<']

/-- The longest sign at the beginning of a text. -/
def ofStart? : List Char → Option Sign
  | '=' :: '=' :: _ => some .eqEq
  | '!' :: '=' :: _ => some .notEq
  | '>' :: '=' :: _ => some .gtEq
  | '<' :: '=' :: _ => some .ltEq
  | '=' :: _ => some .eq
  | '>' :: _ => some .gt
  | '<' :: _ => some .lt
  | _ => none

def operator : Sign → Operator
  | .eqEq => .eq
  | .notEq => .notEq
  | .gtEq => .gtEq
  | .ltEq => .ltEq
  | .eq => .eq
  | .gt => .gt
  | .lt => .lt

end Sign

inductive Token where
  /-- A keyword, a name, a tag or a bare literal. -/
  | word (cs : List Char)
  /-- What stands between two quotes of a kind. -/
  | quoted (inner : List Char)
  /-- A list with its brackets. -/
  | list (raw : List Char)
  | comma
  | sign (s : Sign)
  | bang
  /-- A character that begins no token. -/
  | stray (c : Char)
  deriving DecidableEq, Repr

namespace Token

/-- How many characters of the text a token takes up. -/
def width : Token → Nat
  | .word cs => cs.length
  | .quoted inner => inner.length + 2
  | .list raw => raw.length
  | .comma => 1
  | .sign s => s.spelling.length
  | .bang => 1
  | .stray _ => 1

/-- A token as error messages show it. -/
def chars : Token → List Char
  | .word cs => cs
  | .quoted inner => '"' :: inner ++ ['"']
  | .list raw => raw
  | .comma => [',']
  | .sign s => s.spelling
  | .bang => ['!']
  | .stray c => [c]

def text (t : Token) : String := String.ofList t.chars

/-- Keywords are words in any letter case. -/
def is (k : Keyword) : Token → Bool
  | .word cs => cs.map Char.toUpper == k.spelling
  | _ => false

/-- Whether a clause begins here. -/
def beginsClause (t : Token) : Bool :=
  t.is .from_ || t.is .where_ || t.is .order || t.is .limit

def isWordChar (c : Char) : Bool :=
  !Text.isBlank c && !(c == ',' || c == '"' || c == '\'' || c == '[' || c == ']' || c == '=' ||
    c == '!' || c == '<' || c == '>')

/-- The text up to the bracket that brings the nesting back to nothing. -/
def listEnd? (n : Nesting) : List Char → Option (List Char)
  | [] => none
  | c :: r =>
    let n := n.step c
    if n.depth = 0 then some [c] else (listEnd? n r).map (c :: ·)

/-- A character that begins no token: a stray after WHERE, before it an error. -/
def strayOr (afterWhere : Bool) (c : Char) (e : Error) : Except Error Token :=
  if afterWhere then .ok (.stray c) else .error e

/-- Reads the token that begins with `c`, which is not blank. -/
def read (afterWhere : Bool) (c : Char) (r : List Char) : Except Error Token :=
  if c = ',' then .ok .comma
  else if isQuote c then
    match Text.splitOnce c r with
    | some (inner, _) => .ok (.quoted inner)
    | none => strayOr afterWhere c .unclosedString
  else if c = '[' then
    match listEnd? .outside (c :: r) with
    | some raw => .ok (.list raw)
    | none => strayOr afterWhere c .unclosedList
  else
    match Sign.ofStart? (c :: r) with
    | some s => .ok (.sign s)
    | none =>
      if c = '!' then .ok .bang
      else if c = ']' then strayOr afterWhere c (.unexpected "]")
      else .ok (.word (c :: r.takeWhile isWordChar))

/-- The tokens of a text; the first `skip` characters belong to the token read last. -/
def readFrom (skip : Nat) (afterWhere : Bool) : List Char → Except Error (List Token)
  | [] => .ok []
  | c :: r =>
    match skip with
    | k + 1 => readFrom k afterWhere r
    | 0 =>
      if Text.isBlank c then readFrom 0 afterWhere r
      else
        match read afterWhere c r with
        | .error e => .error e
        | .ok t => (readFrom (t.width - 1) (afterWhere || t.is .where_) r).map (t :: ·)

def tokenize (cs : List Char) : Except Error (List Token) := readFrom 0 false cs

end Token

end NoteIndex.Query
