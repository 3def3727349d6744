import NoteIndex.Json.Reader

/-!
# Strings and keys in TOML

Strings stand between quotes, which admit escapes, or between apostrophes, which do not; three of
either allow line breaks. A reader takes the text it reads and gives the rest.
-/

namespace NoteIndex.Toml

/-- A reader of values of type `α`. -/
abbrev Reads (α : Type) := List Char → Option (α × List Char)

def isSpace (c : Char) : Bool := c == ' ' || c == '\t'

def skipSpace (cs : List Char) : List Char := cs.dropWhile isSpace

/-- A character that may stand in a comment or a string as it is. -/
def isPlain (c : Char) : Bool := c == '\t' || (0x20 ≤ c.toNat && c.toNat ≠ 0x7F)

/-- The text after a line break. -/
def newline? : List Char → Option (List Char)
  | '\n' :: r => some r
  | '\r' :: '\n' :: r => some r
  | _ => none

/-- The text after a comment, if one stands here. -/
def skipComment : List Char → List Char
  | '#' :: r => r.dropWhile isPlain
  | cs => cs

/-- The text after the end of a line, which may hold blanks and a comment. -/
def endOfLine? (cs : List Char) : Option (List Char) :=
  match skipComment (skipSpace cs) with
  | [] => some []
  | r => newline? r

/-- The character with a code point, unless that is a surrogate or too large. -/
def scalar? (n : Nat) : Option Char := if n.isValidChar then some (Char.ofNat n) else none

def hexDigits? : Nat → Nat → Reads Nat
  | 0, n, cs => some (n, cs)
  | k + 1, n, c :: r => (Json.hexValue? c).bind fun d => hexDigits? k (n * 16 + d) r
  | _ + 1, _, [] => none

/-- The escape after a backslash. -/
def escape? : Reads Char
  | 'b' :: r => some ('\x08', r)
  | 't' :: r => some ('\t', r)
  | 'n' :: r => some ('\n', r)
  | 'f' :: r => some ('\x0c', r)
  | 'r' :: r => some ('\r', r)
  | '"' :: r => some ('"', r)
  | '\\' :: r => some ('\\', r)
  | 'u' :: r => do
    let (n, r) ← hexDigits? 4 0 r
    pure (← scalar? n, r)
  | 'U' :: r => do
    let (n, r) ← hexDigits? 8 0 r
    pure (← scalar? n, r)
  | _ => none

/-- The text after blanks and line breaks. -/
def skipBreaks : List Char → List Char
  | ' ' :: r => skipBreaks r
  | '\t' :: r => skipBreaks r
  | '\n' :: r => skipBreaks r
  | '\r' :: '\n' :: r => skipBreaks r
  | r => r

/-- The text after a backslash at the end of a line: the line break and all blanks and line breaks
after it are left out. -/
def continuation? (cs : List Char) : Option (List Char) :=
  (newline? (skipSpace cs)).map skipBreaks

/-- The rest of a string on one line, up to its closing mark. -/
def readLine? (mark : Char) : Nat → Reads (List Char)
  | 0, _ => none
  | fuel + 1, cs =>
    match cs with
    | [] => none
    | c :: r =>
      if c = mark then some ([], r)
      else if c = '\\' ∧ mark = '"' then
        (escape? r).bind fun (c, r) => (readLine? mark fuel r).map fun (s, r) => (c :: s, r)
      else if isPlain c then (readLine? mark fuel r).map fun (s, r) => (c :: s, r)
      else none

/-- How many times the mark stands at the beginning, counted up to five. -/
def marks (mark : Char) (cs : List Char) : Nat := ((cs.take 5).takeWhile (· == mark)).length

/-- The rest of a string of several lines. It ends at three marks; up to two more before them
belong to it. -/
def readLines? (mark : Char) : Nat → Reads (List Char)
  | 0, _ => none
  | fuel + 1, cs =>
    let closing := marks mark cs
    if 3 ≤ closing then some (List.replicate (closing - 3) mark, cs.drop closing)
    else
      match newline? cs with
      | some r => (readLines? mark fuel r).map fun (s, r) => ('\n' :: s, r)
      | none =>
        match cs with
        | [] => none
        | c :: r =>
          if c = '\\' ∧ mark = '"' then
            match continuation? r with
            | some r => readLines? mark fuel r
            | none =>
              (escape? r).bind fun (c, r) => (readLines? mark fuel r).map fun (s, r) => (c :: s, r)
          else if isPlain c then (readLines? mark fuel r).map fun (s, r) => (c :: s, r)
          else none

/-- A string after its first mark. -/
def readString? (mark : Char) (cs : List Char) : Option (String × List Char) :=
  let text :=
    if marks mark cs ≥ 2 then
      let r := cs.drop 2
      readLines? mark (r.length + 1) ((newline? r).getD r)
    else readLine? mark (cs.length + 1) cs
  text.map fun (s, r) => (String.ofList s, r)

/-- A character of a key without quotes. -/
def isBare (c : Char) : Bool := c.isAlphanum || c == '-' || c == '_'

/-- One name of a key: bare, or a string on one line. -/
def readName? : Reads String
  | '"' :: r => (readLine? '"' (r.length + 1) r).map fun (s, r) => (String.ofList s, r)
  | '\'' :: r => (readLine? '\'' (r.length + 1) r).map fun (s, r) => (String.ofList s, r)
  | cs =>
    let (name, r) := cs.span isBare
    if name.isEmpty then none else some (String.ofList name, r)

/-- At most so many names between dots, with blanks around them. -/
def readNames? : Nat → Reads (List String)
  | 0, _ => none
  | most + 1, cs =>
    (readName? (skipSpace cs)).bind fun (name, r) =>
      match skipSpace r with
      | '.' :: r => (readNames? most r).map fun (names, r) => (name :: names, r)
      | r => some ([name], r)

/-- Values nest so deep at most, and so many names make a key. -/
def maxDepth : Nat := 79

def readKey? : Reads (List String) := readNames? maxDepth

end NoteIndex.Toml
