import NoteIndex.Toml.Scalar

/-!
# Reading TOML

A document is read line by line: headers of tables, keys with values, blank lines and comments.
Every key is assigned once. Values nest in brackets and braces; the depth is limited.
-/

namespace NoteIndex.Toml

/-- The text after blanks, line breaks and comments, as they may stand between brackets. -/
def skipLines : Nat → List Char → List Char
  | 0, cs => cs
  | fuel + 1, cs =>
    let r := skipSpace cs
    match newline? r with
    | some r => skipLines fuel r
    | none =>
      match r with
      | '#' :: _ =>
        match newline? (skipComment r) with
        | some r => skipLines fuel r
        | none => r
      | r => r

def gap (cs : List Char) : List Char := skipLines (cs.length + 1) cs

/-- The items of an array up to its closing bracket, with commas between and one more allowed after
the last. -/
def readItems? (readValue? : Reads Toml) : Nat → Reads (List Toml)
  | 0, _ => none
  | fuel + 1, cs =>
    match gap cs with
    | ']' :: r => some ([], r)
    | r =>
      (readValue? r).bind fun (t, r) =>
        match gap r with
        | ',' :: r => (readItems? readValue? fuel r).map fun (ts, r) => (t :: ts, r)
        | ']' :: r => some ([t], r)
        | _ => none

/-- A key, the sign after it, and a value. -/
def readPair? (readValue? : Reads Toml) (cs : List Char) :
    Option ((List String × Toml) × List Char) := do
  let (key, r) ← readKey? cs
  let (_, r) ← char? '=' r
  let (value, r) ← readValue? (skipSpace r)
  pure ((key, value), r)

/-- The pairs between braces from the first one on, added to the entries before them. -/
def readPairs? (readValue? : Reads Toml) : Nat → Entries → Reads Entries
  | 0, _, _ => none
  | fuel + 1, es, cs =>
    (readPair? readValue? cs).bind fun ((key, value), r) =>
      (assign? value key .defined es).bind fun es =>
        match skipSpace r with
        | ',' :: r => readPairs? readValue? fuel es r
        | '\x7d' :: r => some (es, r)
        | _ => none

/-- A value with at most `depth` arrays and tables around the innermost one. -/
def readValue? : Nat → Reads Toml
  | depth, cs =>
    match cs with
    | '"' :: r => (readString? '"' r).map fun (s, r) => (.string s, r)
    | '\'' :: r => (readString? '\'' r).map fun (s, r) => (.string s, r)
    | 't' :: 'r' :: 'u' :: 'e' :: r => some (.bool true, r)
    | 'f' :: 'a' :: 'l' :: 's' :: 'e' :: r => some (.bool false, r)
    | '[' :: r =>
      match depth with
      | 0 => none
      | depth + 1 =>
        (readItems? (readValue? depth) (r.length + 1) r).map fun (ts, r) => (.array ts, r)
    | '\x7b' :: r =>
      match depth with
      | 0 => none
      | depth + 1 =>
        match skipSpace r with
        | '\x7d' :: r => some (.inline [], r)
        | _ =>
          (readPairs? (readValue? depth) (r.length + 1) [] r).map fun (es, r) => (.inline es, r)
    | _ => scalarValue? cs

/-- The key of a header and what begins its table. -/
def readHeader? (cs : List Char) :
    Option ((List String × (List String → Entries → Option Entries)) × List Char) :=
  match cs with
  | '[' :: '[' :: r => do
    let (path, r) ← readKey? r
    let (_, r) ← char? ']' r
    let (_, r) ← char? ']' r
    pure ((path, extend?), r)
  | '[' :: r => do
    let (path, r) ← readKey? r
    let (_, r) ← char? ']' r
    pure ((path, define?), r)
  | _ => none

/-- Reads the lines of a document into the entries read before, `path` being the last header. -/
def readDocument? : Nat → List String → Entries → List Char → Option Entries
  | 0, _, _, _ => none
  | fuel + 1, path, es, cs =>
    match gap cs with
    | [] => some es
    | '#' :: r => if (r.dropWhile isPlain).isEmpty then some es else none
    | '[' :: r => do
      let ((path, begin?), r) ← readHeader? ('[' :: r)
      let es ← begin? path es
      readDocument? fuel path es (← endOfLine? r)
    | r => do
      let ((key, value), r) ← readPair? (readValue? maxDepth) r
      let es ← assignAt? path key value es
      readDocument? fuel path es (← endOfLine? r)

/-- Reads a document, which may begin with a mark of its encoding. -/
def parse? (cs : List Char) : Option Entries :=
  let cs := match cs with
    | '\uFEFF' :: r => r
    | cs => cs
  readDocument? (cs.length + 1) [] [] cs

end NoteIndex.Toml
