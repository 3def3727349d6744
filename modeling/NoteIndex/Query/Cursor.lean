import NoteIndex.Query.Token
import NoteIndex.Text.Offset

/-!
# Reading tokens by byte offsets

A text kept in UTF-8 is read from a cursor: the tokens so far and the text still to come, which is
cut at byte offsets. Two things are told apart from a text that is no query, since they must never
come up: a cut where there is none to make, and a closing bracket where none is open.
-/

namespace NoteIndex.Query

structure Cursor where
  tokens : List Token
  rest : List Char
  deriving DecidableEq, Repr

namespace Cursor

/-- Why reading stops before the end. -/
inductive Halt where
  | refused (e : Error)
  /-- A cut inside a character or past the end. -/
  | noCut (offset : Nat)
  /-- A bracket closes where none is open. -/
  | noneOpen
  deriving DecidableEq, Repr

def cut (n : Nat) (cs : List Char) : Except Halt (List Char × List Char) :=
  match Text.cutAt? n cs with
  | some p => .ok p
  | none => .error (.noCut n)

/-- Goes on past the first `n` bytes, which make up a token. -/
def take (ts : List Token) (n : Nat) (cs : List Char) (token : List Char → Token) :
    Except Halt Cursor :=
  (cut n cs).map fun p => ⟨ts ++ [token p.1], p.2⟩

/-- A character that begins no token, which is refused unless WHERE has gone by. -/
def stray (ts : List Token) (c : Char) (e : Error) : Except Halt Token :=
  (Token.strayOr (ts.any (·.is .where_)) c e).mapError .refused

def takeStray (ts : List Token) (c : Char) (r : List Char) (e : Error) : Except Halt Cursor :=
  (stray ts c e).bind fun t => take ts 1 (c :: r) fun _ => t

/-- Reads on from behind an opening quote. -/
def takeQuoted (ts : List Token) (q : Char) (body : List Char) : Except Halt Cursor :=
  match Text.offset? (· == q) body with
  | some n => (cut n body).bind fun p => take ts (n + 1) body fun _ => .quoted p.1
  | none => (stray ts q .unclosedString).map fun t => ⟨ts ++ [t], body⟩

/-- The offset behind the bracket that brings the nesting back to nothing, in a text that begins at
the offset `i`. -/
def listEnd (depth : Nat) (quote : Option Char) (i : Nat) : List Char → Except Halt (Option Nat)
  | [] => .ok none
  | c :: r =>
    match quote with
    | some q => listEnd depth (if c = q then none else some q) (i + c.utf8Size) r
    | none =>
      if isQuote c then listEnd depth (some c) (i + c.utf8Size) r
      else if c = '[' then listEnd (depth + 1) none (i + c.utf8Size) r
      else if c = ']' then
        match depth with
        | 0 => .error .noneOpen
        | d + 1 => if d = 0 then .ok (some (i + 1)) else listEnd d none (i + c.utf8Size) r
      else listEnd depth none (i + c.utf8Size) r

def takeList (ts : List Token) (r : List Char) : Except Halt Cursor :=
  (listEnd 0 none 0 ('[' :: r)).bind fun
    | some n => take ts n ('[' :: r) .list
    | none => takeStray ts '[' r .unclosedList

/-- Where the word at the beginning of a text ends. -/
def wordEnd (cs : List Char) : Nat :=
  (Text.offset? (fun c => !Token.isWordChar c) cs).getD (Text.byteSize cs)

/-- Reads on from a text that begins with `c`: past a blank, or past a token. -/
def step (ts : List Token) (c : Char) (r : List Char) : Except Halt Cursor :=
  if Text.isBlank c then (cut c.utf8Size (c :: r)).map fun p => ⟨ts, p.2⟩
  else if c = ',' then take ts 1 (c :: r) fun _ => .comma
  else if isQuote c then (cut 1 (c :: r)).bind fun p => takeQuoted ts c p.2
  else if c = '[' then takeList ts r
  else
    match Sign.ofStart? (c :: r) with
    | some s => take ts (Text.byteSize s.spelling) (c :: r) fun _ => .sign s
    | none =>
      if c = '!' then take ts 1 (c :: r) fun _ => .bang
      else if c = ']' then takeStray ts c r (.unexpected "]")
      else take ts (wordEnd (c :: r)) (c :: r) .word

end Cursor

end NoteIndex.Query
