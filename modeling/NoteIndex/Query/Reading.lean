import NoteIndex.Query.Token

/-!
# Reading queries

A query is its shape, FROM with sources joined by OR, WHERE with conditions joined by AND, ORDER BY
with a field and a direction, and LIMIT with a number, each of which may be left out. The fields of
a table follow its shape. Conditions that cannot be understood are dropped, all of them together.
-/

namespace NoteIndex.Query

/-- Takes a keyword off the front. -/
def eat (k : Keyword) : List Token → Option (List Token)
  | [] => none
  | t :: r => if t.is k then some r else none

def readShape (ts : List Token) : Option Shape × List Token :=
  match ts with
  | [] => (none, [])
  | t :: r =>
    if t.is .list then (some .list, r)
    else if t.is .table then (some .table, r)
    else if t.is .task then (some .task, r)
    else if t.is .count then (some .count, r)
    else (none, ts)

/-- Words up to the next clause, with or without commas. -/
def readFields : List Token → Except Error (List String × List Token)
  | [] => .ok ([], [])
  | t :: r =>
    if t.beginsClause then .ok ([], t :: r)
    else
      match t with
      | .word cs => (readFields r).map fun p => (String.ofList cs :: p.1, p.2)
      | .comma => readFields r
      | t => .error (.unexpected t.text)

def readSource (t : Token) : Except Error Source :=
  if t.beginsClause then .error .missingSource
  else
    match t with
    | .quoted inner => .ok (.path (String.ofList inner))
    | .word cs =>
      match Tag.ofChars? cs with
      | some tag => .ok (.tag tag)
      | none => .error (.invalidTag (String.ofList cs))
    | t => .error (.unexpected t.text)

def readSources : List Token → Except Error (List Source × List Token)
  | [] => .error .missingSource
  | t :: r =>
    match readSource t with
    | .error e => .error e
    | .ok s =>
      match r with
      | [] => .ok ([s], [])
      | o :: q =>
        if o.is .or_ then (readSources q).map fun p => (s :: p.1, p.2) else .ok ([s], o :: q)

/-- The groups of tokens between the words AND. -/
def splitGroups : List Token → List (List Token)
  | [] => [[]]
  | t :: r =>
    if t.is .and_ then [] :: splitGroups r
    else
      match splitGroups r with
      | [] => [[t]]
      | g :: gs => (t :: g) :: gs

def operator? : Token → Option Operator
  | .sign s => some s.operator
  | .word cs =>
    let name := cs.map Char.toLower
    if name = "contains".toList then some .contains
    else if name = "in".toList then some .oneOf
    else none
  | _ => none

def literal? : Token → Option Value
  | .quoted inner => some (.string (String.ofList inner))
  | .word cs => some (literal cs)
  | .list raw => some (literal raw)
  | _ => none

/-- A field alone, or a field, an operator and a literal. -/
def readTest? (negated : Bool) : List Token → Option Condition
  | [.word field] => some { Condition.isPresent (String.ofList field) with negated }
  | [.word field, op, value] => do
    let operator ← operator? op
    let value ← literal? value
    some ⟨String.ofList field, operator, value, negated⟩
  | _ => none

def readCondition? : List Token → Option Condition
  | [] => none
  | t :: r => if t = .bang ∨ t.is .not_ then readTest? true r else readTest? false (t :: r)

def endsWhere (t : Token) : Bool := t.is .order || t.is .limit

def readConditions (clause : List Token) : List Condition :=
  ((splitGroups clause).mapM readCondition?).getD []

def readOrder (ts : List Token) : Except Error (Order × List Token) :=
  match eat .by_ ts with
  | some (t :: r) =>
    if t.beginsClause then .error .incompleteOrder
    else
      match t with
      | .word cs =>
        let field := String.ofList cs
        match eat .desc r with
        | some r => .ok (⟨field, true⟩, r)
        | none => .ok (⟨field, false⟩, (eat .asc r).getD r)
      | _ => .error .incompleteOrder
  | _ => .error .incompleteOrder

def readLimit : List Token → Except Error (Nat × List Token)
  | [] => .error (.invalidLimit "")
  | t :: r =>
    match t with
    | .word cs =>
      match Value.index? cs with
      | some n => .ok (n, r)
      | none => .error (.invalidLimit (String.ofList cs))
    | t => .error (.invalidLimit t.text)

/-- Reads a clause if its keyword comes next. -/
def clause {α : Type} (k : Keyword) (absent : α)
    (read : List Token → Except Error (α × List Token)) (ts : List Token) :
    Except Error (α × List Token) :=
  match eat k ts with
  | some r => read r
  | none => .ok (absent, ts)

def readTokens (ts : List Token) : Except Error Query := do
  let (shape, ts) := readShape ts
  let shape := shape.getD .list
  let (fields, ts) ← if shape = .table then readFields ts else .ok ([], ts)
  let (sources, ts) ← clause .from_ [] readSources ts
  let (conditions, ts) ← clause .where_ []
    (fun ts => .ok (readConditions (ts.takeWhile (!endsWhere ·)), ts.dropWhile (!endsWhere ·))) ts
  let (order, ts) ← clause .order none (fun ts => (readOrder ts).map fun p => (some p.1, p.2)) ts
  let (limit, ts) ← clause .limit none (fun ts => (readLimit ts).map fun p => (some p.1, p.2)) ts
  match ts with
  | [] => .ok { shape, fields, sources, conditions, order, limit }
  | t :: _ => .error (.unexpected t.text)

def parse (text : String) : Except Error Query :=
  match Token.tokenize text.toList with
  | .error e => .error e
  | .ok [] => .error .empty
  | .ok ts => readTokens ts

end NoteIndex.Query
