import NoteIndex.Tag
import NoteIndex.Value.Basic

/-!
# Queries

A query names the shape of its results, where to look, conditions that must all hold, an order and a
limit. Also the ways in which a query can fail.
-/

namespace NoteIndex

namespace Query

inductive Shape where
  | list
  | table
  /-- Notes with open tasks, and all their tasks. -/
  | task
  | count
  deriving DecidableEq, Repr

/-- Where to look for notes. -/
inductive Source where
  | tag (t : Tag)
  /-- The folders whose path begins so. -/
  | path (start : String)
  deriving DecidableEq, Repr

inductive Operator where
  | present
  | eq
  | notEq
  | gt
  | lt
  | gtEq
  | ltEq
  | contains
  | oneOf
  deriving DecidableEq, Repr

def Operator.text : Operator → String
  | .present => "exists"
  | .eq => "="
  | .notEq => "!="
  | .gt => ">"
  | .lt => "<"
  | .gtEq => ">="
  | .ltEq => "<="
  | .contains => "contains"
  | .oneOf => "in"

structure Condition where
  field : String
  operator : Operator
  value : Value
  negated : Bool

/-- A test that a property is there and not null. -/
def Condition.isPresent (field : String) : Condition := ⟨field, .present, .null, false⟩

structure Order where
  field : String
  descending : Bool
  deriving DecidableEq, Repr

end Query

structure Query where
  shape : Query.Shape
  /-- The columns of a table. -/
  fields : List String
  /-- Without sources a query looks everywhere. -/
  sources : List Query.Source
  conditions : List Query.Condition
  order : Option Query.Order
  limit : Option Nat

namespace Query

def Shape.text : Shape → String
  | .list => "LIST"
  | .table => "TABLE"
  | .task => "TASK"
  | .count => "COUNT"

inductive Error where
  | empty
  | unclosedString
  | unclosedList
  | missingSource
  | invalidTag (text : String)
  | incompleteOrder
  | invalidLimit (text : String)
  | unexpected (text : String)
  /-- A note with tasks to list is gone. -/
  | noteUnavailable (id : String)
  deriving DecidableEq, Repr

def Error.message : Error → String
  | .empty => "query is empty"
  | .unclosedString => "unterminated string"
  | .unclosedList => "unterminated list"
  | .missingSource => "expected a source after FROM"
  | .invalidTag text => "invalid tag source '" ++ text ++ "'"
  | .incompleteOrder => "ORDER must be followed by BY and a field"
  | .invalidLimit text => "LIMIT expects a non-negative integer, got '" ++ text ++ "'"
  | .unexpected text => "unexpected '" ++ text ++ "'"
  | .noteUnavailable id => "note '" ++ id ++ "' is no longer available"

end Query

end NoteIndex
