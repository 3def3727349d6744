import NoteIndex.Json.Writer
import NoteIndex.Number.Written
import NoteIndex.Value.Basic

/-!
# Values as text

Plain text shows strings bare and lists without brackets; a map is shown as its JSON.
-/

namespace NoteIndex.Value

mutual

def toJson : Value → Json
  | .null => .null
  | .bool b => .bool b
  | .number n => if n.jsonText == "null" then .null else .number n.jsonText
  | .string s => .string s
  | .list items => .array (itemsJson items)
  | .map entries => .object (entriesJson entries)

def itemsJson : List Value → List Json
  | [] => []
  | v :: r => v.toJson :: itemsJson r

def entriesJson : List (String × Value) → List (String × Json)
  | [] => []
  | (k, v) :: r => (k, v.toJson) :: entriesJson r

end

mutual

def text : Value → String
  | .null => "null"
  | .bool true => "true"
  | .bool false => "false"
  | .number n => n.plainText
  | .string s => s
  | .list items => Text.joinWith "," (itemTexts items)
  | .map entries => (Json.object (entriesJson entries)).compact

def itemTexts : List Value → List String
  | [] => []
  | v :: r => v.text :: itemTexts r

end

end NoteIndex.Value
