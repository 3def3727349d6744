import NoteIndex.Text.Word
import NoteIndex.Text.CaseTable

/-!
# Lower case

Lower-casing of whole texts, after Unicode's full mappings. Two letters do not map alone: a capital
I with a dot becomes two characters, and a capital sigma becomes the final form at the end of a
word, so the result depends on the letters around it.
-/

namespace NoteIndex.Text

def isCased (c : Char) : Bool :=
  if c.toNat < 0x80 then c.isAlpha else inRanges casedRanges c.toNat

def isCaseIgnorable (c : Char) : Bool := inRanges ignorableRanges c.toNat

/-- Whether the next character that case does not ignore is a letter with case. -/
def meetsCased (cs : List Char) : Bool :=
  match cs.dropWhile isCaseIgnorable with
  | [] => false
  | c :: _ => isCased c

/-- The one-to-one mapping of a code point beyond ASCII. -/
def lowerCode (n : Nat) : Nat :=
  match lowerRuns.find? fun (first, last, step, _) =>
    first ≤ n && n ≤ last && (n - first) % step == 0 with
  | some (first, _, _, target) => target + (n - first)
  | none => n

/-- The lower-case form of a character that no context changes. -/
def lowerChar (c : Char) : List Char :=
  if c.toNat < 0x80 then [c.toLower]
  else if c = 'İ' then ['i', Char.ofNat 0x307]
  else [Char.ofNat (lowerCode c.toNat)]

/-- Lower-cases a text of which `before` has been read already, last character first. -/
def lowerFrom (before : List Char) : List Char → List Char
  | [] => []
  | c :: r =>
    if c = 'Σ' then
      (if meetsCased before && !meetsCased r then 'ς' else 'σ') :: lowerFrom (c :: before) r
    else lowerChar c ++ lowerFrom (c :: before) r

def lower (cs : List Char) : List Char := lowerFrom [] cs

def lowercase (s : String) : String := String.ofList (lower s.toList)

end NoteIndex.Text
