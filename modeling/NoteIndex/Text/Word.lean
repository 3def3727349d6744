import NoteIndex.Text.WordTable

/-!
# Word characters

The characters that make up words, digits, marks and underscores included, in every script.
-/

namespace NoteIndex.Text

/-- Whether a number lies in one of the inclusive ranges. -/
def inRanges (ranges : List (Nat × Nat)) (n : Nat) : Bool :=
  ranges.any fun r => r.1 ≤ n && n ≤ r.2

def isWordChar (c : Char) : Bool :=
  if c.toNat < 0x80 then c.isAlphanum || c == '_' else inRanges wordRanges c.toNat

end NoteIndex.Text
