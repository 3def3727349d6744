/-!
# Blank characters

White space as Unicode's property `White_Space` has it, and what a reader of text does with it:
trimming, and counting the words between.
-/

namespace NoteIndex.Text

def isBlank (c : Char) : Bool :=
  let n := c.toNat
  (0x09 ≤ n && n ≤ 0x0D) || n == 0x20 || n == 0x85 || n == 0xA0 || n == 0x1680 ||
    (0x2000 ≤ n && n ≤ 0x200A) || n == 0x2028 || n == 0x2029 || n == 0x202F || n == 0x205F ||
    n == 0x3000

def trimStart (cs : List Char) : List Char := cs.dropWhile isBlank

def trimEnd (cs : List Char) : List Char := (cs.reverse.dropWhile isBlank).reverse

def trim (cs : List Char) : List Char := trimEnd (trimStart cs)

def trimmed (s : String) : String := String.ofList (trim s.toList)

/-- Counts the words that begin in the text; `fresh` says that one may begin at its first
character. -/
def countWords (fresh : Bool) : List Char → Nat
  | [] => 0
  | c :: r => if isBlank c then countWords true r else countWords false r + fresh.toNat

def wordCount (cs : List Char) : Nat := countWords true cs

theorem isBlank_iff (c : Char) : isBlank c = true ↔
    (0x09 ≤ c.toNat ∧ c.toNat ≤ 0x0D) ∨ c.toNat = 0x20 ∨ c.toNat = 0x85 ∨ c.toNat = 0xA0 ∨
      c.toNat = 0x1680 ∨ (0x2000 ≤ c.toNat ∧ c.toNat ≤ 0x200A) ∨ c.toNat = 0x2028 ∨
      c.toNat = 0x2029 ∨ c.toNat = 0x202F ∨ c.toNat = 0x205F ∨ c.toNat = 0x3000 := by
  simp [isBlank, or_assoc]

@[simp] theorem trim_nil : trim [] = [] := rfl

@[simp] theorem wordCount_nil : wordCount [] = 0 := rfl

end NoteIndex.Text
