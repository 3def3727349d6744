import NoteIndex.Note.Tags
import NoteIndex.Proofs.Frontmatter
import NoteIndex.Proofs.Text.Blank

/-!
# Words after hash signs, line by line

A word after a hash sign ends with its line, so that the tags in a text are those in its lines. What
a block of frontmatter leaves as body has the tags of the closing line and of the lines after it.
-/

namespace NoteIndex.Tag

open Text (Lined Ends)

/-- A character that neither belongs to a word after a hash sign nor begins one. -/
def isGap (c : Char) : Bool := !isTagChar c && c != '#'

theorem isGap_iff (c : Char) : isGap c = true ↔ isTagChar c = false ∧ c ≠ '#' := by
  simp [isGap]

/-- A word that is being read ends at a gap. -/
theorem hashWordsFrom_gap {c : Char} (hc : isGap c = true) (word : Option (List Char))
    (r : List Char) :
    hashWordsFrom word (c :: r) = hashWordsFrom.finish word ++ hashWords r := by
  rw [isGap_iff] at hc
  cases word with
  | none => simp [hashWordsFrom, hashWordsFrom.start, hashWordsFrom.finish, hc.2, hashWords]
  | some w => simp [hashWordsFrom, hashWordsFrom.start, hc, hashWords]

theorem hashWordsFrom_append {c : Char} (hc : isGap c = true) (word : Option (List Char))
    (a r : List Char) :
    hashWordsFrom word (a ++ c :: r) = hashWordsFrom word a ++ hashWords r := by
  induction a generalizing word with
  | nil => rw [List.nil_append, hashWordsFrom_gap hc, hashWordsFrom]
  | cons d a ih =>
    cases word with
    | none => rw [List.cons_append, hashWordsFrom, hashWordsFrom, ih]
    | some w =>
      rw [List.cons_append, hashWordsFrom, hashWordsFrom]
      split
      · exact ih _
      · rw [ih, List.append_assoc]

theorem hashWords_append {c : Char} (hc : isGap c = true) (a r : List Char) :
    hashWords (a ++ c :: r) = hashWords a ++ hashWords r :=
  hashWordsFrom_append hc none a r

theorem hashWords_cons {c : Char} (hc : isGap c = true) (r : List Char) :
    hashWords (c :: r) = hashWords r :=
  hashWords_append hc [] r

/-! ## What stands around a text -/

/-- Without a hash sign before it there is no word. -/
theorem hashWords_append_of_not_mem {p : List Char} (h : '#' ∉ p) (r : List Char) :
    hashWords (p ++ r) = hashWords r := by
  induction p with
  | nil => rfl
  | cons c p ih =>
    rw [List.mem_cons, not_or] at h
    rw [List.cons_append, hashWords, hashWordsFrom, hashWordsFrom.start, if_neg (Ne.symm h.1)]
    exact ih h.2

theorem hashWords_of_not_mem {p : List Char} (h : '#' ∉ p) : hashWords p = [] := by
  rw [← List.append_nil p, hashWords_append_of_not_mem h]
  rfl

theorem hashWords_append_gaps {gap : List Char} (h : ∀ c ∈ gap, isGap c = true) (a : List Char) :
    hashWords (a ++ gap) = hashWords a := by
  cases gap with
  | nil => rw [List.append_nil]
  | cons c gap =>
    rw [List.forall_mem_cons] at h
    have hhash : '#' ∉ gap := fun hhash => absurd (h.2 '#' hhash) (by decide)
    rw [hashWords_append h.1, hashWords_of_not_mem hhash, List.append_nil]

theorem isGap_of_isBlank {c : Char} (h : Text.isBlank c = true) : isGap c = true := by
  have hdash : c ≠ '-' := by
    rintro rfl
    exact absurd h (by decide)
  have hhash : c ≠ '#' := by
    rintro rfl
    exact absurd h (by decide)
  simp [isGap_iff, isTagChar, Text.isWordChar_of_isBlank h, hdash, hhash]

/-- Trimming takes away gaps alone. -/
theorem hashWords_trim (cs : List Char) : hashWords (Text.trim cs) = hashWords cs := by
  obtain ⟨before, after, hcs, hbefore, hafter⟩ := Text.append_trim_append cs
  have hhash : '#' ∉ before := fun h => absurd (hbefore '#' h) (by decide)
  calc hashWords (Text.trim cs)
      = hashWords (Text.trim cs ++ after) :=
        (hashWords_append_gaps (fun c hc => isGap_of_isBlank (hafter c hc)) _).symm
    _ = hashWords (before ++ (Text.trim cs ++ after)) :=
        (hashWords_append_of_not_mem hhash _).symm
    _ = hashWords cs := by rw [← hcs]

/-! ## Lines -/

/-- A CR at the end of a line is a gap. -/
theorem hashWords_return {b l : List Char} (h : l = b ∨ l = b ++ ['\r']) :
    hashWords l = hashWords b := by
  rcases h with rfl | rfl
  · rfl
  · rw [hashWords_append rfl]
    exact List.append_nil _

theorem hashWords_line {b e : List Char} (h : Ends b e) (r : List Char) :
    hashWords (b ++ (e ++ r)) = hashWords b ++ hashWords r := by
  rcases h with rfl | ⟨rfl, -⟩
  · rw [List.cons_append, hashWords_append rfl, List.cons_append, hashWords_cons rfl]
    rfl
  · exact hashWords_append rfl b r

theorem hashWords_lined {cs : List Char} {ls : List (List Char)} (h : Lined cs ls) :
    hashWords cs = ls.flatMap hashWords := by
  induction h with
  | nil => rfl
  | last => simp
  | line _ he hl _ ih => rw [hashWords_line he, ih, List.flatMap_cons, hashWords_return hl]

theorem inline_lined {cs : List Char} {ls : List (List Char)} (h : Lined cs ls) :
    inline cs = ls.flatMap inline := by
  rw [inline, hashWords_lined h, List.filterMap_flatMap]
  rfl

/-! ## The body of a text -/

open Frontmatter (NoBlock dashes isClosing)

theorem hashWords_afterNewline (r : List Char) :
    hashWords ((Frontmatter.afterNewline? r).getD r) = hashWords r := by
  cases h : Frontmatter.afterNewline? r with
  | none => rfl
  | some rest =>
    rcases (Frontmatter.afterNewline?_eq_some_iff r rest).mp h with rfl | rfl
    · exact (hashWords_cons rfl rest).symm
    · rw [hashWords_cons rfl, hashWords_cons rfl]
      rfl

theorem inline_drop_dashes {l : List Char} (h : isClosing l = true) :
    inline (l.drop 3) = inline l := by
  obtain ⟨rest, rfl⟩ := (Frontmatter.isClosing_iff l).mp h
  rfl

theorem inline_body_of_noBlock {text : List Char} {ls : List (List Char)} (h : NoBlock text)
    (hlined : Lined text ls) : inline (Frontmatter.split text).2 = ls.flatMap inline := by
  rw [Frontmatter.split_of_noBlock h, inline_lined hlined]

theorem inline_body_of_isClosing {text first closing : List Char} {before after : List (List Char)}
    (h : Lined text (dashes :: first :: (before ++ closing :: after)))
    (hbefore : ∀ l ∈ before, isClosing l = false) (hclosing : isClosing closing = true) :
    inline (Frontmatter.split text).2 = (closing :: after).flatMap inline := by
  obtain ⟨r, hr, hsplit⟩ := Frontmatter.split_of_isClosing h hbefore hclosing
  rw [hsplit, inline, hashWords_afterNewline, ← inline, inline_lined hr, List.flatMap_cons,
    inline_drop_dashes hclosing, List.flatMap_cons]

end NoteIndex.Tag
