import NoteIndex.Frontmatter
import NoteIndex.Proofs.Text.Lines

/-!
# Frontmatter by lines

A block is opened by a first line `---`. The second line never closes it; the first line from the
third on that begins with `---` does. The entries are those of the lines between, and the body is
what follows the three dashes.
-/

namespace NoteIndex.Frontmatter

open Text (Lined Ends lines)

def dashes : List Char := ['-', '-', '-']

/-- The line closes a block that is open. -/
def isClosing (line : List Char) : Bool := Text.beginsWith dashes line

/-- The text opens a block and goes on with `rest`. -/
def Opens (text rest : List Char) : Prop := ∃ e, Ends dashes e ∧ text = dashes ++ (e ++ rest)

/-- Reads one line as the reader of a block does. -/
def entryOfLine? (line : List Char) : Option (String × Value) := readLine? (dropReturns line)

theorem ofLines_eq (ls : List (List Char)) :
    ofLines ls = Table.ofList (ls.filterMap entryOfLine?) :=
  rfl

/-- A CR at the end of a line is dropped before the line is read. -/
theorem entryOfLine?_return {b l : List Char} (h : l = b ∨ l = b ++ ['\r']) :
    entryOfLine? l = entryOfLine? b := by
  rcases h with rfl | rfl
  · rfl
  · simp [entryOfLine?, dropReturns]

/-- An entry begins with a word character. -/
theorem entryOfLine?_eq_none {l : List Char} (h : ∀ c ∈ l.head?, Text.isWordChar c = false) :
    entryOfLine? l = none := by
  rw [entryOfLine?]
  cases hd : dropReturns l with
  | nil => rfl
  | cons c r =>
    have hc : c ∈ l.head? := by
      have hinitial : dropReturns l <+: l := List.reverse_suffix.mp (by
        rw [dropReturns, List.reverse_reverse]
        exact List.dropWhile_suffix _)
      rw [hd] at hinitial
      obtain ⟨r', rfl⟩ := hinitial
      rfl
    rw [readLine?, if_neg (by rw [h c hc]; nofun)]

/-! ## Dashes -/

theorem afterDashes?_eq_some_iff (cs rest : List Char) :
    afterDashes? cs = some rest ↔ cs = dashes ++ rest := by
  constructor
  · intro h
    unfold afterDashes? at h
    split at h
    · cases h
      rfl
    · cases h
  · rintro rfl
    rfl

theorem isClosing_iff (l : List Char) : isClosing l = true ↔ dashes <+: l := by
  rw [isClosing, Text.beginsWith, List.isPrefixOf_iff_prefix]

/-- Dashes that begin a text stand before its first character of another kind. -/
theorem prefix_append_iff {x : Char} (hx : x ≠ '-') (l r : List Char) :
    dashes <+: l ++ x :: r ↔ dashes <+: l := by
  match l with
  | [] => simp [dashes, hx.symm]
  | [a] => simp [dashes, hx.symm]
  | [a, b] => simp [dashes, hx.symm]
  | a :: b :: c :: l => simp [dashes]

theorem isClosing_return {b l : List Char} (h : l = b ∨ l = b ++ ['\r']) :
    isClosing l = isClosing b := by
  rcases h with rfl | rfl
  · rfl
  · rw [Bool.eq_iff_iff, isClosing_iff, isClosing_iff, prefix_append_iff (by decide)]

theorem afterDashes?_of_isClosing {cs l : List Char} {ls : List (List Char)}
    (h : Lined cs (l :: ls)) (hl : isClosing l = true) :
    ∃ rest, afterDashes? cs = some rest ∧ Lined rest (l.drop 3 :: ls) := by
  cases h with
  | last hlf =>
    obtain ⟨rest, rfl⟩ := (isClosing_iff cs).mp hl
    exact ⟨rest, rfl, .last fun h => hlf (List.mem_append_right dashes h)⟩
  | @line b e _ r _ hb he hbl hr =>
    rw [isClosing_return hbl] at hl
    obtain ⟨b, rfl⟩ := (isClosing_iff b).mp hl
    refine ⟨b ++ (e ++ r), rfl, .line (fun h => hb (List.mem_append_right dashes h))
      he.tail.tail.tail ?_ hr⟩
    rcases hbl with rfl | rfl
    · exact .inl rfl
    · exact .inr rfl

theorem afterDashes?_eq_none {cs l : List Char} {ls : List (List Char)} (h : Lined cs (l :: ls))
    (hl : isClosing l = false) : afterDashes? cs = none := by
  rw [Option.eq_none_iff_forall_ne_some]
  intro rest hrest
  have hcs : dashes <+: cs := ⟨rest, ((afterDashes?_eq_some_iff cs rest).mp hrest).symm⟩
  refine absurd ((isClosing_iff l).mpr ?_) (by simp [hl])
  cases h with
  | last => exact hcs
  | @line b e _ r _ hb he hbl hr =>
    rw [← isClosing_iff, isClosing_return hbl, isClosing_iff]
    rcases he with rfl | ⟨rfl, -⟩ <;> exact (prefix_append_iff (by decide) b _).mp hcs

/-! ## The closing line -/

theorem afterNewline?_eq_some_iff (cs rest : List Char) :
    afterNewline? cs = some rest ↔ cs = '\n' :: rest ∨ cs = '\r' :: '\n' :: rest := by
  unfold afterNewline?
  split <;> simp_all

theorem closeBlock?_cons {c : Char} {r : List Char} (h : afterNewline? (c :: r) = none) :
    closeBlock? (c :: r) = (closeBlock? r).map fun p => (c :: p.1, p.2) := by
  rw [closeBlock?, afterClosing?, h, Option.bind_none]

theorem closeBlock?_last {l : List Char} (h : '\n' ∉ l) : closeBlock? l = none := by
  induction l with
  | nil => rfl
  | cons c l ih =>
    rw [closeBlock?_cons, ih fun hl => h (List.mem_cons_of_mem c hl), Option.map_none]
    rw [Option.eq_none_iff_forall_ne_some]
    intro rest hrest
    rcases (afterNewline?_eq_some_iff ..).mp hrest with hrest | hrest <;> simp [hrest] at h

/-- A line is followed by the delimiter, or it belongs to the inside of the block. -/
theorem closeBlock?_line {b e : List Char} (hb : '\n' ∉ b) (he : Ends b e) (r : List Char) :
    closeBlock? (b ++ (e ++ r)) =
      match afterDashes? r with
      | some rest => some (b, rest)
      | none => (closeBlock? r).map fun p => (b ++ (e ++ p.1), p.2) := by
  induction b with
  | nil =>
    rcases he with rfl | ⟨rfl, -⟩ <;> cases hr : afterDashes? r <;>
      simp [closeBlock?, afterClosing?, afterNewline?, hr, Function.comp_def]
  | cons c b ih =>
    rw [List.mem_cons, not_or] at hb
    have hnone : afterNewline? (c :: (b ++ (e ++ r))) = none := by
      rw [Option.eq_none_iff_forall_ne_some]
      intro rest hrest
      rcases (afterNewline?_eq_some_iff ..).mp hrest with hrest | hrest
      · exact hb.1 (List.cons.inj hrest).1.symm
      · obtain ⟨rfl, htail⟩ := List.cons.inj hrest
        exact he.head?_ne hb.2 r (by rw [htail]; rfl)
    rw [List.cons_append, closeBlock?_cons hnone, ih hb.2 he.tail]
    cases afterDashes? r with
    | some rest => rfl
    | none => simp [Function.comp_def]

/-- Where no later line is dashed the block stays open. -/
theorem closeBlock?_eq_none {cs first : List Char} {ls : List (List Char)}
    (h : Lined cs (first :: ls)) (hls : ∀ l ∈ ls, isClosing l = false) :
    closeBlock? cs = none := by
  induction ls generalizing cs first with
  | nil =>
    cases h with
    | last hl => exact closeBlock?_last hl
    | line hb he hbl hr =>
      cases hr
      rw [closeBlock?_line hb he]
      rfl
  | cons second ls ih =>
    cases h with
    | line hb he hbl hr =>
      rw [List.forall_mem_cons] at hls
      rw [closeBlock?_line hb he, afterDashes?_eq_none hr hls.1]
      simp only [ih hr hls.2, Option.map_none]

/-- The first dashed line after the first line closes the block. -/
theorem closeBlock?_of_isClosing {cs first closing : List Char} {before after : List (List Char)}
    (h : Lined cs (first :: (before ++ closing :: after)))
    (hbefore : ∀ l ∈ before, isClosing l = false) (hclosing : isClosing closing = true) :
    ∃ inside rest, closeBlock? cs = some (inside, rest) ∧
      (lines inside).filterMap entryOfLine? = (first :: before).filterMap entryOfLine? ∧
      Lined rest (closing.drop 3 :: after) := by
  induction before generalizing cs first with
  | nil =>
    cases h with
    | @line b e _ r _ hb he hbl hr =>
      obtain ⟨rest, hrest, hlined⟩ := afterDashes?_of_isClosing hr hclosing
      refine ⟨b, rest, ?_, ?_, hlined⟩
      · rw [closeBlock?_line hb he, hrest]
      · rw [List.filterMap_cons, entryOfLine?_return hbl]
        by_cases hne : b = []
        · rw [hne]
          rfl
        · rw [Text.lines_last hb hne]
          rfl
  | cons second before ih =>
    cases h with
    | @line b e _ r _ hb he hbl hr =>
      rw [List.forall_mem_cons] at hbefore
      obtain ⟨inside, rest, hclose, hentries, hlined⟩ := ih hr hbefore.2
      refine ⟨b ++ (e ++ inside), rest, ?_, ?_, hlined⟩
      · rw [closeBlock?_line hb he, afterDashes?_eq_none hr hbefore.1]
        simp only [hclose, Option.map_some]
      · rw [Text.lines_line hb he, List.filterMap_cons, hentries, List.filterMap_cons (a := first),
          entryOfLine?_return hbl]

/-! ## Frontmatter and body -/

theorem block?_eq (text : List Char) :
    block? text = ((afterDashes? text).bind afterNewline?).bind fun opened =>
      (closeBlock? opened).map fun p => (p.1, (afterNewline? p.2).getD p.2) := by
  simp only [block?, Option.bind_eq_bind, Option.pure_def, Option.bind_assoc]
  refine Option.bind_congr fun _ _ => Option.bind_congr fun opened _ => ?_
  cases closeBlock? opened <;> rfl

theorem block?_of_opens {text rest : List Char} (h : Opens text rest) :
    block? text = (closeBlock? rest).map fun p => (p.1, (afterNewline? p.2).getD p.2) := by
  have hopen : (afterDashes? text).bind afterNewline? = some rest := by
    obtain ⟨e, rfl | ⟨rfl, -⟩, rfl⟩ := h <;> rfl
  rw [block?_eq, hopen, Option.bind_some]

theorem opens_of_block? {text : List Char} {p : List Char × List Char} (h : block? text = some p) :
    ∃ rest, Opens text rest := by
  obtain ⟨opened, hdashes, h⟩ := Option.bind_eq_some_iff.mp h
  obtain ⟨rest, hrest, -⟩ := Option.bind_eq_some_iff.mp h
  rw [afterDashes?_eq_some_iff] at hdashes
  rw [hdashes]
  rcases (afterNewline?_eq_some_iff ..).mp hrest with rfl | rfl
  · exact ⟨rest, ['\n'], .inr ⟨rfl, by decide⟩, rfl⟩
  · exact ⟨rest, ['\r', '\n'], .inl rfl, rfl⟩

/-! ## Lines inside a block and after it -/

/-- The lines of a block of which these are the lines after its opening line. -/
def inside : List (List Char) → List (List Char)
  | [] => []
  | first :: ls => first :: ls.takeWhile (!isClosing ·)

/-- The line that closes the block, and the lines after it. -/
def beyond (ls : List (List Char)) : List (List Char) := ls.tail.dropWhile (!isClosing ·)

theorem inside_append_beyond (ls : List (List Char)) : inside ls ++ beyond ls = ls := by
  cases ls with
  | nil => rfl
  | cons first ls => exact congrArg (first :: ·) List.takeWhile_append_dropWhile

/-- Only the first line of a block may be dashed. -/
theorem not_isClosing_of_mem_inside {ls : List (List Char)} :
    ∀ l ∈ (inside ls).tail, isClosing l = false := by
  cases ls with
  | nil => nofun
  | cons first ls =>
    intro l hl
    simpa using List.all_eq_true.mp List.all_takeWhile l hl

theorem beyond_eq_cons {ls after : List (List Char)} {closing : List Char}
    (h : beyond ls = closing :: after) : isClosing closing = true ∧ ∃ first before,
      inside ls = first :: before ∧ ls = first :: (before ++ closing :: after) := by
  constructor
  · have hnot := List.head?_dropWhile_not (!isClosing ·) ls.tail
    rw [show ls.tail.dropWhile (!isClosing ·) = closing :: after from h] at hnot
    simpa using hnot
  · have hls := inside_append_beyond ls
    rw [h] at hls
    cases ls with
    | nil => cases h
    | cons first ls => exact ⟨first, _, rfl, hls.symm⟩

/-! ## Texts by their lines -/

/-- The text opens no block that it closes. -/
def NoBlock (text : List Char) : Prop := ∀ rest, Opens text rest → closeBlock? rest = none

theorem lines_of_opens {text rest : List Char} (h : Opens text rest) :
    lines text = dashes :: lines rest := by
  obtain ⟨e, he, rfl⟩ := h
  exact Text.lines_line (by decide) he rest

theorem exists_opens {text : List Char} {ls : List (List Char)} (h : Lined text (dashes :: ls))
    (hls : ls ≠ []) : ∃ rest, Opens text rest ∧ Lined rest ls := by
  cases h with
  | last => exact absurd rfl hls
  | @line b e _ r _ hb he hbl hr =>
    rcases hbl with rfl | hbl
    · exact ⟨r, ⟨e, he, rfl⟩, hr⟩
    · have hlast := congrArg List.getLast? hbl
      rw [List.getLast?_concat] at hlast
      exact absurd hlast (by decide)

/-- The first of the lines that a text consists of may hold the CR of its end. -/
theorem Opens.lined {text rest l : List Char} {ls : List (List Char)} (h : Opens text rest)
    (hlined : Lined text (l :: ls)) : (l = dashes ∨ l = dashes ++ ['\r']) ∧ Lined rest ls := by
  obtain ⟨e, he, rfl⟩ := h
  generalize htext : dashes ++ (e ++ rest) = text at hlined
  cases hlined with
  | last hl =>
    rw [← htext] at hl
    exact absurd (List.mem_append_right _ (List.mem_append_left _ he.mem)) hl
  | line hb he' hbl hr =>
    obtain ⟨rfl, rfl, rfl⟩ := Text.line_inj (by decide) he hb he' htext
    exact ⟨hbl, hr⟩

theorem noBlock_of_lined {text : List Char} {ls : List (List Char)} (h : Lined text ls)
    (hls : ∀ l ∈ ls.head?, l = dashes ∨ l = dashes ++ ['\r'] →
      ∀ c ∈ ls.drop 2, isClosing c = false) : NoBlock text := by
  intro rest hopens
  match ls with
  | [] =>
    cases h
    obtain ⟨e, -, htext⟩ := hopens
    cases htext
  | [l] =>
    cases (hopens.lined h).2
    rfl
  | l :: first :: ls =>
    obtain ⟨hl, hrest⟩ := hopens.lined h
    exact closeBlock?_eq_none hrest (hls l rfl hl)

theorem split_of_noBlock {text : List Char} (h : NoBlock text) : split text = (∅, text) := by
  cases hblock : block? text with
  | none => rw [split, hblock]
  | some p =>
    obtain ⟨rest, hopens⟩ := opens_of_block? hblock
    rw [block?_of_opens hopens, h rest hopens] at hblock
    cases hblock

/-- The end of the closing line, if nothing but the dashes is on it, is not part of the body. -/
theorem split_of_isClosing {text first closing : List Char} {before after : List (List Char)}
    (h : Lined text (dashes :: first :: (before ++ closing :: after)))
    (hbefore : ∀ l ∈ before, isClosing l = false) (hclosing : isClosing closing = true) :
    ∃ r, Lined r (closing.drop 3 :: after) ∧
      split text = (ofLines (first :: before), (afterNewline? r).getD r) := by
  obtain ⟨rest, hopens, hrest⟩ := exists_opens h nofun
  obtain ⟨inside, r, hclose, hentries, hlined⟩ := closeBlock?_of_isClosing hrest hbefore hclosing
  refine ⟨r, hlined, ?_⟩
  rw [split, block?_of_opens hopens, hclose]
  simp only [Option.map_some, ofLines_eq, hentries]

end NoteIndex.Frontmatter
