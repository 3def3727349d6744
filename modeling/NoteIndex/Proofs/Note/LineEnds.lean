import NoteIndex.Note.Markdown
import NoteIndex.Proofs.Frontmatter.Delimiters
import NoteIndex.Proofs.Note.Tags

/-!
# Line ends

A text with CRLF for each LF is the same note. Its lines are the same, so that its blocks and the
entries of its frontmatter are; its body is the other body with CRLF for each LF, which has the same
tags and the same number of words. Nothing is said of links, whose targets may go over a line end.
-/

namespace NoteIndex

namespace Text

/-- The text with CRLF for each LF. -/
def crlf (cs : List Char) : List Char := cs.flatMap fun c => if c = '\n' then ['\r', '\n'] else [c]

@[simp] theorem crlf_nil : crlf [] = [] := rfl

@[simp] theorem crlf_newline (r : List Char) : crlf ('\n' :: r) = '\r' :: '\n' :: crlf r := rfl

theorem crlf_cons {c : Char} (h : c ≠ '\n') (r : List Char) : crlf (c :: r) = c :: crlf r := by
  simp [crlf, h]

theorem crlf_append (a b : List Char) : crlf (a ++ b) = crlf a ++ crlf b := List.flatMap_append

theorem crlf_of_not_mem {l : List Char} (h : '\n' ∉ l) : crlf l = l := by
  induction l with
  | nil => rfl
  | cons c l ih =>
    rw [List.mem_cons, not_or] at h
    rw [crlf_cons (Ne.symm h.1), ih h.2]

/-- A line that ends with LF ends with CRLF. -/
theorem crlf_line {b : List Char} (h : '\n' ∉ b) (r : List Char) :
    crlf (b ++ (['\n'] ++ r)) = b ++ (['\r', '\n'] ++ crlf r) := by
  rw [crlf_append, crlf_of_not_mem h, crlf_append]
  rfl

/-- Induction over a text without CR by its lines. -/
theorem lf_induction {P : List Char → Prop} (last : ∀ l, '\n' ∉ l → P l)
    (line : ∀ b r, '\n' ∉ b → Ends b ['\n'] → '\r' ∉ r → P r → P (b ++ (['\n'] ++ r)))
    {cs : List Char} (h : '\r' ∉ cs) : P cs := by
  induction cs using line_induction with
  | last l hl => exact last l hl
  | line b e r hb he ih =>
    simp only [List.mem_append, not_or] at h
    rcases id he with rfl | ⟨rfl, -⟩
    · exact absurd (List.mem_cons_self ..) h.2.1
    · exact line b r hb he h.2.2 (ih h.2.2)

theorem lines_crlf {cs : List Char} (h : '\r' ∉ cs) : lines (crlf cs) = lines cs := by
  apply lf_induction ?last ?line h
  case last =>
    intro l hl
    rw [crlf_of_not_mem hl]
  case line =>
    intro b r hb he _ ih
    rw [crlf_line hb, lines_line hb (.inl rfl), lines_line hb he, ih]

/-- Whether or not a word may begin, CR before LF is one more blank. -/
theorem countWords_crlf (fresh : Bool) (cs : List Char) :
    countWords fresh (crlf cs) = countWords fresh cs := by
  induction cs generalizing fresh with
  | nil => rfl
  | cons c r ih =>
    by_cases hc : c = '\n'
    · subst hc
      exact ih true
    · simp only [crlf_cons hc, countWords, ih]

theorem wordCount_crlf (cs : List Char) : wordCount (crlf cs) = wordCount cs :=
  countWords_crlf true cs

end Text

namespace Tag

open Text (crlf)

/-- CR and LF are gaps between words, as LF alone is. -/
theorem hashWordsFrom_crlf (word : Option (List Char)) (cs : List Char) :
    hashWordsFrom word (crlf cs) = hashWordsFrom word cs := by
  induction cs generalizing word with
  | nil => rfl
  | cons c r ih =>
    by_cases hc : c = '\n'
    · subst hc
      rw [Text.crlf_newline, hashWordsFrom_gap rfl, hashWords_cons rfl, hashWordsFrom_gap rfl,
        hashWords, ih, hashWords]
    · rw [Text.crlf_cons hc]
      cases word <;> simp only [hashWordsFrom, ih]

theorem extract_crlf (body : List Char) (front : Frontmatter) :
    extract (crlf body) front = extract body front := by
  simp only [extract, inline, hashWords, hashWordsFrom_crlf]

end Tag

namespace Frontmatter

open Text (crlf lines)

theorem prefix_crlf_iff {p : List Char} (hreturn : '\r' ∉ p) (hnewline : '\n' ∉ p)
    (cs : List Char) : p <+: crlf cs ↔ p <+: cs := by
  induction p generalizing cs with
  | nil => simp
  | cons x p ih =>
    rw [List.mem_cons, not_or] at hreturn hnewline
    cases cs with
    | nil => simp
    | cons c r =>
      by_cases hc : c = '\n'
      · simp [hc, Ne.symm hreturn.1, Ne.symm hnewline.1]
      · simp [Text.crlf_cons hc, ih hreturn.2 hnewline.2]

theorem afterDashes?_crlf (cs : List Char) :
    afterDashes? (crlf cs) = (afterDashes? cs).map crlf := by
  cases h : afterDashes? cs with
  | some rest =>
    rw [(afterDashes?_eq_some_iff cs rest).mp h]
    rfl
  | none =>
    rw [Option.map_none, Option.eq_none_iff_forall_ne_some]
    intro rest hrest
    have hprefix : dashes <+: crlf cs :=
      ⟨rest, ((afterDashes?_eq_some_iff _ _).mp hrest).symm⟩
    obtain ⟨rest', hcs⟩ := (prefix_crlf_iff (by decide) (by decide) cs).mp hprefix
    rw [(afterDashes?_eq_some_iff cs rest').mpr hcs.symm] at h
    cases h

theorem afterNewline?_crlf {cs : List Char} (h : '\r' ∉ cs) :
    afterNewline? (crlf cs) = (afterNewline? cs).map crlf := by
  cases cs with
  | nil => rfl
  | cons c r =>
    rw [List.mem_cons, not_or] at h
    by_cases hc : c = '\n'
    · subst hc
      rfl
    · have hnone (r : List Char) : afterNewline? (c :: r) = none := by
        rw [Option.eq_none_iff_forall_ne_some]
        intro rest hrest
        rcases (afterNewline?_eq_some_iff _ _).mp hrest with hcs | hcs
        · exact hc (List.cons.inj hcs).1
        · exact h.1 (List.cons.inj hcs).1.symm
      rw [Text.crlf_cons hc, hnone, hnone, Option.map_none]

theorem closeBlock?_crlf {cs : List Char} (h : '\r' ∉ cs) :
    closeBlock? (crlf cs) = (closeBlock? cs).map fun p => (crlf p.1, crlf p.2) := by
  apply Text.lf_induction ?last ?line h
  case last =>
    intro l hl
    rw [Text.crlf_of_not_mem hl, closeBlock?_last hl, Option.map_none]
  case line =>
    intro b r hb he _ ih
    rw [Text.crlf_line hb, closeBlock?_line hb (.inl rfl), closeBlock?_line hb he,
      afterDashes?_crlf, ih]
    cases afterDashes? r with
    | some rest => simp [Text.crlf_of_not_mem hb]
    | none => simp [Function.comp_def, Text.crlf_append, Text.crlf_of_not_mem hb]

/-- The block closes at the same line end, and of what it is cut into each piece is the other one
with CRLF. -/
theorem block?_crlf {text : List Char} (h : '\r' ∉ text) :
    block? (crlf text) = (block? text).map fun p => (crlf p.1, crlf p.2) := by
  rw [block?_eq, block?_eq, afterDashes?_crlf]
  cases hopened : afterDashes? text with
  | none => rfl
  | some opened =>
    rw [afterDashes?_eq_some_iff] at hopened
    subst hopened
    have hopened : '\r' ∉ opened := fun hmem => h (List.mem_append_right _ hmem)
    rw [Option.map_some, Option.bind_some, Option.bind_some, afterNewline?_crlf hopened]
    cases hrest : afterNewline? opened with
    | none => rfl
    | some rest =>
      obtain rfl | rfl := (afterNewline?_eq_some_iff _ _).mp hrest
      · rw [List.mem_cons, not_or] at hopened
        rw [Option.map_some, Option.bind_some, Option.bind_some, closeBlock?_crlf hopened.2]
        cases hclose : closeBlock? rest with
        | none => rfl
        | some p =>
          obtain ⟨inside, after⟩ := p
          obtain ⟨e, -, rfl⟩ := eq_of_closeBlock? hclose
          simp only [List.mem_append, not_or] at hopened
          rw [Option.map_some, Option.map_some, Option.map_some, afterNewline?_crlf hopened.2.2.2.2]
          cases afterNewline? after <;> rfl
      · exact absurd (List.mem_cons_self ..) hopened

theorem inside_subset {text inside body : List Char} (h : block? text = some (inside, body)) :
    inside ⊆ text := by
  obtain ⟨rest, hopens⟩ := opens_of_block? h
  rw [block?_of_opens hopens] at h
  obtain ⟨⟨inside, after⟩, hclose, ⟨⟩⟩ := Option.map_eq_some_iff.mp h
  obtain ⟨e, -, rfl⟩ := hopens
  obtain ⟨e', -, rfl⟩ := eq_of_closeBlock? hclose
  intro c hc
  simp [hc]

theorem split_crlf {text : List Char} (h : '\r' ∉ text) :
    split (crlf text) = ((split text).1, crlf (split text).2) := by
  rw [split, split, block?_crlf h]
  cases hblock : block? text with
  | none => rfl
  | some p =>
    obtain ⟨inside, body⟩ := p
    have hinside : '\r' ∉ inside := fun hmem => h (inside_subset hblock hmem)
    simp only [Option.map_some, Text.lines_crlf hinside]

end Frontmatter

open Frontmatter (split)
open Text (crlf wordCount)

/-- With CRLF for each LF a text has the same entries in the same order, the same tags, the same
number of words and the same blocks, and its body is the other body with CRLF for each LF. -/
theorem Note.line_ends_agree {text : List Char} (h : '\r' ∉ text) :
    (split (crlf text)).1 = (split text).1 ∧ (split (crlf text)).2 = crlf (split text).2 ∧
      (∀ front, Tag.extract (split (crlf text)).2 front = Tag.extract (split text).2 front) ∧
      wordCount (split (crlf text)).2 = wordCount (split text).2 ∧
      ∀ id, Block.ofMarkdown id (crlf text) = Block.ofMarkdown id text := by
  have hsplit := Frontmatter.split_crlf h
  refine ⟨by rw [hsplit], by rw [hsplit], ?_, ?_, ?_⟩
  · intro front
    rw [hsplit, Tag.extract_crlf]
  · rw [hsplit, Text.wordCount_crlf]
  · intro id
    rw [Block.ofMarkdown, Block.ofMarkdown, Text.lines_crlf h]

/-- A blank line and a line of dashes in the body, a tag and a task at the end of a line, and a last
line that has no end. -/
theorem Note.line_ends_agree_tasks :
    let text := "---\nstatus: open\ntags: [a, b]\n---\n\n- [x] call #c\n---\nend".toList
    '\r' ∉ text ∧ (split (crlf text)).1.keys = ["status", "tags"] ∧
      (split (crlf text)).2 = "\r\n- [x] call #c\r\n---\r\nend".toList ∧
      Tag.extract (split (crlf text)).2 ∅ = [⟨"c"⟩] ∧ wordCount (split (crlf text)).2 = 6 ∧
      ((Block.ofMarkdown "n" (crlf text)).drop 4).map Block.content = ["call #c", "---", "end"] := by
  intro text
  have h : '\r' ∉ text := by decide
  obtain ⟨hfront, hbody, htags, hwords, hblocks⟩ := Note.line_ends_agree h
  refine ⟨h, ?_, ?_, ?_, ?_, ?_⟩
  · rw [hfront]
    decide
  · rw [hbody]
    decide
  · rw [htags]
    decide
  · rw [hwords]
    decide
  · rw [hblocks]
    decide

end NoteIndex
