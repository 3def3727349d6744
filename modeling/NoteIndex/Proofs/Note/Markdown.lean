import NoteIndex.Note.Markdown
import NoteIndex.Proofs.Note.Tags
import NoteIndex.Record
import NoteIndex.Vault

/-!
# Blocks of a text and the text itself

The blocks of a markdown text hold its lines but for those that are blank and for the marks of
tasks. Joined again they have the words after hash signs that the text has. The frontmatter is that
of the text as long as the lines that open and close its block are those of the text, and no task in
the block is written like an entry.
-/

namespace NoteIndex

namespace Block

open Text (lines Lined)
open Frontmatter (dashes isClosing entryOfLine? inside beyond)

/-! ## What a block holds of a line -/

/-- What a block that is made of the line holds. -/
def contentOfLine (line : List Char) : List Char :=
  match taskMark? (Text.trimStart line) with
  | some (_, content) => content
  | none => line

/-- What the blocks made of the lines hold. -/
def contentsOfLines (ls : List (List Char)) : List (List Char) :=
  (ls.filter fun l => !(Text.trim l).isEmpty).map contentOfLine

@[simp] theorem contentsOfLines_nil : contentsOfLines [] = [] := rfl

theorem content_ofLine (id : String) (l : List Char) :
    (ofLine id l).content.toList = contentOfLine l := by
  unfold ofLine contentOfLine
  split <;> rename_i h <;> simp [h, task, plain]

theorem contents_ofLines (id : String) (n : Nat) (ls : List (List Char)) :
    (ofLines id n ls).map (fun b => b.content.toList) = contentsOfLines ls := by
  induction ls generalizing n with
  | nil => rfl
  | cons l ls ih =>
    rw [ofLines, contentsOfLines, List.filter_cons]
    cases h : (Text.trim l).isEmpty
    · simp [ih, content_ofLine, contentsOfLines]
    · simp [ih, contentsOfLines]

theorem contentsOfLines_append (ls ms : List (List Char)) :
    contentsOfLines (ls ++ ms) = contentsOfLines ls ++ contentsOfLines ms := by
  simp [contentsOfLines]

/-- The mark of a task is a bullet and a box. -/
theorem taskMark?_eq_some {cs content : List Char} {checked : Bool}
    (h : taskMark? cs = some (checked, content)) :
    ∃ bullet mark r, cs = bullet :: ' ' :: '[' :: mark :: ']' :: r ∧ content = Text.trim r ∧
      (bullet = '-' ∨ bullet = '*') ∧ (mark = ' ' ∨ mark = 'x' ∨ mark = 'X') := by
  unfold taskMark? at h
  split at h
  · rename_i bullet mark r
    split at h
    · rename_i hbullet
      split at h
      · rename_i hmark
        cases h
        exact ⟨bullet, mark, r, rfl, rfl, hbullet, .inl hmark⟩
      · split at h
        · rename_i hmark
          cases h
          exact ⟨bullet, mark, r, rfl, rfl, hbullet, .inr hmark⟩
        · cases h
    · cases h
  · cases h

/-- The line begins with the mark of a task, before which there may be blanks. -/
structure MarkedBy (l mark r : List Char) : Prop where
  eq : l = mark ++ r
  hash : '#' ∉ mark
  first : ∀ c ∈ l.head?, Text.isWordChar c = false

theorem taskMark?_trimStart {l content : List Char} {checked : Bool}
    (h : taskMark? (Text.trimStart l) = some (checked, content)) :
    ∃ mark r, MarkedBy l mark r ∧ content = Text.trim r := by
  obtain ⟨bullet, box, r, hstart, hcontent, hbullet, hbox⟩ := taskMark?_eq_some h
  obtain ⟨gap, hl, hgap⟩ := Text.trimStart_append l
  rw [hstart] at hl
  refine ⟨gap ++ [bullet, ' ', '[', box, ']'], r, ⟨?_, ?_, ?_⟩, hcontent⟩
  · simp [hl]
  · intro hhash
    rcases List.mem_append.mp hhash with hhash | hhash
    · exact absurd (hgap '#' hhash) (by decide)
    · rcases hbullet with rfl | rfl <;> rcases hbox with rfl | rfl | rfl <;> revert hhash <;> decide
  · intro c hc
    rw [hl] at hc
    cases gap with
    | nil =>
      cases hc
      rcases hbullet with rfl | rfl <;> decide
    | cons d gap =>
      cases hc
      exact Text.isWordChar_of_isBlank (hgap c (List.mem_cons_self ..))

theorem contentOfLine_cases (l : List Char) : contentOfLine l = l ∨
    ∃ mark r, MarkedBy l mark r ∧ contentOfLine l = Text.trim r := by
  cases h : taskMark? (Text.trimStart l) with
  | none => exact .inl (by rw [contentOfLine, h])
  | some m =>
    obtain ⟨mark, r, hmark, hcontent⟩ := taskMark?_trimStart h
    refine .inr ⟨mark, r, hmark, ?_⟩
    rw [contentOfLine, h]
    exact hcontent

theorem contentOfLine_subset (l : List Char) : contentOfLine l ⊆ l := by
  rcases contentOfLine_cases l with h | ⟨mark, r, hmark, h⟩
  · exact fun c hc => h ▸ hc
  · obtain ⟨before, after, hr, -⟩ := Text.append_trim_append r
    intro c hc
    rw [h] at hc
    rw [hmark.eq, hr]
    simp [hc]

theorem not_mem_of_mem_contents {ls : List (List Char)} (h : ∀ l ∈ ls, '\n' ∉ l) :
    ∀ c ∈ contentsOfLines ls, '\n' ∉ c := by
  intro c hc hlf
  obtain ⟨l, hl, rfl⟩ := List.mem_map.mp hc
  exact h l ((List.mem_filter.mp hl).1) (contentOfLine_subset l hlf)

/-! ## Tags -/

/-- The mark of a task has no hash sign, and trimming leaves the words as they are. -/
theorem hashWords_contentOfLine (l : List Char) :
    Tag.hashWords (contentOfLine l) = Tag.hashWords l := by
  rcases contentOfLine_cases l with h | ⟨mark, r, hmark, h⟩
  · rw [h]
  · rw [h, Tag.hashWords_trim, hmark.eq, Tag.hashWords_append_of_not_mem hmark.hash]

theorem hashWords_blank {l : List Char} (h : Text.trim l = []) : Tag.hashWords l = [] := by
  rw [← Tag.hashWords_trim, h]
  rfl

theorem inline_contentsOfLines (ls : List (List Char)) :
    (contentsOfLines ls).flatMap Tag.inline = ls.flatMap Tag.inline := by
  induction ls with
  | nil => rfl
  | cons l ls ih =>
    rw [contentsOfLines, List.filter_cons, List.flatMap_cons, ← ih]
    by_cases h : Text.trim l = []
    · simp [h, Tag.inline, hashWords_blank h, contentsOfLines]
    · simp [h, Tag.inline, hashWords_contentOfLine, contentsOfLines]

/-! ## Entries -/

theorem entryOfLine?_blank {l : List Char} (h : Text.trim l = []) : entryOfLine? l = none :=
  Frontmatter.entryOfLine?_eq_none fun c hc =>
    Text.isWordChar_of_isBlank (Text.isBlank_of_trim_eq_nil h c (List.mem_of_mem_head? hc))

/-- No task of the lines is written like an entry. -/
def NoTaskEntry (ls : List (List Char)) : Prop :=
  ∀ l ∈ ls, ∀ m ∈ taskMark? (Text.trimStart l), (entryOfLine? m.2).isNone

instance (ls : List (List Char)) : Decidable (NoTaskEntry ls) :=
  inferInstanceAs (Decidable (∀ l ∈ ls, ∀ m ∈ taskMark? (Text.trimStart l),
    (entryOfLine? m.2).isNone))

theorem entryOfLine?_contentOfLine {l : List Char}
    (h : ∀ m ∈ taskMark? (Text.trimStart l), (entryOfLine? m.2).isNone) :
    entryOfLine? (contentOfLine l) = entryOfLine? l := by
  unfold contentOfLine
  split
  · rename_i checked content htask
    obtain ⟨mark, r, hmark, -⟩ := taskMark?_trimStart htask
    rw [Option.isNone_iff_eq_none.mp (h _ htask), Frontmatter.entryOfLine?_eq_none hmark.first]
  · rfl

theorem entries_contentsOfLines {ls : List (List Char)} (h : NoTaskEntry ls) :
    (contentsOfLines ls).filterMap entryOfLine? = ls.filterMap entryOfLine? := by
  induction ls with
  | nil => rfl
  | cons l ls ih =>
    obtain ⟨hl, hls⟩ := List.forall_mem_cons.mp h
    rw [List.filterMap_cons, ← ih hls, contentsOfLines, List.filter_cons]
    by_cases hblank : Text.trim l = []
    · simp [hblank, entryOfLine?_blank hblank, contentsOfLines]
    · simp [hblank, entryOfLine?_contentOfLine hl, contentsOfLines, List.filterMap_cons]

/-! ## The line that closes a block -/

/-- A dashed line is no task and is not blank. -/
theorem contentsOfLines_closing {l : List Char} (h : isClosing l = true) (ls : List (List Char)) :
    contentsOfLines (l :: ls) = l :: contentsOfLines ls := by
  obtain ⟨rest, rfl⟩ := (Frontmatter.isClosing_iff l).mp h
  have hblank : Text.trim (dashes ++ rest) ≠ [] := by
    intro hnil
    exact absurd (Text.isBlank_of_trim_eq_nil hnil '-' (List.mem_cons_self ..)) (by decide)
  have hcontent : contentOfLine (dashes ++ rest) = dashes ++ rest := rfl
  rw [contentsOfLines, List.filter_cons_of_pos (by simp [hblank]), List.map_cons, hcontent,
    contentsOfLines]

/-! ## Where text and blocks open and close the same block -/

/-- The blocks of the text open and close a block of frontmatter where the text does, and have no
entry that the text has not. -/
structure KeepsFrontmatter (text : List Char) : Prop where
  /-- What comes first in the blocks and looks like an opening line is the first line of the text,
  unless nothing after it would close the block. -/
  opening : ∀ c ∈ (contentsOfLines (lines text)).head?, c = dashes ∨ c = dashes ++ ['\r'] →
    (lines text).head? = some dashes ∨
      ∀ d ∈ (contentsOfLines (lines text)).drop 2, isClosing d = false
  /-- No task before the closing line is written like a closing line, but for one that only blank
  lines stand before. -/
  closing : (lines text).head? = some dashes →
    ∀ c ∈ (contentsOfLines (inside (lines text).tail)).tail, isClosing c = false
  entries : (lines text).head? = some dashes → beyond (lines text).tail ≠ [] →
    NoTaskEntry (inside (lines text).tail)
  /-- Where all lines before the closing line are blank, nothing after it would close a block. -/
  filled : (lines text).head? = some dashes → contentsOfLines (inside (lines text).tail) = [] →
    ∀ c ∈ contentsOfLines (beyond (lines text).tail).tail, isClosing c = false

/-- What the blocks of the lines hold, joined as the text of a note. -/
def joined (ls : List (List Char)) : List Char :=
  (['\n'] : List Char).intercalate (contentsOfLines ls)

theorem lined_joined (text : List Char) :
    Lined (joined (lines text)) (contentsOfLines (lines text)) :=
  Text.lined_intercalate (not_mem_of_mem_contents (Text.lined_lines text).not_mem)

/-- Two texts are read alike. -/
def ReadAlike (a b : List Char) : Prop :=
  (Frontmatter.split a).1 = (Frontmatter.split b).1 ∧
    Tag.inline (Frontmatter.split a).2 = Tag.inline (Frontmatter.split b).2

theorem readAlike_of_noBlock {text : List Char} (ht : Frontmatter.NoBlock text)
    (hj : Frontmatter.NoBlock (joined (lines text))) : ReadAlike (joined (lines text)) text := by
  refine ⟨?_, ?_⟩
  · rw [Frontmatter.split_of_noBlock ht, Frontmatter.split_of_noBlock hj]
  · rw [Tag.inline_body_of_noBlock ht (Text.lined_lines text),
      Tag.inline_body_of_noBlock hj (lined_joined text), inline_contentsOfLines]

/-! ### A text that opens with a delimiter -/

section Opened

variable {text closing : List Char} {ls after : List (List Char)}

/-- The delimiter is kept, and so is the order of what is inside the block and what is not. -/
theorem contentsOfLines_opened (hlines : lines text = dashes :: ls) :
    contentsOfLines (lines text) =
      dashes :: (contentsOfLines (inside ls) ++ contentsOfLines (beyond ls)) := by
  rw [hlines, contentsOfLines_closing rfl, ← contentsOfLines_append,
    Frontmatter.inside_append_beyond]

theorem lined_closed (hlines : lines text = dashes :: ls) (hbeyond : beyond ls = closing :: after) :
    Lined text (dashes :: (inside ls ++ closing :: after)) := by
  rw [← hbeyond, Frontmatter.inside_append_beyond, ← hlines]
  exact Text.lined_lines text

theorem lined_joined_closed (hlines : lines text = dashes :: ls)
    (hbeyond : beyond ls = closing :: after) : Lined (joined (lines text))
      (dashes :: (contentsOfLines (inside ls) ++ closing :: contentsOfLines after)) := by
  have hlined := lined_joined text
  rwa [contentsOfLines_opened hlines, hbeyond,
    contentsOfLines_closing (Frontmatter.beyond_eq_cons hbeyond).1] at hlined

end Opened

/-- The block of a text, told by the lines that the text consists of. -/
theorem split_lined {text : List Char} {inner after : List (List Char)} {closing : List Char}
    (hlined : Lined text (dashes :: (inner ++ closing :: after))) (hinner : inner ≠ [])
    (hbefore : ∀ l ∈ inner.tail, isClosing l = false) (hclosing : isClosing closing = true) :
    (Frontmatter.split text).1 = Frontmatter.ofLines inner ∧
      Tag.inline (Frontmatter.split text).2 = (closing :: after).flatMap Tag.inline := by
  cases inner with
  | nil => exact absurd rfl hinner
  | cons first before =>
    obtain ⟨r, -, hsplit⟩ := Frontmatter.split_of_isClosing hlined hbefore hclosing
    exact ⟨by rw [hsplit], Tag.inline_body_of_isClosing hlined hbefore hclosing⟩

namespace KeepsFrontmatter

variable {text : List Char} {ls : List (List Char)}

/-- Where the text opens no block with its first line, what its blocks hold has no block either. -/
theorem readAlike_unopened (h : KeepsFrontmatter text) (hhead : (lines text).head? ≠ some dashes) :
    ReadAlike (joined (lines text)) text := by
  refine readAlike_of_noBlock ?_ (Frontmatter.noBlock_of_lined (lined_joined text) ?_)
  · intro rest hopens
    rw [Frontmatter.lines_of_opens hopens] at hhead
    exact absurd rfl hhead
  · exact fun c hc hopen => (h.opening c hc hopen).resolve_left hhead

/-- Where no line of the text closes its block, nothing in its blocks does. -/
theorem readAlike_unclosed (h : KeepsFrontmatter text) (hlines : lines text = dashes :: ls)
    (hbeyond : beyond ls = []) : ReadAlike (joined (lines text)) text := by
  have hclosing := h.closing
  rw [hlines, List.tail_cons] at hclosing
  have hinside : inside ls = ls := by
    rw [← List.append_nil (inside ls), ← hbeyond, Frontmatter.inside_append_beyond]
  refine readAlike_of_noBlock (Frontmatter.noBlock_of_lined (Text.lined_lines text) ?_)
    (Frontmatter.noBlock_of_lined (lined_joined text) ?_)
  · rw [hlines, ← hinside]
    exact fun _ _ _ => by simpa using Frontmatter.not_isClosing_of_mem_inside
  · rw [contentsOfLines_opened hlines, hbeyond]
    exact fun _ _ _ => by simpa using hclosing rfl

/-- Where a line of the text closes its block, it closes the one that the blocks hold. -/
theorem readAlike_closed (h : KeepsFrontmatter text) {after : List (List Char)}
    {closing : List Char} (hlines : lines text = dashes :: ls)
    (hbeyond : beyond ls = closing :: after) : ReadAlike (joined (lines text)) text := by
  have hentries := h.entries
  have hbefore := h.closing
  have hfilled := h.filled
  rw [hlines, List.tail_cons] at hbefore hentries hfilled
  rw [hbeyond] at hentries hfilled
  obtain ⟨hclosing, first, before, hinside, -⟩ := Frontmatter.beyond_eq_cons hbeyond
  have hjoined := lined_joined_closed hlines hbeyond
  obtain ⟨hfront, hbody⟩ := split_lined (lined_closed hlines hbeyond) (by rw [hinside]; nofun)
    Frontmatter.not_isClosing_of_mem_inside hclosing
  have hsame : Frontmatter.ofLines (contentsOfLines (inside ls)) =
      Frontmatter.ofLines (inside ls) := by
    simp only [Frontmatter.ofLines_eq, entries_contentsOfLines (hentries rfl nofun)]
  have hinline : (closing :: contentsOfLines after).flatMap Tag.inline =
      (closing :: after).flatMap Tag.inline := by
    rw [← contentsOfLines_closing hclosing, inline_contentsOfLines]
  by_cases hblank : contentsOfLines (inside ls) = []
  · -- the closing line comes right after the opening line, so that it closes nothing
    rw [hblank] at hjoined hsame
    have hnone := Frontmatter.noBlock_of_lined hjoined fun _ _ _ => hfilled rfl hblank
    refine ⟨?_, ?_⟩
    · rw [hfront, ← hsame, Frontmatter.split_of_noBlock hnone]
      rfl
    · rw [hbody, ← hinline, Tag.inline_body_of_noBlock hnone hjoined]
      rfl
  · obtain ⟨hfront', hbody'⟩ := split_lined hjoined hblank (hbefore rfl) hclosing
    exact ⟨by rw [hfront', hfront, hsame], by rw [hbody', hbody, hinline]⟩

theorem readAlike (h : KeepsFrontmatter text) : ReadAlike (joined (lines text)) text := by
  by_cases hhead : (lines text).head? = some dashes
  · obtain ⟨ls, hlines⟩ := List.head?_eq_some_iff.mp hhead
    cases hbeyond : beyond ls with
    | nil => exact h.readAlike_unclosed hlines hbeyond
    | cons closing after => exact h.readAlike_closed hlines hbeyond
  · exact h.readAlike_unopened hhead

end KeepsFrontmatter

end Block

/-- The text of a note with blocks is what the blocks hold, joined. -/
theorem Note.text_of_blocks {n : Note} {id : String} {text : List Char}
    (h : n.blocks = Block.ofMarkdown id text) (hne : n.blocks ≠ []) :
    n.text = Block.joined (Text.lines text) := by
  rw [Note.text, if_neg (by simpa using hne), h, Block.ofMarkdown, Block.contents_ofLines,
    Block.joined]

namespace Record

theorem tags_ofNote (n : Note) : (ofNote n).tags = .ofList ((Tag.extract
    (Frontmatter.split n.text).2 (Frontmatter.split n.text).1).map Tag.text) :=
  rfl

/-- A note that is kept as the blocks of a text and one that is kept as the text itself have the
same frontmatter and the same tags. -/
theorem blocks_agree_with_text {n m : Note} {id : String} {text : List Char}
    (hblocks : n.blocks = Block.ofMarkdown id text)
    (hblank : n.blocks = [] → n.content = String.ofList text)
    (hflat : m.blocks = []) (htext : m.content = String.ofList text)
    (h : Block.KeepsFrontmatter text) :
    (ofNote n).frontmatter = (ofNote m).frontmatter ∧ (ofNote n).tags = (ofNote m).tags := by
  have hm : m.text = text := by simp [Note.text, hflat, htext]
  have halike : Block.ReadAlike n.text m.text := by
    by_cases hnil : n.blocks = []
    · have hn : n.text = text := by simp [Note.text, hnil, hblank hnil]
      rw [hn, hm]
      exact ⟨rfl, rfl⟩
    · rw [Note.text_of_blocks hblocks hnil, hm]
      exact h.readAlike
  obtain ⟨hfront, hinline⟩ := halike
  refine ⟨hfront, ?_⟩
  rw [tags_ofNote, tags_ofNote, Tag.extract, Tag.extract, hfront, hinline]

/-- The record of a markdown file has the same frontmatter and tags, be it kept as blocks or not. -/
def BlocksAgree (text : String) : Prop :=
  let n := Note.ofText ["n.md"] ⟨0, 0⟩ ⟨0, 0⟩ text.toList
  (ofNote n).frontmatter = (ofNote { n with blocks := [] }).frontmatter ∧
    (ofNote n).tags = (ofNote { n with blocks := [] }).tags

/-- A blank line and a task between the delimiters, tags after them. -/
theorem blocks_agree_with_text_daily :
    Block.KeepsFrontmatter
        "---\nstatus: open\n\n- [ ] write\n---\n# Day #log\n- [x] ship #b\n".toList ∧
      BlocksAgree "---\nstatus: open\n\n- [ ] write\n---\n# Day #log\n- [x] ship #b\n" := by
  have h : Block.KeepsFrontmatter
      "---\nstatus: open\n\n- [ ] write\n---\n# Day #log\n- [x] ship #b\n".toList :=
    ⟨by decide, by decide, by decide, by decide⟩
  exact ⟨h, blocks_agree_with_text rfl (fun _ => rfl) rfl rfl h⟩

/-- A blank line before the block; a task for an opening line; a CR left at the opening line; a task
for a closing line, in a block and in one that is not closed; a task for an entry; a block of blank
lines before another delimiter. -/
theorem blocks_disagree_with_text :
    ¬ BlocksAgree "\n---\nkey: v\n---\n" ∧ ¬ BlocksAgree "- [ ] ---\nkey: v\n---\n" ∧
      ¬ BlocksAgree "---\r\r\nkey: v\n---\n" ∧
      ¬ BlocksAgree "---\nkey: v\n- [ ] ---\nother: w\n---\n" ∧
      ¬ BlocksAgree "---\nkey: v\n- [ ] ---\n" ∧ ¬ BlocksAgree "---\n- [ ] key: v\n---\n" ∧
      ¬ BlocksAgree "---\n\n---\nkey: v\n---\n" := by
  have hkeys {text : String} (h : BlocksAgree text) := congrArg Table.keys h.1
  exact ⟨fun h => absurd (hkeys h) (by decide), fun h => absurd (hkeys h) (by decide),
    fun h => absurd (hkeys h) (by decide), fun h => absurd (hkeys h) (by decide),
    fun h => absurd (hkeys h) (by decide), fun h => absurd (hkeys h) (by decide),
    fun h => absurd (hkeys h) (by decide)⟩

end Record

end NoteIndex
