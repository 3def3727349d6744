import NoteIndex.Proofs.Note.Tags
import NoteIndex.Proofs.Tag

/-!
# Tags and words of the parts of a text

The tags in a body can be told without reading it from left to right: each hash sign with a word
directly after it makes one, wherever it stands. So a text that is put together line by line has the
tags of its parts and their words, whatever the parts are. A note in blocks is such a text; as long
as no block of frontmatter opens in it, its record has the tags and the words of the single blocks.
-/

namespace NoteIndex

namespace Tag

/-- Somewhere in the body the whole run of tag characters after a hash sign is `word`. -/
def FollowsHash (word body : List Char) : Prop :=
  ∃ before after, body = before ++ '#' :: (word ++ after) ∧ word ≠ [] ∧
    (∀ c ∈ word, isTagChar c = true) ∧ ∀ c ∈ after.head?, isTagChar c = false

/-! ## One hash sign after another -/

theorem hash_not_mem {word : List Char} (h : ∀ c ∈ word, isTagChar c = true) : '#' ∉ word :=
  fun hmem => absurd (h '#' hmem) (by decide)

/-- A word that is being read goes on to the end of its run. -/
theorem hashWordsFrom_some (word r : List Char) : hashWordsFrom (some word) r =
    hashWordsFrom.finish (some ((r.takeWhile isTagChar).reverse ++ word)) ++
      hashWords (r.dropWhile isTagChar) := by
  induction r generalizing word with
  | nil => exact (List.append_nil _).symm
  | cons c r ih =>
    rw [hashWordsFrom]
    split
    · rename_i hc
      rw [ih, List.takeWhile_cons_of_pos hc, List.dropWhile_cons_of_pos hc, List.reverse_cons,
        List.append_assoc, List.singleton_append]
    · rename_i hc
      rw [List.takeWhile_cons_of_neg hc, List.dropWhile_cons_of_neg hc]
      rfl

/-- The run after a hash sign hides no other hash sign. -/
theorem hashWords_hash (r : List Char) : hashWords ('#' :: r) =
    hashWordsFrom.finish (some (r.takeWhile isTagChar).reverse) ++ hashWords r := by
  have hrun : hashWords (r.dropWhile isTagChar) = hashWords r := by
    conv_rhs => rw [← List.takeWhile_append_dropWhile (p := isTagChar) (l := r)]
    exact (hashWords_append_of_not_mem
      (hash_not_mem (List.all_eq_true.mp List.all_takeWhile)) _).symm
  change hashWordsFrom (some []) r = _
  rw [hashWordsFrom_some, hrun, List.append_nil]

theorem hashWords_cons_of_ne {c : Char} (hc : c ≠ '#') (r : List Char) :
    hashWords (c :: r) = hashWords r :=
  hashWords_append_of_not_mem (p := [c]) (by simpa using hc.symm) r

theorem mem_finish_iff (run word : List Char) :
    word ∈ hashWordsFrom.finish (some run.reverse) ↔ word = run ∧ word ≠ [] := by
  cases hrun : run.reverse with
  | nil =>
    rw [List.reverse_eq_nil_iff.mp hrun]
    simp [hashWordsFrom.finish]
  | cons c w =>
    have hne : run ≠ [] := fun hnil => by simp [hnil] at hrun
    rw [hashWordsFrom.finish, ← hrun, List.reverse_reverse, List.mem_singleton]
    exact ⟨fun h => ⟨h, h ▸ hne⟩, And.left⟩

/-! ## The same without positions -/

theorem eq_takeWhile_iff (word r : List Char) : word = r.takeWhile isTagChar ↔
    ∃ after, r = word ++ after ∧ (∀ c ∈ word, isTagChar c = true) ∧
      ∀ c ∈ after.head?, isTagChar c = false := by
  constructor
  · rintro rfl
    refine ⟨r.dropWhile isTagChar, List.takeWhile_append_dropWhile.symm,
      List.all_eq_true.mp List.all_takeWhile, fun c hc => ?_⟩
    have hstop := List.head?_dropWhile_not isTagChar r
    rw [Option.mem_def.mp hc] at hstop
    simpa using hstop
  · rintro ⟨after, rfl, hword, hafter⟩
    rw [List.takeWhile_append_of_pos hword]
    cases after with
    | nil => simp
    | cons c after => simp [hafter c rfl]

theorem followsHash_hash_iff (word r : List Char) : FollowsHash word ('#' :: r) ↔
    (word = r.takeWhile isTagChar ∧ word ≠ []) ∨ FollowsHash word r := by
  rw [eq_takeWhile_iff]
  constructor
  · rintro ⟨before, after, hbody, hne, hword, hafter⟩
    cases before with
    | nil =>
      cases hbody
      exact .inl ⟨⟨after, rfl, hword, hafter⟩, hne⟩
    | cons c before =>
      cases hbody
      exact .inr ⟨before, after, rfl, hne, hword, hafter⟩
  · rintro (⟨⟨after, rfl, hword, hafter⟩, hne⟩ | ⟨before, after, rfl, h⟩)
    · exact ⟨[], after, rfl, hne, hword, hafter⟩
    · exact ⟨'#' :: before, after, rfl, h⟩

theorem followsHash_cons_iff {c : Char} (hc : c ≠ '#') (word r : List Char) :
    FollowsHash word (c :: r) ↔ FollowsHash word r := by
  constructor
  · rintro ⟨before, after, hbody, h⟩
    cases before with
    | nil =>
      cases hbody
      exact absurd rfl hc
    | cons d before =>
      cases hbody
      exact ⟨before, after, rfl, h⟩
  · rintro ⟨before, after, rfl, h⟩
    exact ⟨c :: before, after, rfl, h⟩

theorem mem_hashWords_iff (word body : List Char) :
    word ∈ hashWords body ↔ FollowsHash word body := by
  induction body with
  | nil => exact iff_of_false List.not_mem_nil fun ⟨_, _, h, _⟩ => by simp at h
  | cons c r ih =>
    by_cases hc : c = '#'
    · subst hc
      rw [hashWords_hash, List.mem_append, mem_finish_iff, ih, followsHash_hash_iff]
    · rw [hashWords_cons_of_ne hc, ih, followsHash_cons_iff hc]

/-- Every word after a hash sign makes a tag. -/
theorem normalize_ne_nil {word : List Char} (hne : word ≠ [])
    (h : ∀ c ∈ word, isTagChar c = true) : normalize word ≠ [] := by
  have hblank : ∀ c ∈ word, Text.isBlank c = false := fun c hc => by
    by_contra hblank
    have hgap := isGap_of_isBlank (Bool.not_eq_false _ ▸ hblank)
    simp [isGap_iff, h c hc] at hgap
  have hhead : word.dropWhile (· == '#') = word := by
    cases word with
    | nil => rfl
    | cons c r =>
      refine List.dropWhile_cons_of_neg fun hc => ?_
      exact hash_not_mem h (by simp [eq_of_beq hc])
  rw [normalize_of_not_blank hblank, hhead, Text.lower, ne_eq, Text.lowerFrom_eq_nil_iff]
  exact hne

theorem mem_inline_iff (body : List Char) (t : Tag) :
    t ∈ inline body ↔ ∃ word, FollowsHash word body ∧ t.text.toList = normalize word := by
  simp only [inline, List.mem_filterMap, mem_hashWords_iff, ofChars?_eq_some_iff]
  refine exists_congr fun word => and_congr_right fun h => and_iff_right ?_
  obtain ⟨_, _, _, hne, hword, -⟩ := h
  exact normalize_ne_nil hne hword

/-! ## Parts joined line by line -/

theorem inline_append (a b : List Char) : inline (a ++ '\n' :: b) = inline a ++ inline b := by
  rw [inline, hashWords_append rfl, List.filterMap_append]
  rfl

theorem inline_intercalate (parts : List (List Char)) :
    inline ((['\n'] : List Char).intercalate parts) = parts.flatMap inline := by
  induction parts with
  | nil => rfl
  | cons a parts ih =>
    cases parts with
    | nil => simp
    | cons b parts =>
      rw [List.intercalate_cons_cons, List.append_assoc, List.singleton_append, inline_append, ih]
      rfl

theorem wordCount_intercalate (parts : List (List Char)) :
    Text.wordCount ((['\n'] : List Char).intercalate parts) = (parts.map Text.wordCount).sum := by
  induction parts with
  | nil => rfl
  | cons a parts ih =>
    cases parts with
    | nil => simp
    | cons b parts =>
      rw [List.intercalate_cons_cons, List.append_assoc, List.singleton_append,
        Text.wordCount_append rfl, ih]
      rfl

end Tag

theorem Note.text_of_blocks_ne {n : Note} (h : n.blocks ≠ []) :
    n.text = (['\n'] : List Char).intercalate (n.blocks.map fun b => b.content.toList) := by
  rw [text, if_neg (by simpa using h)]

namespace Record

variable {n : Note}

/-- Without frontmatter all of the text is body. -/
theorem split_of_no_block (h : Frontmatter.block? n.text = none) :
    Frontmatter.split n.text = (∅, n.text) := by
  rw [Frontmatter.split, h]

theorem mem_tags_of_no_block (h : Frontmatter.block? n.text = none) (t : String) :
    t ∈ (ofNote n).tags ↔ ∃ tag ∈ Tag.inline n.text, tag.text = t := by
  simp only [ofNote, split_of_no_block h, Tag.extract, StringSet.mem_ofList, List.mem_map]
  rfl

theorem wordCount_of_no_block (h : Frontmatter.block? n.text = none) :
    (ofNote n).wordCount = Text.wordCount n.text := by
  simp only [ofNote, split_of_no_block h]

/-- A tag stands in a body just if somewhere a hash sign is followed by a word that makes it, up to
the first character that belongs to no tag. So two texts joined by LF have the tags of both and the
words of both, and a note whose blocks open no frontmatter has the tags and the words of its
blocks. -/
theorem tags_of_parts :
    (∀ (body : List Char) (t : Tag), t ∈ Tag.inline body ↔
      ∃ word, Tag.FollowsHash word body ∧ t.text.toList = Tag.normalize word) ∧
    (∀ (a b : List Char) (t : Tag),
      t ∈ Tag.inline (a ++ '\n' :: b) ↔ t ∈ Tag.inline a ∨ t ∈ Tag.inline b) ∧
    (∀ a b : List Char,
      Text.wordCount (a ++ '\n' :: b) = Text.wordCount a + Text.wordCount b) ∧
    ∀ n : Note, n.blocks ≠ [] → Frontmatter.block? n.text = none →
      (∀ t : String, t ∈ (ofNote n).tags ↔
        ∃ b ∈ n.blocks, ∃ tag ∈ Tag.inline b.content.toList, tag.text = t) ∧
      (ofNote n).wordCount = (n.blocks.map fun b => Text.wordCount b.content.toList).sum := by
  refine ⟨Tag.mem_inline_iff, fun a b t => ?_, Text.wordCount_append rfl,
    fun n hne hblock => ⟨fun t => ?_, ?_⟩⟩
  · rw [Tag.inline_append, List.mem_append]
  · simp only [mem_tags_of_no_block hblock, n.text_of_blocks_ne hne, Tag.inline_intercalate,
      List.mem_flatMap, List.mem_map]
    constructor
    · rintro ⟨tag, ⟨_, ⟨b, hb, rfl⟩, htag⟩, ht⟩
      exact ⟨b, hb, tag, htag, ht⟩
    · rintro ⟨b, hb, tag, htag, ht⟩
      exact ⟨tag, ⟨_, ⟨b, hb, rfl⟩, htag⟩, ht⟩
  · rw [wordCount_of_no_block hblock, n.text_of_blocks_ne hne, Tag.wordCount_intercalate,
      List.map_map]
    rfl

/-- Hash signs before, after and in the middle of words, and delimiters that come too late to open
frontmatter. -/
theorem tags_of_parts_daily :
    let n : Note := ⟨"d", "Daily", "", "#aside", [.plain "p" .heading "## Plan ##Café#b-2",
      .task "q" "call\n---\n#ΟΔΟΣ#" false, .plain "r" .divider "---", .plain "s" .text "x_#Y#"],
      ⟨0, 0⟩, ⟨0, 0⟩⟩
    (n.blocks ≠ [] ∧ Frontmatter.block? n.text = none) ∧
      (∀ t, t ∈ (ofNote n).tags ↔ t ∈ ["café", "b-2", "οδος", "y"]) ∧ (ofNote n).wordCount = 8 := by
  intro n
  have hne : n.blocks ≠ [] := nofun
  have hblock : Frontmatter.block? n.text = none := by decide
  obtain ⟨-, -, -, hnote⟩ := tags_of_parts
  obtain ⟨htags, hwords⟩ := hnote n hne hblock
  have hlist : n.blocks.flatMap (fun b => (Tag.inline b.content.toList).map Tag.text) =
      ["café", "b-2", "οδος", "y"] := by
    decide +kernel
  refine ⟨⟨hne, hblock⟩, fun t => ?_, ?_⟩
  · rw [htags, ← hlist]
    simp only [List.mem_flatMap, List.mem_map]
  · rw [hwords]
    decide

end Record

end NoteIndex
