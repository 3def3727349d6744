import NoteIndex.Proofs.Frontmatter

/-!
# Where a block closes

A text that begins with a line `---` is cut at the first later line that begins so: the opening line
with its end, whole lines, three dashes, the end of a line if there is one, and the rest. Where
there are lines between, this is how it is read. Where there are none it is not: the line after the
opening one does not close a block, and what follows is not the body.
-/

namespace NoteIndex.Frontmatter

open Text (lines Ends Whole)

def IsNewline (e : List Char) : Prop := e = ['\n'] ∨ e = ['\r', '\n']

/-- The text opens a block, and after the lines `between`, none of which begins with dashes, comes a
line that does, at whose end `nl`, if right there, the rest begins. -/
structure ClosesAt (text e between nl body : List Char) : Prop where
  eq : text = dashes ++ (e ++ (between ++ (dashes ++ (nl ++ body))))
  opening : IsNewline e
  whole : Whole between
  first : ∀ l ∈ lines between, ¬dashes <+: l
  newline : IsNewline nl ∨ nl = [] ∧ ∀ e r, IsNewline e → body ≠ e ++ r

theorem IsNewline.ends_dashes {e : List Char} (h : IsNewline e) : Ends dashes e := by
  rcases h with rfl | rfl
  · exact .inr ⟨rfl, by decide⟩
  · exact .inl rfl

theorem isNewline_of_ends {l e : List Char} (h : Ends l e) : IsNewline e := by
  rcases h with rfl | ⟨rfl, -⟩
  · exact .inr rfl
  · exact .inl rfl

theorem afterNewline?_append {e : List Char} (h : IsNewline e) (r : List Char) :
    afterNewline? (e ++ r) = some r := by
  rcases h with rfl | rfl <;> rfl

/-- A newline at the head of a text is one of the two. -/
theorem exists_newline (cs : List Char) : ∃ nl body, cs = nl ++ body ∧
    (IsNewline nl ∨ nl = [] ∧ ∀ e r, IsNewline e → body ≠ e ++ r) := by
  by_cases h : ∃ e r, IsNewline e ∧ cs = e ++ r
  · obtain ⟨e, r, he, rfl⟩ := h
    exact ⟨e, r, rfl, .inl he⟩
  · exact ⟨[], cs, rfl, .inr ⟨rfl, fun e r he hcs => h ⟨e, r, he, hcs⟩⟩⟩

theorem body_of_newline {nl body : List Char}
    (h : IsNewline nl ∨ nl = [] ∧ ∀ e r, IsNewline e → body ≠ e ++ r) :
    (afterNewline? (nl ++ body)).getD (nl ++ body) = body := by
  rcases h with h | ⟨rfl, h⟩
  · rw [afterNewline?_append h, Option.getD_some]
  · have hnone : afterNewline? body = none := by
      rw [Option.eq_none_iff_forall_ne_some]
      intro r hr
      rcases (afterNewline?_eq_some_iff body r).mp hr with hr | hr
      · exact h ['\n'] r (.inl rfl) hr
      · exact h ['\r', '\n'] r (.inr rfl) hr
    rw [List.nil_append, hnone, Option.getD_none]

/-! ## Cutting a text at its first delimiter -/

theorem exists_first_closing {cs : List Char} (h : ∃ l ∈ lines cs, dashes <+: l) :
    ∃ between after, cs = between ++ (dashes ++ after) ∧ Whole between ∧
      ∀ l ∈ lines between, ¬dashes <+: l := by
  induction cs using Text.line_induction with
  | last l hl =>
    obtain ⟨l', hmem, after, rfl⟩ := h
    by_cases hne : l = []
    · rw [hne] at hmem
      cases hmem
    · rw [Text.lines_last hl hne, List.mem_singleton] at hmem
      exact ⟨[], after, hmem.symm, .nil, nofun⟩
  | line b e r hb he ih =>
    by_cases hdashes : dashes <+: b
    · obtain ⟨rest, rfl⟩ := hdashes
      exact ⟨[], rest ++ (e ++ r), List.append_assoc .., .nil, nofun⟩
    · obtain ⟨l, hmem, hl⟩ := h
      rw [Text.lines_line hb he, List.mem_cons] at hmem
      have hr : l ∈ lines r := hmem.resolve_left fun hlb => hdashes (hlb ▸ hl)
      obtain ⟨between, after, rfl, hwhole, hfirst⟩ := ih ⟨l, hr, hl⟩
      refine ⟨b ++ (e ++ between), after, by simp only [List.append_assoc], .line hb he hwhole, ?_⟩
      rw [Text.lines_line hb he]
      exact List.forall_mem_cons.mpr ⟨hdashes, hfirst⟩

/-- A text whose first line is dashes and that has a later line of dashes is cut so. -/
theorem exists_closesAt {text : List Char} (hopen : (lines text).head? = some dashes)
    (hclose : ∃ l ∈ (lines text).tail, dashes <+: l) :
    ∃ e between nl body, ClosesAt text e between nl body := by
  obtain ⟨ls, hls⟩ := List.head?_eq_some_iff.mp hopen
  obtain ⟨l, hl, hdashes⟩ := hclose
  rw [hls, List.tail_cons] at hl
  have hlined : Text.Lined text (dashes :: ls) := hls ▸ Text.lined_lines text
  obtain ⟨rest, hopens, -⟩ := exists_opens hlined (List.ne_nil_of_mem hl)
  have hrest : lines rest = ls := by
    have hlines := lines_of_opens hopens
    rw [hls] at hlines
    exact (List.cons.inj hlines).2.symm
  obtain ⟨between, after, hcut, hwhole, hfirst⟩ :=
    exists_first_closing ⟨l, hrest ▸ hl, hdashes⟩
  obtain ⟨nl, body, rfl, hnewline⟩ := exists_newline after
  obtain ⟨e, he, rfl⟩ := hopens
  exact ⟨e, between, nl, body, by rw [hcut], isNewline_of_ends he, hwhole, hfirst, hnewline⟩

/-! ## Reading the block -/

/-- The inside of the block is the lines between without the end of the last, which makes no
difference to the entries. -/
theorem closeBlock?_whole {between : List Char} (hwhole : Whole between)
    (hfirst : ∀ l ∈ lines between, ¬dashes <+: l) (hne : between ≠ []) (after : List Char) :
    ∃ inside, closeBlock? (between ++ (dashes ++ after)) = some (inside, after) ∧
      (lines inside).filterMap entryOfLine? = (lines between).filterMap entryOfLine? := by
  induction hwhole with
  | nil => exact absurd rfl hne
  | @line b e r hb he hr ih =>
    rw [Text.lines_line hb he, List.forall_mem_cons] at hfirst
    rw [List.append_assoc, List.append_assoc, closeBlock?_line hb he, Text.lines_line hb he]
    cases hr with
    | nil =>
      refine ⟨b, rfl, ?_⟩
      by_cases hnil : b = []
      · rw [hnil]
        rfl
      · rw [Text.lines_last hb hnil]
        rfl
    | @line b' e' r' hb' he' hr' =>
      -- the next line is not dashed, so the block goes on
      have hlined := Text.lined_lines (b' ++ (e' ++ r') ++ (dashes ++ after))
      rw [(Whole.line hb' he' hr').lines_append, Text.lines_line hb' he', List.cons_append] at hlined
      have hnot : isClosing b' = false := by
        rw [Bool.eq_false_iff, ne_eq, isClosing_iff]
        exact hfirst.2 b' (by rw [Text.lines_line hb' he']; exact List.mem_cons_self ..)
      have hsome : b' ++ (e' ++ r') ≠ [] := by
        rcases he' with rfl | ⟨rfl, -⟩ <;> simp
      obtain ⟨inside, hinside, hentries⟩ := ih hfirst.2 hsome
      rw [afterDashes?_eq_none hlined hnot]
      refine ⟨b ++ (e ++ inside), by simp only [hinside, Option.map_some], ?_⟩
      rw [Text.lines_line hb he, List.filterMap_cons, hentries, List.filterMap_cons]

theorem split_of_closesAt {text e between nl body : List Char}
    (h : ClosesAt text e between nl body) (hne : between ≠ []) :
    split text = (ofLines (lines between), body) := by
  obtain ⟨inside, hclose, hentries⟩ := closeBlock?_whole h.whole h.first hne (nl ++ body)
  rw [split, block?_of_opens ⟨e, h.opening.ends_dashes, h.eq⟩, hclose]
  simp only [Option.map_some, body_of_newline h.newline, ofLines_eq, hentries]

/-! ## A delimiter in the second line -/

/-- The closing delimiter is dashes after the end of a line. -/
theorem eq_of_closeBlock? {cs inside rest : List Char} (h : closeBlock? cs = some (inside, rest)) :
    ∃ e, IsNewline e ∧ cs = inside ++ (e ++ (dashes ++ rest)) := by
  induction cs generalizing inside with
  | nil => cases h
  | cons c r ih =>
    rw [closeBlock?] at h
    split at h
    · rename_i closed hclosed
      cases h
      obtain ⟨opened, hnewline, hdashes⟩ := Option.bind_eq_some_iff.mp hclosed
      rw [afterDashes?_eq_some_iff] at hdashes
      rcases (afterNewline?_eq_some_iff ..).mp hnewline with hcs | hcs
      · exact ⟨['\n'], .inl rfl, by rw [hcs, hdashes]; rfl⟩
      · exact ⟨['\r', '\n'], .inr rfl, by rw [hcs, hdashes]; rfl⟩
    · obtain ⟨⟨inside', rest'⟩, hr, hp⟩ := Option.map_eq_some_iff.mp h
      cases hp
      obtain ⟨e, he, rfl⟩ := ih hr
      exact ⟨e, he, rfl⟩

/-- Dashes at the head do not close the block, as no end of a line is left before them. -/
theorem closeBlock?_dashes (cs : List Char) :
    closeBlock? (dashes ++ cs) = (closeBlock? cs).map fun p => (dashes ++ p.1, p.2) := by
  have hstep (r : List Char) :
      closeBlock? ('-' :: r) = (closeBlock? r).map fun p => ('-' :: p.1, p.2) := closeBlock?_cons rfl
  rw [dashes, List.cons_append, List.cons_append, List.cons_append, List.nil_append, hstep, hstep,
    hstep]
  cases closeBlock? cs <;> rfl

theorem length_body_le (cs : List Char) : ((afterNewline? cs).getD cs).length ≤ cs.length := by
  cases h : afterNewline? cs with
  | none => exact Nat.le_refl _
  | some r =>
    rw [Option.getD_some]
    rcases (afterNewline?_eq_some_iff cs r).mp h with rfl | rfl
    · exact Nat.le_succ _
    · exact Nat.le_add_right _ 2

/-- Where the second line is dashed, the body is all of the text or begins after a later line. -/
theorem body_ne_of_dashes {text e nl body : List Char} (h : ClosesAt text e [] nl body) :
    (split text).2 ≠ body := by
  have hblock := block?_of_opens ⟨e, h.opening.ends_dashes, h.eq⟩
  rw [List.nil_append, closeBlock?_dashes] at hblock
  have hnl : nl.length ≤ 2 := by
    rcases h.newline with (rfl | rfl) | ⟨rfl, -⟩ <;> decide
  rw [split, hblock]
  -- without a later delimiter the body is too long, with one it is too short
  cases hclose : closeBlock? (nl ++ body) with
  | none =>
    intro hbody
    have hlength := congrArg List.length (h.eq.symm.trans hbody)
    simp [dashes] at hlength
    omega
  | some p =>
    obtain ⟨inside, rest⟩ := p
    obtain ⟨e', he', hcs⟩ := eq_of_closeBlock? hclose
    intro hbody
    have hrest := length_body_le rest
    have he' : 0 < e'.length := by rcases he' with rfl | rfl <;> decide
    have hlength := congrArg List.length hcs
    simp only [Option.map_some] at hbody
    rw [hbody] at hrest
    simp [dashes] at hlength
    omega

/-! ## Main statement -/

/-- Every text with a first line of dashes and a later line that begins so is cut at the first such
line. The block ends with the dashes of that line, has its entries from the lines between, and
leaves to the body all that comes after them and the end of their line, unless that line is the
second. -/
theorem split_at_first_delimiter_iff {text : List Char} (hopen : (lines text).head? = some dashes)
    (hclose : ∃ l ∈ (lines text).tail, dashes <+: l) :
    (∃ e between nl body, ClosesAt text e between nl body) ∧
    ∀ e between nl body, ClosesAt text e between nl body →
      (split text = (ofLines (lines between), body) ↔ between ≠ []) := by
  refine ⟨exists_closesAt hopen hclose, fun e between nl body h => ⟨?_, split_of_closesAt h⟩⟩
  rintro hsplit rfl
  exact body_ne_of_dashes h (congrArg Prod.snd hsplit)

/-- Neither a blank line before the delimiter is lost nor one after it, and a later line of dashes
is text. -/
theorem split_at_first_delimiter_blank :
    let text := "---\r\n\r\n---\n\n# Log\n---\nrest".toList
    let between := ['\r', '\n']
    let body := "\n# Log\n---\nrest".toList
    ((lines text).head? = some dashes ∧ ∃ l ∈ (lines text).tail, dashes <+: l) ∧
      ClosesAt text ['\r', '\n'] between ['\n'] body ∧
      split text = (ofLines (lines between), body) := by
  intro text between body
  have hopen : (lines text).head? = some dashes := by decide
  have hclose : ∃ l ∈ (lines text).tail, dashes <+: l := by decide
  have hcut : ClosesAt text ['\r', '\n'] between ['\n'] body :=
    ⟨by decide, .inr rfl, .line List.not_mem_nil (.inl rfl) .nil, by decide, .inl (.inl rfl)⟩
  exact ⟨⟨hopen, hclose⟩, hcut,
    ((split_at_first_delimiter_iff hopen hclose).2 _ _ _ _ hcut).mpr (by decide)⟩

/-- A block without lines takes in the text after it, up to the next line of dashes. -/
theorem empty_block_takes_in_text :
    let text := "---\n---\nfirst\n---\nsecond".toList
    let body := "first\n---\nsecond".toList
    ((lines text).head? = some dashes ∧ ∃ l ∈ (lines text).tail, dashes <+: l) ∧
      ClosesAt text ['\n'] [] ['\n'] body ∧ split text ≠ (ofLines (lines []), body) ∧
      (split text).2 = "second".toList := by
  intro text body
  have hcut : ClosesAt text ['\n'] [] ['\n'] body :=
    ⟨by decide, .inl rfl, .nil, by decide, .inl (.inl rfl)⟩
  refine ⟨by decide, hcut, fun hsplit => ?_, by decide⟩
  exact body_ne_of_dashes hcut (congrArg Prod.snd hsplit)

end NoteIndex.Frontmatter
