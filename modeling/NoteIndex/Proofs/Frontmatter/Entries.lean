import Mathlib.Data.List.Basic
import NoteIndex.Proofs.Collection.Table
import NoteIndex.Proofs.Frontmatter.Delimiters
import NoteIndex.Proofs.Text.Blank
import NoteIndex.Proofs.Text.Split
import NoteIndex.Value.Written

/-!
# Entries

What a line of a block says, and what its value is, told by how they are written. The entries of a
block are those of its lines in their order; a key that comes again keeps its first place and gets
its last value. Text without a block has no entries and is all body.
-/

namespace NoteIndex.Frontmatter

open Text (lines)

/-! ## Values as they are written -/

/-- The text is `inner` between two quotes of one kind. -/
def Quoted (cs inner : List Char) : Prop := ∃ q, (q = '"' ∨ q = '\'') ∧ cs = q :: (inner ++ [q])

def Bracketed (cs inner : List Char) : Prop := cs = '[' :: (inner ++ [']'])

/-- What is left of an item: its inside, if it is quoted. -/
def Unquoted (item word : List Char) : Prop :=
  Quoted item word ∨ word = item ∧ ∀ inner, ¬Quoted item inner

/-- The text is neither in brackets nor in quotes. -/
def Bare (raw : List Char) : Prop := ∀ inner, ¬Bracketed raw inner ∧ ¬Quoted raw inner

inductive Denotes : List Char → Value → Prop where
  /-- Commas divide the items, which are trimmed and taken out of their quotes; empty ones go. -/
  | list {raw inner : List Char} {items words : List (List Char)} : Bracketed raw inner →
      items ≠ [] → (∀ item ∈ items, ',' ∉ item) → inner = [','].intercalate items →
      List.Forall₂ (fun item word => Unquoted (Text.trim item) word) items words →
      Denotes raw (.list ((words.filter (· ≠ [])).map fun word => .string (String.ofList word)))
  | quoted {raw inner : List Char} : Quoted raw inner → Denotes raw (.string (String.ofList inner))
  | true : Denotes "true".toList (.bool .true)
  | false : Denotes "false".toList (.bool .false)
  | number {raw : List Char} {n : Number} : Bare raw → Number.parseText? raw = some n →
      Denotes raw (.number n)
  | text {raw : List Char} : Bare raw → raw ≠ "true".toList → raw ≠ "false".toList →
      Number.parseText? raw = none → Denotes raw (.string (String.ofList raw))

theorem unquote?_eq_some_iff (cs inner : List Char) :
    unquote? cs = some inner ↔ Quoted cs inner := by
  constructor
  · intro h
    rw [unquote?.eq_def] at h
    split at h
    · rename_i q r
      split at h
      · rename_i hq
        cases h
        obtain ⟨inner, rfl⟩ := List.getLast?_eq_some_iff.mp hq.2
        exact ⟨q, hq.1, by rw [List.dropLast_concat]⟩
      · cases h
    · cases h
  · rintro ⟨q, hq, rfl⟩
    rw [unquote?, if_pos ⟨hq, List.getLast?_concat⟩, List.dropLast_concat]

theorem unquoted_iff (item word : List Char) :
    Unquoted item word ↔ (unquote? item).getD item = word := by
  rw [Unquoted, ← unquote?_eq_some_iff]
  cases h : unquote? item with
  | none =>
    have hnot (inner : List Char) : ¬Quoted item inner := by
      rw [← unquote?_eq_some_iff, h]
      nofun
    simp [hnot, eq_comm]
  | some inner =>
    have hquoted : ¬∀ inner, ¬Quoted item inner := fun hnot =>
      hnot inner ((unquote?_eq_some_iff item inner).mp h)
    simp [hquoted]

theorem listItems_eq {items words : List (List Char)} (hne : items ≠ [])
    (hcomma : ∀ item ∈ items, ',' ∉ item)
    (hwords : List.Forall₂ (fun item word => Unquoted (Text.trim item) word) items words) :
    listItems ([','].intercalate items) =
      (words.filter (· ≠ [])).map fun word => .string (String.ofList word) := by
  rw [listItems, Text.splitOn_intercalate hne hcomma]
  clear hne hcomma
  induction hwords with
  | nil => rfl
  | @cons item word items words hword _ ih =>
    rw [unquoted_iff] at hword
    by_cases hempty : word = []
    · simpa [hword, hempty] using ih
    · simpa [hword, hempty] using ih

theorem forall₂_unquoted (items : List (List Char)) :
    List.Forall₂ (fun item word => Unquoted (Text.trim item) word) items
      (items.map fun item => (unquote? (Text.trim item)).getD (Text.trim item)) := by
  induction items with
  | nil => exact .nil
  | cons item items ih => exact .cons ((unquoted_iff ..).mpr rfl) ih

theorem readValue_of_bracketed {raw inner : List Char} (h : Bracketed raw inner) :
    readValue raw = .list (listItems inner) := by
  rw [h, readValue, if_pos List.getLast?_concat, List.dropLast_concat]

theorem readValue_of_not_bracketed {raw : List Char} (h : ∀ inner, ¬Bracketed raw inner) :
    readValue raw = readValue.plain raw := by
  rw [readValue.eq_def]
  split
  · rename_i r
    split
    · rename_i hlast
      obtain ⟨inner, rfl⟩ := List.getLast?_eq_some_iff.mp hlast
      exact absurd rfl (h inner)
    · rfl
  · rfl

theorem Quoted.not_bracketed {raw inner inner' : List Char} (h : Quoted raw inner) :
    ¬Bracketed raw inner' := by
  obtain ⟨q, rfl | rfl, rfl⟩ := h <;> exact fun h => by cases h

theorem readValue_of_quoted {raw inner : List Char} (h : Quoted raw inner) :
    readValue raw = .string (String.ofList inner) := by
  rw [readValue_of_not_bracketed fun _ => h.not_bracketed, readValue.plain,
    (unquote?_eq_some_iff raw inner).mpr h]

theorem readValue_of_bare {raw : List Char} (h : Bare raw) :
    readValue raw =
      if raw = "true".toList then .bool true
      else if raw = "false".toList then .bool false
      else (Number.parseText? raw).elim (.string (String.ofList raw)) .number := by
  have hunquoted : unquote? raw = none := by
    rw [Option.eq_none_iff_forall_ne_some]
    exact fun inner hinner => (h inner).2 ((unquote?_eq_some_iff raw inner).mp hinner)
  rw [readValue_of_not_bracketed fun inner => (h inner).1]
  simp only [readValue.plain, hunquoted]
  cases Number.parseText? raw <;> rfl

theorem bare_of_head {c : Char} {r : List Char} (hbracket : c ≠ '[') (hdouble : c ≠ '"')
    (hsingle : c ≠ '\'') : Bare (c :: r) := by
  intro inner
  constructor
  · intro h
    exact hbracket (List.cons.inj h).1
  · rintro ⟨q, rfl | rfl, h⟩
    · exact hdouble (List.cons.inj h).1
    · exact hsingle (List.cons.inj h).1

theorem bare_true : Bare "true".toList := bare_of_head (by decide) (by decide) (by decide)

theorem bare_false : Bare "false".toList := bare_of_head (by decide) (by decide) (by decide)

theorem parseText?_true : Number.parseText? "true".toList = none := by decide

theorem parseText?_false : Number.parseText? "false".toList = none := by decide

theorem denotes_readValue (raw : List Char) : Denotes raw (readValue raw) := by
  by_cases hbracketed : ∃ inner, Bracketed raw inner
  · obtain ⟨inner, hinner⟩ := hbracketed
    have hne : Text.splitOn ',' inner ≠ [] := Text.splitOn_ne_nil ',' inner
    have hwords := forall₂_unquoted (Text.splitOn ',' inner)
    have hjoin : inner = [','].intercalate (Text.splitOn ',' inner) :=
      (Text.intercalate_splitOn ',' inner).symm
    rw [readValue_of_bracketed hinner, hjoin, listItems_eq hne Text.not_mem_of_mem_splitOn hwords]
    exact .list hinner hne Text.not_mem_of_mem_splitOn hjoin hwords
  by_cases hquoted : ∃ inner, Quoted raw inner
  · obtain ⟨inner, hinner⟩ := hquoted
    rw [readValue_of_quoted hinner]
    exact .quoted hinner
  have hbare : Bare raw := fun inner => ⟨fun h => hbracketed ⟨inner, h⟩, fun h => hquoted ⟨inner, h⟩⟩
  rw [readValue_of_bare hbare]
  split
  · rename_i htrue
    exact htrue ▸ .true
  split
  · rename_i hfalse
    exact hfalse ▸ .false
  rename_i htrue hfalse
  cases hnumber : Number.parseText? raw with
  | some n => exact .number hbare hnumber
  | none => exact .text hbare htrue hfalse hnumber

/-- A value is read as it is written. -/
theorem denotes_iff (raw : List Char) (v : Value) : Denotes raw v ↔ readValue raw = v := by
  constructor
  · intro h
    cases h with
    | list hbracketed hne hcomma hinner hwords =>
      rw [readValue_of_bracketed hbracketed, hinner, listItems_eq hne hcomma hwords]
    | quoted hquoted => exact readValue_of_quoted hquoted
    | true => rw [readValue_of_bare bare_true, if_pos rfl]
    | false => rw [readValue_of_bare bare_false, if_neg (by decide), if_pos rfl]
    | number hbare hnumber =>
      have htrue : raw ≠ "true".toList := by
        rintro rfl
        cases parseText?_true.symm.trans hnumber
      have hfalse : raw ≠ "false".toList := by
        rintro rfl
        cases parseText?_false.symm.trans hnumber
      rw [readValue_of_bare hbare, if_neg htrue, if_neg hfalse, hnumber, Option.elim_some]
    | text hbare htrue hfalse hnumber =>
      rw [readValue_of_bare hbare, if_neg htrue, if_neg hfalse, hnumber, Option.elim_none]
  · rintro rfl
    exact denotes_readValue raw

/-! ## Lines of a block -/

/-- The line is a key, blanks, a colon and a value. -/
inductive EntryLine : List Char → String → Value → Prop where
  | mk {c : Char} {name gap raw : List Char} {v : Value} : Text.isWordChar c = true →
      (∀ d ∈ name, Text.isWordChar d = true ∨ d = '.' ∨ d = '-') →
      (∀ d ∈ gap, Text.isBlank d = true) → Denotes (Text.trim raw) v →
      EntryLine (c :: (name ++ (gap ++ ':' :: raw))) (String.ofList (c :: name)) v

/-- The lines say this one after another; lines of any other form say nothing. -/
inductive Entries : List (List Char) → List (String × Value) → Prop where
  | nil : Entries [] []
  | entry {l : List Char} {key : String} {v : Value} {ls : List (List Char)}
      {es : List (String × Value)} : EntryLine l key v → Entries ls es →
      Entries (l :: ls) ((key, v) :: es)
  | other {l : List Char} {ls : List (List Char)} {es : List (String × Value)} :
      (∀ key v, ¬EntryLine l key v) → Entries ls es → Entries (l :: ls) es

theorem isKeyChar_iff (c : Char) :
    isKeyChar c = true ↔ Text.isWordChar c = true ∨ c = '.' ∨ c = '-' := by
  simp [isKeyChar, or_assoc]

theorem isKeyChar_of_isBlank {c : Char} (h : Text.isBlank c = true) : isKeyChar c = false := by
  rw [Bool.eq_false_iff, ne_eq, isKeyChar_iff]
  rintro (hword | rfl | rfl)
  · rw [Text.isWordChar_of_isBlank h] at hword
    cases hword
  · exact absurd h (by decide)
  · exact absurd h (by decide)

/-- A key ends where blanks and a colon follow. -/
theorem span_key {name gap : List Char} (hname : ∀ d ∈ name, isKeyChar d = true)
    (hgap : ∀ d ∈ gap, Text.isBlank d = true) (raw : List Char) :
    (name ++ (gap ++ ':' :: raw)).takeWhile isKeyChar = name ∧
      (name ++ (gap ++ ':' :: raw)).dropWhile isKeyChar = gap ++ ':' :: raw := by
  rw [List.takeWhile_append_of_pos hname, List.dropWhile_append_of_pos hname]
  cases gap with
  | nil => exact ⟨List.append_nil name, rfl⟩
  | cons d gap =>
    have hd : isKeyChar d = false := isKeyChar_of_isBlank (hgap d (List.mem_cons_self ..))
    simp [hd]

theorem trimStart_gap {gap : List Char} (hgap : ∀ d ∈ gap, Text.isBlank d = true)
    (raw : List Char) : Text.trimStart (gap ++ ':' :: raw) = ':' :: raw := by
  rw [Text.trimStart, List.dropWhile_append_of_pos hgap]
  rfl

/-- An entry is read as it is written. -/
theorem entryLine_iff (l : List Char) (key : String) (v : Value) :
    EntryLine l key v ↔ readLine? l = some (key, v) := by
  constructor
  · rintro ⟨hc, hname, hgap, hv⟩
    rename_i c name gap raw
    simp only [← isKeyChar_iff] at hname
    obtain ⟨htake, hdrop⟩ := span_key hname hgap raw
    simp only [readLine?, if_pos hc, hdrop, trimStart_gap hgap, htake, (denotes_iff ..).mp hv]
  · intro h
    cases l with
    | nil => cases h
    | cons c r =>
      rw [readLine?] at h
      split at h
      · rename_i hc
        split at h
        · rename_i raw hraw
          cases h
          obtain ⟨gap, hgap, hblank⟩ := Text.trimStart_append (r.dropWhile isKeyChar)
          rw [hraw] at hgap
          have hr : r = r.takeWhile isKeyChar ++ (gap ++ ':' :: raw) := by
            rw [← hgap, List.takeWhile_append_dropWhile]
          have hname := List.all_eq_true.mp (List.all_takeWhile (p := isKeyChar) (l := r))
          simp only [isKeyChar_iff] at hname
          have hentry := EntryLine.mk hc hname hblank (denotes_readValue (Text.trim raw))
          rwa [← hr] at hentry
        · cases h
      · cases h

theorem entries_iff (ls : List (List Char)) (es : List (String × Value)) :
    Entries ls es ↔ es = ls.filterMap readLine? := by
  constructor
  · intro h
    induction h with
    | nil => rfl
    | entry hentry _ ih => rw [List.filterMap_cons, (entryLine_iff ..).mp hentry, ih]
    | @other l _ _ hother _ ih =>
      have hnone : readLine? l = none := by
        rw [Option.eq_none_iff_forall_ne_some]
        exact fun e he => hother e.1 e.2 ((entryLine_iff ..).mpr he)
      rw [List.filterMap_cons, hnone, ih]
  · rintro rfl
    induction ls with
    | nil => exact .nil
    | cons l ls ih =>
      cases hl : readLine? l with
      | none =>
        rw [List.filterMap_cons_none hl]
        refine .other (fun key v hentry => ?_) ih
        rw [(entryLine_iff ..).mp hentry] at hl
        cases hl
      | some e =>
        rw [List.filterMap_cons_some hl]
        exact .entry ((entryLine_iff ..).mpr hl) ih

/-! ## Blocks and other texts -/

theorem filterMap_entryOfLine? {ls : List (List Char)} (h : ∀ l ∈ ls, '\r' ∉ l) :
    ls.filterMap entryOfLine? = ls.filterMap readLine? := by
  refine List.filterMap_congr fun l hl => ?_
  have hall : l.reverse.dropWhile (· == '\r') = l.reverse := by
    cases hr : l.reverse with
    | nil => rfl
    | cons c r =>
      have hc : c ∈ l := List.mem_reverse.mp (hr ▸ List.mem_cons_self ..)
      exact List.dropWhile_cons_of_neg (by simpa using ne_of_mem_of_not_mem hc (h l hl))
  rw [entryOfLine?, dropReturns, hall, List.reverse_reverse]

/-- A text that does not begin with a line of dashes, or has no later line that begins so, is all
body. -/
theorem split_of_no_delimiter {text : List Char}
    (h : (lines text).head? ≠ some dashes ∨ ∀ l ∈ (lines text).tail, ¬dashes <+: l) :
    split text = (∅, text) := by
  refine split_of_noBlock fun rest hopens => ?_
  have hlines := lines_of_opens hopens
  rw [hlines, List.head?_cons, List.tail_cons] at h
  rcases h with h | h
  · exact absurd rfl h
  · cases hrest : lines rest with
    | nil =>
      have hlined := Text.lined_lines rest
      rw [hrest] at hlined
      cases hlined
      rfl
    | cons first ls =>
      -- nothing is asked of the line after the opening one, which never closes the block
      refine closeBlock?_eq_none (hrest ▸ Text.lined_lines rest) fun l hl => ?_
      rw [Bool.eq_false_iff, ne_eq, isClosing_iff]
      exact h l (hrest ▸ List.mem_cons_of_mem first hl)

/-- Lines between dashes are entries one after another, of which a later one of a key replaces the
value and not the place, and the rest is the body. A text that does not begin with a line of dashes,
or has no later line that begins so, is all body. -/
theorem split_of_entry_lines :
    (∀ (ls : List (List Char)) (body : List Char), ls ≠ [] →
      (∀ l ∈ ls, '\n' ∉ l ∧ '\r' ∉ l ∧ ¬dashes <+: l) →
      let joined := (['\n'] : List Char).intercalate ls
      ∃ es front, Entries ls es ∧
        split (dashes ++ '\n' :: (joined ++ '\n' :: (dashes ++ '\n' :: body))) = (front, body) ∧
        front.keys = (es.map Prod.fst).eraseDups ∧
        ∀ key, front.find? key = ((es.filter (·.1 = key)).getLast?).map Prod.snd) ∧
    ∀ text, (lines text).head? ≠ some dashes ∨ (∀ l ∈ (lines text).tail, ¬dashes <+: l) →
      split text = (∅, text) := by
  constructor
  · intro ls body hne hls joined
    have hends : ∀ l ∈ ls, '\n' ∉ l ∧ '\r' ∉ l := fun l hl => ⟨(hls l hl).1, (hls l hl).2.1⟩
    obtain ⟨hwhole, hlines⟩ := Text.whole_intercalate hne hends
    have hcut : ClosesAt (dashes ++ '\n' :: (joined ++ '\n' :: (dashes ++ '\n' :: body))) ['\n']
        (joined ++ ['\n']) ['\n'] body :=
      { eq := by simp
        opening := .inl rfl
        whole := hwhole
        first := by
          rw [hlines]
          exact fun l hl => (hls l hl).2.2
        newline := .inl (.inl rfl) }
    refine ⟨_, _, (entries_iff ls _).mpr rfl, split_of_closesAt hcut (by simp), ?_⟩
    rw [hlines, ofLines_eq, filterMap_entryOfLine? fun l hl => (hls l hl).2.1]
    exact ⟨Table.keys_ofList _, Table.find?_ofList _⟩
  · exact fun text h => split_of_no_delimiter h

/-- A key that comes twice, a line that is no entry, a list and a key of other letters; and a block
that is left open. -/
theorem split_of_entry_lines_twice :
    let ls := ["status: draft", "  - status: none", "tags : [a, \"b c\", , 'd']", "größe.2-x:1e2",
      "status: \"x: y\""].map String.toList
    let body := "# Log\n---\n".toList
    let opened := "---\nstatus: draft\n --- ".toList
    ((ls ≠ [] ∧ ∀ l ∈ ls, '\n' ∉ l ∧ '\r' ∉ l ∧ ¬dashes <+: l) ∧
      ∃ es front, Entries ls es ∧
        split (dashes ++ '\n' :: ((['\n'] : List Char).intercalate ls ++
          '\n' :: (dashes ++ '\n' :: body))) = (front, body) ∧
        front.keys = ["status", "tags", "größe.2-x"] ∧
        (front.find? "status").map Value.text = some "x: y" ∧
        (front.find? "tags").map Value.text = some "a,b c,d" ∧
        (front.find? "größe.2-x").map Value.text = some "100") ∧
      (∀ l ∈ (lines opened).tail, ¬dashes <+: l) ∧ split opened = (∅, opened) := by
  intro ls body opened
  obtain ⟨hblock, hother⟩ := split_of_entry_lines
  have hls : ls ≠ [] ∧ ∀ l ∈ ls, '\n' ∉ l ∧ '\r' ∉ l ∧ ¬dashes <+: l := by decide +kernel
  have hopened : ∀ l ∈ (lines opened).tail, ¬dashes <+: l := by decide
  obtain ⟨es, front, hes, hsplit, hkeys, hfind⟩ := hblock ls body hls.1 hls.2
  have heq := (entries_iff ls es).mp hes
  refine ⟨⟨hls, es, front, hes, hsplit, ?_⟩, hopened, hother opened (.inr hopened)⟩
  rw [hkeys, hfind, hfind, hfind, heq]
  decide +kernel

end NoteIndex.Frontmatter
