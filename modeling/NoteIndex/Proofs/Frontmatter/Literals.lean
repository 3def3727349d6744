import NoteIndex.Index.Reading
import NoteIndex.Proofs.Index.InStep
import NoteIndex.Proofs.Query.Literal

/-!
# Entries found by their literals

The text after a key and a literal of a query are read by different readers. They agree on text
outside brackets, and on lists of words that are neither truth values nor numbers, without quotes
and brackets in them. A note is then found by its last line for a key: looking for the literal that
this line shows finds the record.
-/

namespace NoteIndex

open Text (Trimmed)

/-! ## Lists of words -/

namespace Query

/-- Without quotes and brackets every comma is an outer one. -/
theorem splitTop_eq_splitOn {cs : List Char}
    (h : ∀ c ∈ cs, isQuote c = false ∧ c ≠ '[' ∧ c ≠ ']') :
    splitTop .outside cs = Text.splitOn ',' cs := by
  induction cs with
  | nil => rfl
  | cons c r ih =>
    obtain ⟨⟨hquote, hopen, hclose⟩, hr⟩ := List.forall_mem_cons.mp h
    by_cases hcomma : c = ','
    · subst hcomma
      rw [splitTop_comma, ih hr]
      rfl
    · have hstep : Nesting.outside.step c = .outside := Nesting.step_plain hquote hopen hclose 0
      rw [splitTop_cons hstep (absurd · hcomma), ih hr, Text.splitOn, if_neg hcomma]
      cases hsplit : Text.splitOn ',' r with
      | nil => exact absurd hsplit (Text.splitOn_ne_nil ',' r)
      | cons p ps => rfl

end Query

namespace Frontmatter

/-- The inside of a list of words, none of them a truth value or a number. -/
structure BareWords (inner : List Char) : Prop where
  plain : ∀ c ∈ inner, Query.isQuote c = false ∧ c ≠ '[' ∧ c ≠ ']'
  word : ∀ item ∈ (Text.splitOn ',' inner).map Text.trim,
    item ≠ "true".toList ∧ item ≠ "false".toList ∧ Number.parseText? item = none

/-- If the text is in brackets, then it is a list of words. -/
def Simple (raw : List Char) : Prop := ∀ inner, Bracketed raw inner → BareWords inner

theorem bare_of_plain {cs : List Char}
    (h : ∀ c ∈ cs, Query.isQuote c = false ∧ c ≠ '[' ∧ c ≠ ']') : Bare cs := by
  intro inner
  constructor
  · intro hbracketed
    have hmem : '[' ∈ cs := hbracketed ▸ List.mem_cons_self
    exact (h '[' hmem).2.1 rfl
  · rintro ⟨q, hq, hquoted⟩
    have hmem : q ∈ cs := hquoted ▸ List.mem_cons_self
    have hquote : Query.isQuote q = true := by
      rcases hq with rfl | rfl <;> rfl
    rw [(h q hmem).1] at hquote
    cases hquote

namespace BareWords

variable {inner item : List Char}

theorem bare (h : BareWords inner) (hitem : item ∈ (Text.splitOn ',' inner).map Text.trim) :
    Bare item := by
  obtain ⟨piece, hpiece, rfl⟩ := List.mem_map.mp hitem
  apply bare_of_plain
  intro c hc
  exact h.plain c (Text.subset_of_mem_splitOn piece hpiece ((Text.trim_sublist piece).subset hc))

theorem readValue_eq (h : BareWords inner)
    (hitem : item ∈ (Text.splitOn ',' inner).map Text.trim) :
    readValue item = .string (String.ofList item) := by
  obtain ⟨htrue, hfalse, hnumber⟩ := h.word item hitem
  rw [readValue_of_bare (h.bare hitem), if_neg htrue, if_neg hfalse, hnumber, Option.elim_none]

/-- The items are the words as they stand, and empty ones go. -/
theorem listItems_eq_map (h : BareWords inner) :
    listItems inner = (((Text.splitOn ',' inner).map Text.trim).filter fun p => !p.isEmpty).map
      fun item => .string (String.ofList item) := by
  have hitems : ((Text.splitOn ',' inner).map fun item =>
      (unquote? (Text.trim item)).getD (Text.trim item)) =
        (Text.splitOn ',' inner).map Text.trim := by
    refine List.map_congr_left fun item hitem => ?_
    have hbare : Bare (Text.trim item) := h.bare (List.mem_map_of_mem hitem)
    exact (unquoted_iff _ _).mp (.inr ⟨rfl, fun inner => (hbare inner).2⟩)
  rw [listItems, hitems]
  generalize (Text.splitOn ',' inner).map Text.trim = items
  induction items with
  | nil => rfl
  | cons item items ih => cases item <;> simpa using ih

end BareWords

/-- Both readers give the same value. -/
theorem readValue_eq_literal {raw : List Char} (ht : Trimmed raw) (h : Simple raw) :
    readValue raw = Query.literal raw := by
  by_cases hbracketed : ∃ inner, Bracketed raw inner
  · obtain ⟨inner, hinner⟩ := hbracketed
    have hwords : BareWords inner := h inner hinner
    have hlength : raw.length = (inner.length + 1) + 1 := by
      rw [hinner, List.length_cons, List.length_append, List.length_singleton]
    rw [readValue_of_bracketed hinner, Query.literal, Query.literalWithin_of_bracketed hinner,
      Query.splitTop_eq_splitOn hwords.plain, hwords.listItems_eq_map, hlength]
    congr 1
    refine List.map_congr_left fun item hitem => ?_
    have hword := List.mem_of_mem_filter hitem
    have htrimmed : Trimmed item := by
      obtain ⟨piece, -, rfl⟩ := List.mem_map.mp hword
      exact Text.trimmed_trim piece
    rw [Query.literalWithin_of_not_bracketed htrimmed fun inner => (hwords.bare hword inner).1,
      hwords.readValue_eq hword]
  · rw [not_exists] at hbracketed
    exact (Query.literalWithin_of_not_bracketed ht hbracketed _).symm

/-! ## The last line of a key -/

/-- The line is the key, a colon and the text, with blanks around the colon and behind. -/
inductive KeyLine : List Char → String → List Char → Prop where
  | mk {c : Char} {name gap rest : List Char} : Text.isWordChar c = true →
      (∀ d ∈ name, Text.isWordChar d = true ∨ d = '.' ∨ d = '-') →
      (∀ d ∈ gap, Text.isBlank d = true) →
      KeyLine (c :: (name ++ (gap ++ ':' :: rest))) (String.ofList (c :: name)) (Text.trim rest)

theorem entryLine_iff_keyLine (l : List Char) (key : String) (v : Value) :
    EntryLine l key v ↔ ∃ raw, KeyLine l key raw ∧ readValue raw = v := by
  constructor
  · rintro ⟨hc, hname, hgap, hv⟩
    exact ⟨_, .mk hc hname hgap, (denotes_iff _ _).mp hv⟩
  · rintro ⟨_, ⟨hc, hname, hgap⟩, rfl⟩
    exact .mk hc hname hgap (denotes_readValue _)

theorem trim_concat {c : Char} (hc : Text.isBlank c = true) (cs : List Char) :
    Text.trim (cs ++ [c]) = Text.trim cs := by
  rw [Text.trim, Text.trimStart, List.dropWhile_append]
  split
  · rename_i hempty
    have hnil : Text.trimStart cs = [] := List.isEmpty_iff.mp hempty
    rw [Text.trim, hnil, List.dropWhile_cons_of_pos hc]
    rfl
  · rw [Text.trimEnd, List.reverse_concat, List.dropWhile_cons_of_pos hc]
    rfl

theorem keyLine_return (b : List Char) (key : String) (raw : List Char) :
    KeyLine (b ++ ['\r']) key raw ↔ KeyLine b key raw := by
  constructor
  · intro h
    generalize hl : b ++ ['\r'] = l at h
    cases h with
    | @mk c name gap rest hc hname hgap =>
      rcases List.eq_nil_or_concat' rest with rfl | ⟨rest, d, rfl⟩
      · have hconcat : b ++ ['\r'] = c :: (name ++ gap) ++ [':'] := by
          simpa using hl
        obtain ⟨-, hcolon⟩ := List.append_inj' hconcat rfl
        exact absurd hcolon (by decide)
      · have hconcat : b ++ ['\r'] = c :: (name ++ (gap ++ ':' :: rest)) ++ [d] := by
          simpa using hl
        obtain ⟨rfl, hd⟩ := List.append_inj' hconcat rfl
        obtain rfl : '\r' = d := List.singleton_inj.mp hd
        rw [trim_concat (by decide)]
        exact .mk hc hname hgap
  · rintro ⟨hc, hname, hgap⟩
    rename_i c name gap rest
    have hline := @KeyLine.mk c name gap (rest ++ ['\r']) hc hname hgap
    rw [trim_concat (by decide)] at hline
    simpa using hline

/-- It makes no difference to a line that CRs at its end are dropped. -/
theorem entryOfLine?_eq (l : List Char) : entryOfLine? l = readLine? l := by
  induction l using List.reverseRecOn with
  | nil => rfl
  | append_singleton b c ih =>
    by_cases hc : c = '\r'
    · subst hc
      rw [entryOfLine?_return (.inr rfl), ih]
      refine Option.ext fun e => ?_
      rw [← entryLine_iff, ← entryLine_iff, entryLine_iff_keyLine, entryLine_iff_keyLine]
      simp only [keyLine_return]
    · simp [entryOfLine?, dropReturns, hc]

theorem entryOfLine?_eq_some_iff (l : List Char) (key : String) (v : Value) :
    entryOfLine? l = some (key, v) ↔ ∃ raw, KeyLine l key raw ∧ readValue raw = v := by
  rw [entryOfLine?_eq, ← entryLine_iff, entryLine_iff_keyLine]

/-- Of the lines that begin with the key and a colon, the last one has the text after it. -/
def LastLine (lines : List (List Char)) (key : String) (raw : List Char) : Prop :=
  ∃ before l after, lines = before ++ l :: after ∧ KeyLine l key raw ∧
    ∀ m ∈ after, ∀ r, ¬KeyLine m key r

theorem find?_ofLines {lines : List (List Char)} {key : String} {raw : List Char}
    (h : LastLine lines key raw) : (ofLines lines).find? key = some (readValue raw) := by
  obtain ⟨before, l, after, rfl, hl, hafter⟩ := h
  have hentry : entryOfLine? l = some (key, readValue raw) :=
    (entryOfLine?_eq_some_iff _ _ _).mpr ⟨raw, hl, rfl⟩
  have hnone : (after.filterMap entryOfLine?).filter (·.1 = key) = [] := by
    simp only [List.filter_eq_nil_iff, List.mem_filterMap, decide_eq_true_eq]
    rintro ⟨k, v⟩ ⟨m, hm, hmv⟩ rfl
    obtain ⟨r, hr, -⟩ := (entryOfLine?_eq_some_iff m k v).mp hmv
    exact hafter m hm r hr
  rw [ofLines_eq, Table.find?_ofList, List.filterMap_append, List.filterMap_cons_some hentry,
    List.filter_append, List.filter_cons_of_pos (by simp), hnone, List.getLast?_concat,
    Option.map_some]

/-! ## Finding the record -/

theorem sameItems_strings (ss : List String) :
    Value.sameItems (ss.map .string) (ss.map .string) = true := by
  induction ss with
  | nil => rfl
  | cons s ss ih => simp [Value.sameItems, Value.same, ih]

theorem equals_self {n : Number} (h : n ≠ .notANumber) : n.equals n = true := by
  obtain ⟨x, hx⟩ : ∃ x, n.position = some x := by
    cases n with
    | notANumber => exact absurd rfl h
    | _ => exact ⟨_, rfl⟩
  rw [Number.equals, hx]
  exact beq_self_eq_true x

/-- A value that is read is the same as itself, for it is not the one that is no number. -/
theorem same_readValue (raw : List Char) : (readValue raw).same (readValue raw) = true := by
  have hdenotes := denotes_readValue raw
  generalize readValue raw = v at hdenotes
  cases hdenotes with
  | @list _ _ _ words =>
    have hstrings := sameItems_strings ((words.filter (· ≠ [])).map String.ofList)
    rw [List.map_map] at hstrings
    exact hstrings
  | number _ hn =>
    rw [Value.same]
    exact equals_self (Number.ne_notANumber_of_parseText? hn)
  | _ => simp [Value.same]

theorem find?_ofNote {n : Note} {inside body : List Char} {key : String} {raw : List Char}
    (hblock : block? n.text = some (inside, body)) (h : LastLine (Text.lines inside) key raw) :
    (Record.ofNote n).frontmatter.find? key = some (readValue raw) := by
  have hfront : (Record.ofNote n).frontmatter = ofLines (Text.lines inside) := by
    rw [Record.ofNote, split, hblock]
  rw [hfront, find?_ofLines h]

/-- Text outside brackets and lists of words are read alike behind a key and in a query. So whatever
index a note's record is in, the record is found by the literal that the last line for a key
shows. -/
theorem withEntry_literal :
    (∀ raw, Trimmed raw → Simple raw → readValue raw = Query.literal raw) ∧
      ∀ (n : Note) (x : Index) (inside body : List Char) (key : String) (raw : List Char),
        block? n.text = some (inside, body) → LastLine (Text.lines inside) key raw →
        Simple raw → Record.ofNote n ∈ x.records.values →
        Record.ofNote n ∈ x.withEntry key (Query.parseValue (String.ofList raw)) := by
  constructor
  · intro raw ht h
    exact readValue_eq_literal ht h
  · intro n x inside body key raw hblock hlast h hn
    have ht : Trimmed raw := by
      obtain ⟨_, _, _, -, ⟨⟩, -⟩ := hlast
      exact Text.trimmed_trim _
    have hvalue : Query.parseValue (String.ofList raw) = readValue raw := by
      rw [Query.parseValue, String.toList_ofList, readValue_eq_literal ht h]
    rw [Index.withEntry, List.mem_filter, find?_ofNote hblock hlast, hvalue]
    exact ⟨hn, same_readValue raw⟩

/-- An item that is empty and two that look like numbers, behind a key that had a number before;
and a quote alone. -/
theorem withEntry_literal_lookalikes :
    let words := "a b, , nan, 1_0".toList
    let raw := '[' :: (words ++ [']'])
    let inside := "kind: 1\nkind : [a b, , nan, 1_0]\nmark: \"".toList
    let n : Note := ⟨"a", "Alpha", "a",
      "---\nkind: 1\nkind : [a b, , nan, 1_0]\nmark: \"\n---\nbody", [], ⟨0, 0⟩, ⟨0, 0⟩⟩
    (Trimmed ['"'] ∧ Simple ['"'] ∧ readValue ['"'] = Query.literal ['"']) ∧
      block? n.text = some (inside, "body".toList) ∧ LastLine (Text.lines inside) "kind" raw ∧
      Simple raw ∧ Record.ofNote n ∈ (Index.ofNotes [n]).records.values ∧
      Record.ofNote n ∈ (Index.ofNotes [n]).withEntry "kind"
        (Query.parseValue "[a b, , nan, 1_0]") := by
  intro words raw inside n
  obtain ⟨hread, hfound⟩ := withEntry_literal
  have htrimmed : Trimmed ['"'] := Text.trimmed_trim ['"']
  have hquote : Simple ['"'] := fun inner h => by cases h
  have hblock : block? n.text = some (inside, "body".toList) := by decide
  have hlines : Text.lines inside =
      ["kind: 1".toList] ++ "kind : [a b, , nan, 1_0]".toList :: ["mark: \"".toList] := by
    decide
  have hline : KeyLine "kind : [a b, , nan, 1_0]".toList "kind" raw :=
    @KeyLine.mk 'k' "ind".toList [' '] " [a b, , nan, 1_0]".toList (by decide)
      (List.all_iff_forall_prop.mp (by decide)) (List.all_iff_forall_prop.mp (by decide))
  have hother : ∀ m ∈ ["mark: \"".toList], ∀ r, ¬KeyLine m "kind" r := by
    intro m hm r hr
    have hkey : (entryOfLine? "mark: \"".toList).map Prod.fst ≠ some "kind" := by decide
    rw [List.mem_singleton.mp hm] at hr
    rw [(entryOfLine?_eq_some_iff _ _ _).mpr ⟨r, hr, rfl⟩] at hkey
    exact hkey rfl
  have hlast : LastLine (Text.lines inside) "kind" raw :=
    ⟨_, _, _, hlines, hline, hother⟩
  have hwords : Simple raw := by
    intro inner h
    obtain rfl : words = inner := List.append_cancel_right (List.cons.inj h).2
    exact ⟨List.all_iff_forall_prop.mp (by decide), by decide⟩
  have hmem : Record.ofNote n ∈ (Index.ofNotes [n]).records.values := by
    rw [← Keyed.find?_key_iff]
    exact Keyed.find?_add _ _ _
  exact ⟨⟨htrimmed, hquote, hread _ htrimmed hquote⟩, hblock, hlast, hwords, hmem,
    hfound n _ inside _ "kind" raw hblock hlast hwords hmem⟩

end Frontmatter

end NoteIndex
