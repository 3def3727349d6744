import NoteIndex.Proofs.Frontmatter.Entries
import NoteIndex.Proofs.Number
import NoteIndex.Proofs.Query.Where
import NoteIndex.Proofs.Text.Lowercase

/-!
# Literals written out

A value made up of strings without a double quote, truth values and lists of such can be written as
a literal, and the literal is read as that value. Three readers go over it, each with its own count
of brackets and quotes: one looks for the end of a list, one cuts the list at its commas, and one
takes the strings out of their quotes. They agree since what is written has its brackets in pairs.
-/

namespace NoteIndex.Query

open Frontmatter (Bracketed Quoted readValue)
open Text (Trimmed)

/-! ## Cutting a list at its commas -/

theorem splitTop_ne_nil (n : Nesting) (cs : List Char) : splitTop n cs ≠ [] := by
  cases cs with
  | nil => simp [splitTop]
  | cons c r =>
    rw [splitTop]
    split
    · simp
    · split <;> simp

theorem splitTop_comma (r : List Char) :
    splitTop .outside (',' :: r) = [] :: splitTop .outside r := if_pos ⟨rfl, rfl⟩

/-- A character that is no comma, or not an outer one, goes to the first piece. -/
theorem splitTop_cons {n m : Nesting} {c : Char} (hstep : n.step c = m)
    (h : c = ',' → n ≠ .outside) (r : List Char) :
    splitTop n (c :: r) = (splitTop m r).modifyHead (c :: ·) := by
  subst hstep
  rw [splitTop, if_neg fun hc => h hc.1 hc.2]
  cases hr : splitTop (n.step c) r with
  | nil => exact absurd hr (splitTop_ne_nil _ r)
  | cons p ps => rfl

theorem splitTop_quoted {q : Char} {inner : List Char} (h : q ∉ inner) (d : Nat) (r : List Char) :
    splitTop ⟨d, some q⟩ (inner ++ q :: r) =
      (splitTop ⟨d, none⟩ r).modifyHead fun p => inner ++ q :: p := by
  induction inner with
  | nil => exact splitTop_cons (Nesting.step_unquote q d) (fun _ => by simp [Nesting.outside]) r
  | cons c inner ih =>
    rw [List.mem_cons, not_or] at h
    rw [List.cons_append, splitTop_cons (Nesting.step_quoted (Ne.symm h.1) d)
      (fun _ => by simp [Nesting.outside]), ih h.2, List.modifyHead_modifyHead]
    rfl

theorem modifyHead_nil_append (pieces : List (List Char)) :
    pieces.modifyHead ([] ++ ·) = pieces := by
  cases pieces <;> rfl

/-- Balanced text within brackets goes to the first piece as a whole. -/
theorem splitTop_balanced {cs : List Char} (h : Balanced cs) (d : Nat) (r : List Char) :
    splitTop ⟨d + 1, none⟩ (cs ++ r) = (splitTop ⟨d + 1, none⟩ r).modifyHead (cs ++ ·) := by
  have hinside (d : Nat) (c : Char) : c = ',' → Nesting.mk (d + 1) none ≠ .outside :=
    fun _ => by simp [Nesting.outside]
  induction h generalizing d r with
  | nil => exact (modifyHead_nil_append _).symm
  | plain hquote hopen hclose _ ih =>
    rw [List.cons_append, splitTop_cons (Nesting.step_plain hquote hopen hclose _) (hinside d _), ih,
      List.modifyHead_modifyHead]
    rfl
  | quoted hq hinner _ ih =>
    rw [List.cons_append, List.append_assoc, List.cons_append,
      splitTop_cons (Nesting.step_quote hq _) (hinside d _), splitTop_quoted hinner, ih,
      List.modifyHead_modifyHead, List.modifyHead_modifyHead]
    simp [Function.comp_def]
  | nested _ _ ihinner ih =>
    rw [List.cons_append, List.append_assoc, List.cons_append,
      splitTop_cons (Nesting.step_open _) (hinside d _), ihinner,
      splitTop_cons (Nesting.step_close _) (hinside (d + 1) _), ih, List.modifyHead_modifyHead,
      List.modifyHead_modifyHead, List.modifyHead_modifyHead]
    simp [Function.comp_def]

/-- The text has no outer comma, so that no cut goes through it. -/
def Uncut (cs : List Char) : Prop :=
  ∀ r, splitTop .outside (cs ++ r) = (splitTop .outside r).modifyHead (cs ++ ·)

theorem uncut_quoted {q : Char} {inner : List Char} (hq : isQuote q = true) (h : q ∉ inner) :
    Uncut (q :: (inner ++ [q])) := by
  intro r
  have hcomma : q ≠ ',' := by
    rintro rfl
    cases hq
  rw [Nesting.outside, List.cons_append, List.append_assoc, List.singleton_append,
    splitTop_cons (Nesting.step_quote hq 0) (absurd · hcomma), splitTop_quoted h,
    List.modifyHead_modifyHead]
  simp [Function.comp_def]

theorem uncut_bracketed {inner : List Char} (h : Balanced inner) :
    Uncut ('[' :: (inner ++ [']'])) := by
  intro r
  rw [Nesting.outside, List.cons_append, List.append_assoc, List.singleton_append,
    splitTop_cons (Nesting.step_open 0) (by decide), splitTop_balanced h,
    splitTop_cons (Nesting.step_close 0) (by decide), List.modifyHead_modifyHead,
    List.modifyHead_modifyHead]
  simp [Function.comp_def]

theorem uncut_word {cs : List Char}
    (h : ∀ c ∈ cs, isQuote c = false ∧ c ≠ '[' ∧ c ≠ ']' ∧ c ≠ ',') : Uncut cs := by
  intro r
  induction cs with
  | nil => exact (modifyHead_nil_append _).symm
  | cons c cs ih =>
    obtain ⟨⟨hquote, hopen, hclose, hcomma⟩, hcs⟩ := List.forall_mem_cons.mp h
    have hstep : Nesting.outside.step c = .outside := Nesting.step_plain hquote hopen hclose 0
    rw [List.cons_append, splitTop_cons hstep (absurd · hcomma), ih hcs, List.modifyHead_modifyHead]
    rfl

/-- Texts joined by commas and blanks are cut at just these commas. -/
theorem splitTop_intercalate {t : List Char} {ts : List (List Char)}
    (h : ∀ s ∈ t :: ts, Uncut s) :
    splitTop .outside ([',', ' '].intercalate (t :: ts)) = t :: ts.map (' ' :: ·) := by
  induction ts generalizing t with
  | nil =>
    have ht := h t (List.mem_singleton_self t) []
    rw [List.append_nil] at ht
    rw [List.intercalate_singleton, ht]
    simp [splitTop]
  | cons u ts ih =>
    obtain ⟨ht, hts⟩ := List.forall_mem_cons.mp h
    have hblank (r : List Char) :
        splitTop .outside (' ' :: r) = (splitTop .outside r).modifyHead (' ' :: ·) :=
      splitTop_cons rfl (by decide) r
    rw [List.intercalate_cons_cons, List.append_assoc, ht, List.cons_append, List.cons_append,
      List.nil_append, splitTop_comma, hblank, ih hts]
    simp

/-! ## Reading a literal -/

theorem unquote?_eq (cs : List Char) : unquote? cs = Frontmatter.unquote? cs := by
  cases cs <;> simp [unquote?, Frontmatter.unquote?, isQuote]

theorem unbracket?_eq_some_iff (cs inner : List Char) :
    unbracket? cs = some inner ↔ Bracketed cs inner := by
  constructor
  · intro h
    rw [unbracket?.eq_def] at h
    split at h
    · split at h
      · rename_i hlast
        cases h
        obtain ⟨inner, rfl⟩ := List.getLast?_eq_some_iff.mp hlast
        rw [List.dropLast_concat]
        rfl
      · cases h
    · cases h
  · rintro rfl
    rw [unbracket?, if_pos List.getLast?_concat, List.dropLast_concat]

theorem trimmed_enclosed {first last : Char} (hfirst : Text.isBlank first = false)
    (hlast : Text.isBlank last = false) (inner : List Char) :
    Trimmed (first :: (inner ++ [last])) := by
  constructor
  · simpa using hfirst
  · simpa [List.getLast?_cons] using hlast

/-- No number has a bracket in it. -/
theorem parseText?_bracketed {cs inner : List Char} (h : Bracketed cs inner) :
    Number.parseText? cs = none := by
  have hforeign : Number.Foreign '[' := by decide
  exact hforeign.parseText?_eq (by rw [h]; exact List.mem_cons_self)

/-- A list is read piece by piece. -/
theorem literalWithin_of_bracketed {cs inner : List Char} (h : Bracketed cs inner) (fuel : Nat) :
    literalWithin (fuel + 1) cs =
      .list ((((splitTop .outside inner).map Text.trim).filter fun p => !p.isEmpty).map
        (literalWithin fuel)) := by
  have htrim : Text.trim cs = cs := by
    rw [h]
    exact (trimmed_enclosed (by decide) (by decide) inner).trim_eq
  have hquoted : unquote? cs = none := by
    rw [Option.eq_none_iff_forall_ne_some]
    intro inner' hinner
    rw [unquote?_eq, Frontmatter.unquote?_eq_some_iff] at hinner
    exact hinner.not_bracketed h
  have hbare : cs ≠ "true".toList ∧ cs ≠ "false".toList := by
    rw [h]
    exact ⟨by simp, by simp⟩
  simp only [literalWithin, htrim, hquoted, if_neg hbare.1, if_neg hbare.2,
    parseText?_bracketed h, (unbracket?_eq_some_iff cs inner).mpr h]

/-- Any other literal is read as the value of an entry is. -/
theorem literalWithin_of_not_bracketed {cs : List Char} (ht : Trimmed cs)
    (h : ∀ inner, ¬Bracketed cs inner) (fuel : Nat) :
    literalWithin (fuel + 1) cs = readValue cs := by
  have hunbracket : unbracket? cs = none := by
    rw [Option.eq_none_iff_forall_ne_some]
    exact fun inner hinner => h inner ((unbracket?_eq_some_iff cs inner).mp hinner)
  rw [Frontmatter.readValue_of_not_bracketed h]
  cases hquoted : Frontmatter.unquote? cs with
  | some inner => simp only [literalWithin, ht.trim_eq, unquote?_eq, hquoted, readValue.plain]
  | none =>
    cases hnumber : Number.parseText? cs with
    | some n =>
      simp only [literalWithin, ht.trim_eq, unquote?_eq, hquoted, hnumber, readValue.plain]
    | none =>
      simp only [literalWithin, ht.trim_eq, unquote?_eq, hquoted, hnumber, hunbracket,
        readValue.plain]

/-! ## Writing a literal -/

mutual

/-- A value as a literal: strings in double quotes, lists in brackets, anything else bare. -/
def spell : Value → List Char
  | .string s => '"' :: (s.toList ++ ['"'])
  | .list items => '[' :: ([',', ' '].intercalate (spellItems items) ++ [']'])
  | v => v.text.toList

def spellItems : List Value → List (List Char)
  | [] => []
  | v :: r => spell v :: spellItems r

end

theorem spellItems_eq (items : List Value) : spellItems items = items.map spell := by
  induction items with
  | nil => rfl
  | cons v items ih => rw [spellItems, ih, List.map_cons]

/-- The value is made up of strings without a double quote, truth values and lists of such. -/
inductive Quotable : Value → Prop where
  | string {s : String} : '"' ∉ s.toList → Quotable (.string s)
  | bool (b : Bool) : Quotable (.bool b)
  | list {items : List Value} : (∀ v ∈ items, Quotable v) → Quotable (.list items)

theorem Balanced.word {cs : List Char}
    (h : ∀ c ∈ cs, isQuote c = false ∧ c ≠ '[' ∧ c ≠ ']') : Balanced cs := by
  induction cs with
  | nil => exact .nil
  | cons c cs ih =>
    obtain ⟨⟨hquote, hopen, hclose⟩, hcs⟩ := List.forall_mem_cons.mp h
    exact .plain hquote hopen hclose (ih hcs)

theorem Balanced.append {a b : List Char} (ha : Balanced a) (hb : Balanced b) :
    Balanced (a ++ b) := by
  induction ha with
  | nil => exact hb
  | plain hquote hopen hclose _ ih => exact .plain hquote hopen hclose ih
  | quoted hq hinner _ ih =>
    rw [List.cons_append, List.append_assoc]
    exact .quoted hq hinner ih
  | nested hinner _ _ ih =>
    rw [List.cons_append, List.append_assoc]
    exact .nested hinner ih

theorem Balanced.intercalate {ts : List (List Char)} (h : ∀ t ∈ ts, Balanced t) :
    Balanced ([',', ' '].intercalate ts) := by
  induction ts with
  | nil => exact .nil
  | cons t ts ih =>
    obtain ⟨ht, hts⟩ := List.forall_mem_cons.mp h
    cases ts with
    | nil => rwa [List.intercalate_singleton]
    | cons u ts =>
      have hsep : Balanced [',', ' '] :=
        .plain (by decide) (by decide) (by decide) (.plain (by decide) (by decide) (by decide) .nil)
      rw [List.intercalate_cons_cons, List.append_assoc]
      exact ht.append (hsep.append (ih hts))

theorem spell_true : spell (.bool true) = ['t', 'r', 'u', 'e'] := rfl

theorem spell_false : spell (.bool false) = ['f', 'a', 'l', 's', 'e'] := rfl

namespace Quotable

theorem balanced_spell {v : Value} (h : Quotable v) : Balanced (spell v) := by
  induction h with
  | string hs => exact .quoted rfl hs .nil
  | bool b =>
    cases b
    · exact .word (by simp [spell_false, isQuote])
    · exact .word (by simp [spell_true, isQuote])
  | @list items _ ih =>
    refine .nested (.intercalate ?_) .nil
    rw [spellItems_eq]
    exact List.forall_mem_map.mpr ih

theorem uncut_spell {v : Value} (h : Quotable v) : Uncut (spell v) := by
  cases h with
  | string hs => exact uncut_quoted rfl hs
  | bool b =>
    cases b
    · exact uncut_word (by simp [spell_false, isQuote])
    · exact uncut_word (by simp [spell_true, isQuote])
  | list hitems =>
    refine uncut_bracketed (.intercalate ?_)
    rw [spellItems_eq]
    exact List.forall_mem_map.mpr fun v hv => (hitems v hv).balanced_spell

theorem trimmed_spell {v : Value} (h : Quotable v) : Trimmed (spell v) := by
  cases h with
  | string => exact trimmed_enclosed (by decide) (by decide) _
  | bool b =>
    cases b
    · exact trimmed_enclosed (by decide) (by decide) ['a', 'l', 's']
    · exact trimmed_enclosed (by decide) (by decide) ['r', 'u']
  | list => exact trimmed_enclosed (by decide) (by decide) _

theorem spell_ne {v : Value} (h : Quotable v) : spell v ≠ [] := by
  cases h with
  | bool b => cases b <;> exact List.cons_ne_nil _ _
  | _ => exact List.cons_ne_nil _ _

end Quotable

/-- The pieces of a list are its items as they are written. -/
theorem pieces_spellItems {items : List Value} (h : ∀ v ∈ items, Quotable v) :
    ((splitTop .outside ([',', ' '].intercalate (spellItems items))).map Text.trim).filter
      (fun p => !p.isEmpty) = spellItems items := by
  rw [spellItems_eq]
  cases items with
  | nil => rfl
  | cons v items =>
    have huncut : ∀ s ∈ (v :: items).map spell, Uncut s :=
      List.forall_mem_map.mpr fun w hw => (h w hw).uncut_spell
    have htrim (w : Value) (hw : w ∈ v :: items) : Text.trim (spell w) = spell w :=
      (h w hw).trimmed_spell.trim_eq
    have htrims : (items.map spell).map (Text.trim ∘ (' ' :: ·)) = items.map spell := by
      rw [List.map_map]
      refine List.map_congr_left fun w hw => ?_
      exact htrim w (List.mem_cons_of_mem v hw)
    rw [List.map_cons, splitTop_intercalate huncut, List.map_cons, List.map_map, htrims,
      htrim v List.mem_cons_self, ← List.map_cons, List.filter_eq_self]
    refine List.forall_mem_map.mpr fun w hw => ?_
    simpa using (h w hw).spell_ne

theorem length_le_intercalate {sep t : List Char} {ts : List (List Char)} (h : t ∈ ts) :
    t.length ≤ (sep.intercalate ts).length := by
  induction ts with
  | nil => cases h
  | cons u ts ih =>
    cases ts with
    | nil =>
      rw [List.mem_singleton.mp h, List.intercalate_singleton]
    | cons w ts =>
      rw [List.intercalate_cons_cons, List.length_append, List.length_append]
      rcases List.mem_cons.mp h with rfl | h
      · omega
      · have hrest := ih h
        omega

/-- With enough fuel for its depth a value is read from the literal that it is written as. -/
theorem Quotable.literalWithin_spell {v : Value} (h : Quotable v) {fuel : Nat}
    (hfuel : (spell v).length < fuel) : literalWithin fuel (spell v) = v := by
  induction h generalizing fuel with
  | @string s hs =>
    obtain ⟨fuel, rfl⟩ := Nat.exists_eq_add_one_of_ne_zero (Nat.ne_zero_of_lt hfuel)
    have hquoted : Quoted (spell (.string s)) s.toList := ⟨'"', .inl rfl, rfl⟩
    rw [literalWithin_of_not_bracketed (Quotable.string hs).trimmed_spell
      fun _ => hquoted.not_bracketed, Frontmatter.readValue_of_quoted hquoted, String.ofList_toList]
  | bool b =>
    obtain ⟨fuel, rfl⟩ := Nat.exists_eq_add_one_of_ne_zero (Nat.ne_zero_of_lt hfuel)
    have hbare : Frontmatter.Bare (spell (.bool b)) := by
      cases b
      · exact Frontmatter.bare_false
      · exact Frontmatter.bare_true
    rw [literalWithin_of_not_bracketed (Quotable.bool b).trimmed_spell fun inner => (hbare inner).1,
      Frontmatter.readValue_of_bare hbare]
    cases b <;> rfl
  | @list items hitems ih =>
    obtain ⟨fuel, rfl⟩ := Nat.exists_eq_add_one_of_ne_zero (Nat.ne_zero_of_lt hfuel)
    have hlist : Bracketed (spell (.list items)) ([',', ' '].intercalate (spellItems items)) := rfl
    rw [literalWithin_of_bracketed hlist, pieces_spellItems hitems, spellItems_eq, List.map_map]
    congr 1
    refine (List.map_congr_left fun v hv => ?_).trans (List.map_id items)
    refine ih v hv ?_
    have hlength : (spell v).length ≤ ([',', ' '].intercalate (spellItems items)).length :=
      length_le_intercalate (spellItems_eq items ▸ List.mem_map_of_mem hv)
    simp only [spell, List.length_cons, List.length_append] at hfuel
    omega

theorem Quotable.literal_spell {v : Value} (h : Quotable v) : literal (spell v) = v :=
  h.literalWithin_spell (Nat.lt_succ_self _)

/-! ## A list in a condition -/

/-- A word that stands for a field in front of a condition that is not turned round. -/
structure IsField (field : String) : Prop where
  nonempty : field.toList ≠ []
  word : ∀ c ∈ field.toList, Token.isWordChar c = true
  not_and : (Token.word field.toList).is .and_ = false
  not_not : (Token.word field.toList).is .not_ = false
  not_order : (Token.word field.toList).is .order = false
  not_limit : (Token.word field.toList).is .limit = false

/-- The query for the notes where the field is one of some values. -/
def memberText (field : String) (items : List Value) : String :=
  "LIST WHERE " ++ field ++ " in " ++ String.ofList (spell (.list items))

theorem toList_memberText (field : String) (items : List Value) :
    (memberText field items).toList =
      "LIST".toList ++ ' ' :: ("WHERE".toList ++ ' ' :: (field.toList ++ ' ' ::
        ("in".toList ++ ' ' :: spell (.list items)))) := by
  simp [memberText]

def memberTokens (field : String) (items : List Value) : List Token :=
  [.word "LIST".toList, .word "WHERE".toList, .word field.toList, .word "in".toList,
    .list (spell (.list items))]

/-- A word and a blank in front of a text. -/
theorem Token.Layout.word {word text : List Char} {ts : List Token} (hne : word ≠ [])
    (hword : ∀ c ∈ word, isWordChar c = true) (h : Layout ts text) :
    Layout (.word word :: ts) (word ++ ' ' :: text) := by
  have hhead : (Token.word word).Heads (word ++ ' ' :: text) (' ' :: text) := by
    refine ⟨word, .word hne hword, rfl, ?_⟩
    rintro _ ⟨⟩
    exact endsBefore_of_isBlank (by decide) _
  have hnone : ∀ c ∈ ([] : List Char), Text.isBlank c = true := nofun
  have hlayout := Layout.cons hnone hhead (h.blank (by decide))
  exact hlayout

theorem layout_memberText {field : String} {items : List Value} (hfield : IsField field)
    (hitems : Quotable (.list items)) :
    Token.Layout (memberTokens field items) (memberText field items).toList := by
  have hbalanced : Balanced ([',', ' '].intercalate (spellItems items)) := by
    refine .intercalate ?_
    rw [spellItems_eq]
    cases hitems with
    | list hitems => exact List.forall_mem_map.mpr fun v hv => (hitems v hv).balanced_spell
  have hlist : Token.Layout [.list (spell (.list items))] (spell (.list items)) := by
    have hnone : ∀ c ∈ ([] : List Char), Text.isBlank c = true := nofun
    have hlayout := Token.Layout.cons hnone
      ⟨spell (.list items), .list hbalanced, (List.append_nil _).symm, nofun⟩ (.nil hnone)
    exact hlayout
  have hkeyword {word : List Char} (h : word.all Token.isWordChar = true) :
      ∀ c ∈ word, Token.isWordChar c = true := List.all_eq_true.mp h
  rw [toList_memberText]
  refine .word (by decide) (hkeyword (by decide)) (.word (by decide) (hkeyword (by decide)) ?_)
  exact .word hfield.nonempty hfield.word (.word (by decide) (hkeyword (by decide)) hlist)

theorem written_memberTokens {field : String} {items : List Value} (hfield : IsField field)
    (hitems : Quotable (.list items)) :
    Written ⟨.list, [], [], [⟨field, .oneOf, .list items, false⟩], none, none⟩
      (memberTokens field items) := by
  have hvalue : LiteralText (.list items) (.list (spell (.list items))) := by
    have hread := LiteralText.list (String.ofList (spell (.list items)))
    rwa [parseValue, String.toList_ofList, hitems.literal_spell] at hread
  have htest : Test ⟨field, .oneOf, .list items, false⟩
      [.word field.toList, .word "in".toList, .list (spell (.list items))] :=
    .compare (.oneOf (by decide)) hvalue
  have hcondition : WhereText ⟨field, .oneOf, .list items, false⟩
      [.word field.toList, .word "in".toList, .list (spell (.list items))] := by
    refine ⟨.plain ?_ htest, ?_⟩
    · rintro _ ⟨⟩
      exact hfield.not_not
    · have hin : (Token.word "in".toList).is .and_ = false ∧
          (Token.word "in".toList).is .order = false ∧
          (Token.word "in".toList).is .limit = false := by decide
      have hlist : (Token.list (spell (.list items))).is .and_ = false ∧
          (Token.list (spell (.list items))).is .order = false ∧
          (Token.list (spell (.list items))).is .limit = false := ⟨rfl, rfl, rfl⟩
      refine List.forall_mem_cons.mpr ⟨?_, ?_⟩
      · exact ⟨hfield.not_and, hfield.not_order, hfield.not_limit⟩
      · exact List.forall_mem_cons.mpr ⟨hin, List.forall_mem_singleton.mpr hlist⟩
  exact .clauses (.shape (by decide) (by decide)) .absent (.present (by decide) (.one hcondition))
    .absent .absent

theorem exists_of_forall₂ {α β : Type} {r : α → β → Prop} {as : List α} {bs : List β}
    (h : List.Forall₂ r as bs) : ∀ a ∈ as, ∃ b ∈ bs, r a b := by
  induction h with
  | nil => nofun
  | cons hab _ ih =>
    refine List.forall_mem_cons.mpr ⟨⟨_, List.mem_cons_self, hab⟩, fun a ha => ?_⟩
    exact (ih a ha).imp fun b hb => ⟨List.mem_cons_of_mem _ hb.1, hb.2⟩

/-- The conditions of a query come from groups of its tokens. -/
theorem exists_group {ts : List Token} {q : Query} (h : readTokens ts = .ok q) :
    ∀ c ∈ q.conditions, ∃ g, ConditionText c g ∧
      ∀ t ∈ g, t ∈ ts ∧ t.is .and_ = false ∧ endsWhere t = false := by
  intro c hc
  rw [readTokens_eq] at h
  obtain ⟨⟨⟨shape, fields⟩, r₁⟩, hhead, h⟩ := bind_eq_ok_iff.mp h
  obtain ⟨r₂, r₃, r₄, hsources, hconditions, -, -, -, -⟩ := readClauses_eq_ok_iff.mp h
  have hsuffix : r₂ <:+ ts :=
    (clause_stops (by decide) [] readSources_stops hsources).1.trans (readHead_stops hhead).1
  rw [clause] at hconditions
  split at hconditions
  · rename_i us hus
    obtain ⟨hq, -⟩ := Prod.mk.inj (Except.ok.inj hconditions)
    rw [← hq] at hc
    rcases readConditions_cases (us.takeWhile (!endsWhere ·)) with hall | ⟨hnone, -⟩
    · obtain ⟨g, hg, htext⟩ := exists_of_forall₂ hall c hc
      obtain ⟨g', ⟨rfl, hand⟩, hsub⟩ := (groups_splitGroups _).exists_part g hg
      refine ⟨g', htext, fun t ht => ⟨?_, hand t ht, ?_⟩⟩
      · exact hsuffix.subset (eat_subset hus (List.takeWhile_subset _ (hsub ht)))
      · simpa using List.mem_takeWhile_imp (hsub ht)
    · rw [hnone] at hc
      cases hc
  · obtain ⟨hq, -⟩ := Prod.mk.inj (Except.ok.inj hconditions)
    rw [← hq] at hc
    cases hc

/-- A condition that is not turned round has a word for a field. -/
theorem isField_of_parse {text : String} {q : Query} (h : parse text = .ok q) :
    ∀ c ∈ q.conditions, c.negated = false → IsField c.field := by
  intro c hc hplain
  obtain ⟨ts, hts, -, hq⟩ := parse_eq_ok_iff.mp h
  obtain ⟨g, hg, hmem⟩ := exists_group hq c hc
  have hlayout : Token.Layout ts text.toList := Token.layout_of_tokenize hts
  have hfield {field : String} {r : List Token}
      (hmem : ∀ t ∈ .word field.toList :: r, t ∈ ts ∧ t.is .and_ = false ∧ endsWhere t = false)
      (hnot : (Token.word field.toList).is .not_ = false) : IsField field := by
    obtain ⟨hts, hand, hends⟩ := hmem _ List.mem_cons_self
    obtain ⟨_, hspelling⟩ := hlayout.spelling_of_mem hts
    rw [endsWhere, Bool.or_eq_false_iff] at hends
    cases hspelling with
    | word hne hword => exact ⟨hne, hword, hand, hnot, hends.1, hends.2⟩
  cases hg with
  | plain hnot htest =>
    cases htest with
    | present field => exact hfield hmem (hnot _ rfl)
    | compare _ _ => exact hfield hmem (hnot _ rfl)
  | negated _ _ => cases hplain

/-- What is written as a literal is read back. A list that is put into a query is read as part of
its one condition, whatever word names the field, and nothing but such a word will do. -/
theorem literal_written :
    (∀ v, Quotable v → parseValue (String.ofList (spell v)) = v) ∧
      ∀ field items, Quotable (.list items) →
        (parse (memberText field items) =
            .ok ⟨.list, [], [], [⟨field, .oneOf, .list items, false⟩], none, none⟩ ↔
          IsField field) := by
  constructor
  · intro v hv
    rw [parseValue, String.toList_ofList, hv.literal_spell]
  · intro field items hitems
    constructor
    · intro h
      exact isField_of_parse h _ (List.mem_singleton_self _) rfl
    · intro hfield
      exact parse_of_written (written_memberTokens hfield hitems) (List.cons_ne_nil _ _)
        (layout_memberText hfield hitems)

/-- Lists in lists, an empty one among them, with quotes, brackets, commas, a keyword and a line
break in the strings, and a field named by a keyword. -/
theorem literal_written_nested :
    let items : List Value :=
      [.string "it's, ] a [", .list [], .list [.bool true, .string "x\nAND", .list [.string ""]]]
    let text := "[\"it's, ] a [\", [], [true, \"x\nAND\", [\"\"]]]"
    Quotable (.list items) ∧ String.ofList (spell (.list items)) = text ∧
      parseValue text = .list items ∧ IsField "from" ∧
      memberText "from" items = "LIST WHERE from in " ++ text ∧
      parse ("LIST WHERE from in " ++ text) =
        .ok ⟨.list, [], [], [⟨"from", .oneOf, .list items, false⟩], none, none⟩ := by
  intro items text
  have hinner : Quotable (.list [.string ""]) :=
    .list (List.forall_mem_singleton.mpr (.string (by decide)))
  have hmiddle : Quotable (.list [.bool true, .string "x\nAND", .list [.string ""]]) :=
    .list (List.forall_mem_cons.mpr ⟨.bool true,
      List.forall_mem_cons.mpr ⟨.string (by decide), List.forall_mem_singleton.mpr hinner⟩⟩)
  have hitems : Quotable (.list items) :=
    .list (List.forall_mem_cons.mpr ⟨.string (by decide),
      List.forall_mem_cons.mpr ⟨.list nofun, List.forall_mem_singleton.mpr hmiddle⟩⟩)
  have htext : String.ofList (spell (.list items)) = text := rfl
  have hfield : IsField "from" :=
    ⟨by decide, List.all_eq_true.mp (by decide), by decide, by decide, by decide, by decide⟩
  have hmember : memberText "from" items = "LIST WHERE from in " ++ text := by
    rw [memberText, htext]
    rfl
  have hvalue := literal_written.1 _ hitems
  have hparse := (literal_written.2 "from" items hitems).mpr hfield
  rw [htext] at hvalue
  rw [hmember] at hparse
  exact ⟨hitems, htext, hvalue, hfield, hmember, hparse⟩

end NoteIndex.Query
