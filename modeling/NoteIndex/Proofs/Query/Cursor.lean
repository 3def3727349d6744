import NoteIndex.Proofs.Query.Tokens
import NoteIndex.Query.Cursor

/-!
# Nothing is lost to the cursor

Whatever the text is, each step of the cursor goes past one blank or past the spelling of one token,
or it refuses the text: no cut falls inside a character and no bracket closes where none is open. So
reading ends, with the tokens that reading character by character gives, and these are laid out in
the text with nothing but blanks between.
-/

namespace NoteIndex

namespace Text

theorem offset?_quote (q : Char) (cs : List Char) :
    offset? (· == q) cs = (splitOnce q cs).map fun p => byteSize p.1 := by
  induction cs with
  | nil => rfl
  | cons c r ih =>
    rw [offset?, splitOnce]
    by_cases hc : c = q
    · rw [if_pos (beq_iff_eq.mpr hc), if_pos hc]
      rfl
    · rw [if_neg (by simpa using hc), if_neg hc, ih, Option.map_map, Option.map_map]
      rfl

end Text

namespace Query

namespace Cursor

variable {ts : List Token} {c : Char} {r : List Char}

theorem cut_append (front back : List Char) :
    cut (Text.byteSize front) (front ++ back) = .ok (front, back) := by
  rw [cut, Text.cutAt?_append]

theorem cut_eq_error_iff (n : Nat) (cs : List Char) :
    cut n cs = .error (.noCut n) ↔ ¬ String.Pos.Raw.IsValid (String.ofList cs) ⟨n⟩ := by
  rw [← Text.isSome_cutAt?_iff, cut]
  cases Text.cutAt? n cs <;> simp

theorem take_append (ts : List Token) (front back : List Char) (token : List Char → Token) :
    take ts (Text.byteSize front) (front ++ back) token = .ok ⟨ts ++ [token front], back⟩ := by
  rw [take, cut_append]
  rfl

theorem cut_one (h : c.utf8Size = 1) (r : List Char) : cut 1 (c :: r) = .ok ([c], r) := by
  have hcut := cut_append [c] r
  rw [Text.byteSize, Text.byteSize, h] at hcut
  exact hcut

theorem take_one (h : c.utf8Size = 1) (ts : List Token) (r : List Char)
    (token : List Char → Token) : take ts 1 (c :: r) token = .ok ⟨ts ++ [token [c]], r⟩ := by
  rw [take, cut_one h]
  rfl

/-! ## Lists -/

/-- Inside of brackets the end of the list is where it is found without counting bytes. -/
theorem listEnd_eq (d : Nat) (quote : Option Char) (i : Nat) (cs : List Char) :
    listEnd (d + 1) quote i cs =
      .ok ((Token.listEnd? ⟨d + 1, quote⟩ cs).map fun raw => i + Text.byteSize raw) := by
  -- the depth stays above zero, for the bracket that brings it down to zero ends the search
  induction cs generalizing d quote i with
  | nil => rfl
  | cons c r ih =>
    have hpast {m : Nesting} (hm : Nesting.step ⟨d + 1, quote⟩ c = m) (hdepth : m.depth ≠ 0) :
        (Token.listEnd? ⟨d + 1, quote⟩ (c :: r)).map (fun raw => i + Text.byteSize raw) =
          (Token.listEnd? m r).map fun raw => i + c.utf8Size + Text.byteSize raw := by
      rw [Token.listEnd?_cons hm hdepth, Option.map_map]
      refine Option.map_congr fun raw _ => ?_
      exact (Nat.add_assoc ..).symm
    cases quote with
    | some q =>
      have hstep : Nesting.step ⟨d + 1, some q⟩ c = ⟨d + 1, if c = q then none else some q⟩ := by
        by_cases hc : c = q <;> simp [Nesting.step, hc]
      rw [listEnd, ih, hpast hstep d.succ_ne_zero]
    | none =>
      rw [listEnd]
      split
      · rename_i hquote
        rw [ih, hpast (Nesting.step_quote hquote _) d.succ_ne_zero]
      rename_i hquote
      split
      · rename_i hopen
        subst hopen
        rw [ih, hpast (Nesting.step_open _) (Nat.succ_ne_zero _)]
      rename_i hopen
      split
      · rename_i hclose
        subst hclose
        cases d with
        | zero => rfl
        | succ d => rw [if_neg d.succ_ne_zero, ih, hpast (Nesting.step_close _) d.succ_ne_zero]
      · rename_i hclose
        rw [Bool.not_eq_true] at hquote
        rw [ih, hpast (Nesting.step_plain hquote hopen hclose _) d.succ_ne_zero]

/-- Where a list begins no bracket closes too early. -/
theorem listEnd_open (r : List Char) :
    listEnd 0 none 0 ('[' :: r) =
      .ok ((Token.listEnd? .outside ('[' :: r)).map Text.byteSize) := by
  rw [Nesting.outside, Token.listEnd?_cons (Nesting.step_open 0) Nat.one_ne_zero, Option.map_map]
  exact (listEnd_eq 0 none 1 r).trans rfl

-- a bracket that closes none may stand at the beginning of a text, but not of a list
example : listEnd 0 none 0 [']'] = .error .noneOpen := rfl

/-! ## Words -/

theorem wordEnd_eq (cs : List Char) :
    wordEnd cs = Text.byteSize (cs.takeWhile Token.isWordChar) := by
  induction cs with
  | nil => rfl
  | cons c r ih =>
    rw [wordEnd] at ih ⊢
    rw [Text.offset?, Text.byteSize]
    cases hc : Token.isWordChar c with
    | false =>
      rw [List.takeWhile_cons_of_neg (by simp [hc])]
      rfl
    | true =>
      rw [List.takeWhile_cons_of_pos hc, Text.byteSize, ← ih]
      cases Text.offset? (fun c => !Token.isWordChar c) r <;> rfl

/-! ## One step -/

theorem utf8Size_quote {q : Char} (h : isQuote q = true) : q.utf8Size = 1 := by
  rcases (isQuote_iff q).mp h with rfl | rfl <;> rfl

theorem step_blank (h : Text.isBlank c = true) : step ts c r = .ok ⟨ts, r⟩ := by
  have hcut : cut c.utf8Size (c :: r) = .ok ([c], r) := cut_append [c] r
  rw [step, if_pos h, hcut]
  rfl

/-- The cursor behind a token at the head of a text, of which `r` is all but the first character. -/
def past (ts : List Token) (r : List Char) (t : Token) : Cursor :=
  ⟨ts ++ [t], r.drop (t.width - 1)⟩

theorem take_head {token : List Char → Token} {front back : List Char}
    (htext : c :: r = front ++ back) (hne : front ≠ [])
    (hwidth : (token front).width = front.length) :
    take ts (Text.byteSize front) (c :: r) token = .ok (past ts r (token front)) := by
  obtain ⟨d, front, rfl⟩ := List.exists_cons_of_ne_nil hne
  rw [List.cons_append] at htext
  obtain ⟨rfl, rfl⟩ := List.cons.inj htext
  rw [past, hwidth, List.length_cons, Nat.add_sub_cancel, List.drop_left]
  exact take_append ts (c :: front) back token

/-- A stray takes up its own character alone. -/
theorem stray_map (ts : List Token) (c : Char) (r : List Char) (e : Error) :
    ((stray ts c e).map fun t => ⟨ts ++ [t], r⟩) =
      ((Token.strayOr (ts.any (·.is .where_)) c e).mapError .refused).map (past ts r) := by
  rw [stray, Token.strayOr]
  split <;> rfl

theorem takeStray_eq (h : c.utf8Size = 1) (ts : List Token) (r : List Char) (e : Error) :
    takeStray ts c r e =
      ((Token.strayOr (ts.any (·.is .where_)) c e).mapError .refused).map (past ts r) := by
  rw [← stray_map, takeStray]
  cases stray ts c e with
  | error => rfl
  | ok t => exact take_one h ts r fun _ => t

/-- The text in quotes is cut off first, and then once more with the quote that closes it. -/
theorem takeQuoted_append {q : Char} (hq : q.utf8Size = 1) {inner : List Char} (h : q ∉ inner)
    (ts : List Token) (after : List Char) :
    takeQuoted ts q (inner ++ q :: after) =
      .ok (past ts (inner ++ q :: after) (.quoted inner)) := by
  have hsize : Text.byteSize inner + 1 = Text.byteSize (inner ++ [q]) := by
    rw [Text.byteSize_append, Text.byteSize, Text.byteSize, hq]
  have htake : take ts (Text.byteSize inner + 1) (inner ++ q :: after) (fun _ => .quoted inner) =
      .ok ⟨ts ++ [.quoted inner], after⟩ := by
    rw [hsize, List.append_cons inner q after]
    exact take_append ts (inner ++ [q]) after _
  have hpast : past ts (inner ++ q :: after) (.quoted inner) = ⟨ts ++ [.quoted inner], after⟩ := by
    simp [past, Token.width]
  rw [takeQuoted, Text.offset?_quote, Text.splitOnce_of_not_mem h, hpast]
  simp only [Option.map_some, cut_append]
  exact htake

theorem takeList_raw {raw : List Char} (h : Token.listEnd? .outside ('[' :: r) = some raw) :
    takeList ts r = .ok (past ts r (.list raw)) := by
  rw [takeList, listEnd_open, h]
  obtain ⟨inner, after, -, rfl, rfl⟩ := Token.listEnd?_eq_some_iff.mp h
  have htext : '[' :: (inner ++ ']' :: after) = '[' :: (inner ++ [']']) ++ after := by simp
  exact take_head htext (List.cons_ne_nil _ _) rfl

theorem take_sign {s : Sign} (h : Sign.ofStart? (c :: r) = some s) :
    take ts (Text.byteSize s.spelling) (c :: r) (fun _ => .sign s) =
      .ok (past ts r (.sign s)) := by
  have hne : s.spelling ≠ [] := by cases s <;> exact List.cons_ne_nil _ _
  obtain ⟨rest, _, hspelled, htext, -⟩ := Token.heads_of_ofStart? h
  cases hspelled
  exact take_head htext hne rfl

theorem take_word (h : Token.isWordChar c = true) :
    take ts (wordEnd (c :: r)) (c :: r) .word =
      .ok (past ts r (.word (c :: r.takeWhile Token.isWordChar))) := by
  have htext : c :: r = c :: r.takeWhile Token.isWordChar ++ r.dropWhile Token.isWordChar := by
    rw [List.cons_append, List.takeWhile_append_dropWhile]
  rw [wordEnd_eq, List.takeWhile_cons_of_pos h]
  exact take_head htext (List.cons_ne_nil _ _) rfl

/-- A step past a token is reading it. -/
theorem step_token (h : Text.isBlank c = false) :
    step ts c r =
      ((Token.read (ts.any (·.is .where_)) c r).mapError .refused).map (past ts r) := by
  -- both ask the same questions in the same order
  rw [step, if_neg (by simp [h]), Token.read]
  split
  · rename_i hcomma
    subst hcomma
    exact take_one rfl ts r _
  rename_i hcomma
  split
  · rename_i hquote
    rw [cut_one (utf8Size_quote hquote), Except.bind]
    cases hsplit : Text.splitOnce c r with
    | none =>
      rw [takeQuoted, Text.offset?_quote, hsplit]
      exact stray_map ts c r _
    | some p =>
      obtain ⟨inner, after⟩ := p
      obtain ⟨hinner, rfl⟩ := Text.splitOnce_eq_some hsplit
      exact takeQuoted_append (utf8Size_quote hquote) hinner ts after
  rename_i hquote
  split
  · rename_i hopen
    subst hopen
    cases hlist : Token.listEnd? .outside ('[' :: r) with
    | none =>
      rw [takeList, listEnd_open, hlist]
      exact takeStray_eq rfl ts r _
    | some raw => exact takeList_raw hlist
  rename_i hopen
  cases hsign : Sign.ofStart? (c :: r) with
  | some s => exact take_sign hsign
  | none =>
    simp only
    split
    · rename_i hbang
      subst hbang
      exact take_one rfl ts r _
    split
    · rename_i hclose
      subst hclose
      exact takeStray_eq rfl ts r _
    · rename_i hbang hclose
      exact take_word (Token.isWordChar_of_no_other h hcomma hquote hopen hclose hbang hsign)

/-- The ways to go on: past one blank, or past the spelling of one token. -/
inductive Moves : Cursor → Cursor → Prop where
  | blank {ts : List Token} {c : Char} {rest : List Char} :
      Text.isBlank c = true → Moves ⟨ts, c :: rest⟩ ⟨ts, rest⟩
  | token {ts : List Token} {t : Token} {piece rest : List Char} :
      Token.Spelling t piece → Moves ⟨ts, piece ++ rest⟩ ⟨ts ++ [t], rest⟩

theorem Moves.length_lt {s next : Cursor} (h : Moves s next) :
    next.rest.length < s.rest.length := by
  cases h with
  | blank _ => exact Nat.lt_succ_self _
  | token hspelled =>
    obtain ⟨c, r, rfl, -⟩ := hspelled.not_isBlank
    simp only [List.length_append, List.length_cons]
    omega

/-- A step goes on or refuses the text, and nothing else comes up. -/
theorem step_cases (ts : List Token) (c : Char) (r : List Char) :
    (∃ e, step ts c r = .error (.refused e)) ∨
      ∃ next, step ts c r = .ok next ∧ Moves ⟨ts, c :: r⟩ next := by
  cases hblank : Text.isBlank c with
  | true => exact .inr ⟨_, step_blank hblank, .blank hblank⟩
  | false =>
    rw [step_token hblank]
    cases hread : Token.read (ts.any (·.is .where_)) c r with
    | error e => exact .inl ⟨e, rfl⟩
    | ok t =>
      obtain ⟨rest, hhead⟩ := (Token.heads_of_read hblank hread).1
      have hrest : r.drop (t.width - 1) = rest := hhead.rest_eq.symm
      obtain ⟨piece, hspelled, htext, -⟩ := hhead
      refine .inr ⟨past ts r t, rfl, ?_⟩
      rw [past, hrest, htext]
      exact .token hspelled

theorem moves_of_step {next : Cursor} (h : step ts c r = .ok next) : Moves ⟨ts, c :: r⟩ next := by
  obtain ⟨e, he⟩ | ⟨next', hnext, hmoves⟩ := step_cases ts c r
  · cases he.symm.trans h
  · cases hnext.symm.trans h
    exact hmoves

/-! ## All steps -/

-- that the steps come to an end hangs on `Moves`, not on how a step is made
attribute [local irreducible] step

/-- Steps until nothing is left of the text. Every step goes past something, so there is an end. -/
def scan (ts : List Token) : List Char → Except Halt (List Token)
  | [] => .ok ts
  | c :: r =>
    match _h : step ts c r with
    | .error e => .error e
    | .ok next => scan next.tokens next.rest
termination_by cs => cs.length
decreasing_by exact (moves_of_step _h).length_lt

theorem scan_cons (ts : List Token) (c : Char) (r : List Char) :
    scan ts (c :: r) = (step ts c r).bind fun next => scan next.tokens next.rest := by
  rw [scan]
  split <;> rename_i h <;> rw [h] <;> rfl

/-- Scanning is reading character by character. -/
theorem scan_eq (ts : List Token) (cs : List Char) :
    scan ts cs = ((Token.readFrom 0 (ts.any (·.is .where_)) cs).mapError .refused).map
      (ts ++ ·) := by
  cases cs with
  | nil =>
    rw [scan, Token.readFrom]
    exact congrArg Except.ok (List.append_nil ts).symm
  | cons c r =>
    rw [scan_cons]
    cases hblank : Text.isBlank c with
    | true =>
      rw [step_blank hblank, Token.readFrom_blank hblank]
      exact scan_eq ts r
    | false =>
      rw [step_token hblank, Token.readFrom_token hblank]
      cases Token.read (ts.any (·.is .where_)) c r with
      | error e => rfl
      | ok t =>
        -- the token read now counts for whether WHERE has gone by
        have hrest := scan_eq (ts ++ [t]) (r.drop (t.width - 1))
        rw [List.any_append, List.any_cons, List.any_nil, Bool.or_false] at hrest
        refine hrest.trans ?_
        rw [Except.bind]
        cases Token.readFrom 0 (ts.any (·.is .where_) || t.is .where_) (r.drop (t.width - 1)) with
        | error e => rfl
        | ok us => exact congrArg Except.ok (List.append_cons ts t us).symm
termination_by cs.length
decreasing_by
  all_goals
    simp only [List.length_drop, List.length_cons]
    omega

theorem scan_text (cs : List Char) : scan [] cs = (Token.tokenize cs).mapError .refused := by
  rw [scan_eq, Token.tokenize, List.any_nil]
  cases Token.readFrom 0 false cs <;> rfl

/-- Cuts fail just where the string has no position. Whatever there is to read, a step refuses the
text or goes past a blank or a token, so that less is left: it makes no cut that fails, and closes
no bracket where none is open. The steps from the beginning give the tokens of the text, or its
error, and the tokens are laid out in the text. -/
theorem scan_accounts_for_text (cs : List Char) :
    (∀ n text, cut n text = .error (.noCut n) ↔
      ¬ String.Pos.Raw.IsValid (String.ofList text) ⟨n⟩) ∧
      (∀ ts c r, (∃ e, step ts c r = .error (.refused e)) ∨
        ∃ next, step ts c r = .ok next ∧ Moves ⟨ts, c :: r⟩ next ∧
          next.rest.length < (c :: r).length) ∧
      scan [] cs = (Token.tokenize cs).mapError .refused ∧
      ∀ ts, Token.tokenize cs = .ok ts → Token.Layout ts cs := by
  refine ⟨cut_eq_error_iff, fun ts c r => ?_, scan_text cs, fun ts h => ?_⟩
  · obtain hrefused | ⟨next, hnext, hmoves⟩ := step_cases ts c r
    · exact .inl hrefused
    · exact .inr ⟨next, hnext, hmoves, hmoves.length_lt⟩
  · exact Token.layout_of_readFrom h

/-- Characters of two bytes, a list that holds a bracket in quotes, and three strays. -/
theorem scan_accounts_for_text_strays :
    let text := "WHERE\u00A0é!='ö'in[[\"]\"],x] ] O'B [".toList
    let ts : List Token := [.word "WHERE".toList, .word ['é'], .sign .notEq, .quoted ['ö'],
      .word "in".toList, .list "[[\"]\"],x]".toList, .stray ']', .word ['O'], .stray '\'',
      .word ['B'], .stray '[']
    Token.tokenize text = .ok ts ∧ scan [] text = .ok ts ∧ Token.Layout ts text := by
  intro text ts
  have h : Token.tokenize text = .ok ts := eq_ok_of_toOption (by decide +kernel)
  obtain ⟨-, -, hscan, hlayout⟩ := scan_accounts_for_text text
  rw [h] at hscan
  exact ⟨h, hscan, hlayout ts h⟩

end Cursor

end Query

end NoteIndex
