import NoteIndex.Query.Token

/-!
# How tokens are written

A text is a layout of tokens: each in its spelling, blanks wherever one would run into the next.
Reading finds the tokens of a layout again, and every text that is read is a layout of what was
read. Only strays hang on the text that follows them, since an opening quote or bracket is a stray
for want of a closing one. There are none before the word WHERE, so that far reading a text does not
depend on how it goes on.
-/

namespace NoteIndex.Query

/-! ## Results of readers -/

section Results

variable {ε α β : Type} {x : Except ε α}

theorem map_eq_ok_iff {f : α → β} {b : β} : x.map f = .ok b ↔ ∃ a, x = .ok a ∧ f a = b := by
  cases x <;> simp [Except.map]

theorem map_eq_error_iff {f : α → β} {e : ε} : x.map f = .error e ↔ x = .error e := by
  cases x <;> simp [Except.map]

theorem bind_eq_ok_iff {f : α → Except ε β} {b : β} :
    x.bind f = .ok b ↔ ∃ a, x = .ok a ∧ f a = .ok b := by
  cases x <;> simp [Except.bind]

theorem eq_ok_of_toOption {a : α} (h : x.toOption = some a) : x = .ok a := by
  cases x <;> cases h
  rfl

end Results

/-! ## Lists -/

theorem isQuote_iff (c : Char) : isQuote c = true ↔ c = '"' ∨ c = '\'' := by
  simp [isQuote]

/-- Text in which the brackets come in pairs. Those in quotes do not count. -/
inductive Balanced : List Char → Prop where
  | nil : Balanced []
  | plain {c : Char} {cs : List Char} :
      isQuote c = false → c ≠ '[' → c ≠ ']' → Balanced cs → Balanced (c :: cs)
  | quoted {q : Char} {inner cs : List Char} :
      isQuote q = true → q ∉ inner → Balanced cs → Balanced (q :: (inner ++ q :: cs))
  | nested {inner cs : List Char} :
      Balanced inner → Balanced cs → Balanced ('[' :: (inner ++ ']' :: cs))

namespace Nesting

theorem step_plain {c : Char} (hquote : isQuote c = false) (hopen : c ≠ '[') (hclose : c ≠ ']')
    (d : Nat) : step ⟨d, none⟩ c = ⟨d, none⟩ := by
  simp [step, hquote, hopen, hclose]

theorem step_quote {q : Char} (h : isQuote q = true) (d : Nat) :
    step ⟨d, none⟩ q = ⟨d, some q⟩ := if_pos h

theorem step_open (d : Nat) : step ⟨d, none⟩ '[' = ⟨d + 1, none⟩ := rfl

theorem step_close (d : Nat) : step ⟨d + 1, none⟩ ']' = ⟨d, none⟩ := rfl

theorem step_unquote (q : Char) (d : Nat) : step ⟨d, some q⟩ q = ⟨d, none⟩ := if_pos rfl

theorem step_quoted {q c : Char} (h : c ≠ q) (d : Nat) :
    step ⟨d, some q⟩ c = ⟨d, some q⟩ := if_neg h

end Nesting

namespace Token

/-- The search goes on past a character that does not close the outermost bracket. -/
theorem listEnd?_cons {n m : Nesting} {c : Char} (hstep : n.step c = m) (h : m.depth ≠ 0)
    (r : List Char) : listEnd? n (c :: r) = (listEnd? m r).map (c :: ·) := by
  subst hstep
  rw [listEnd?]
  exact if_neg h

theorem listEnd?_quoted {q : Char} {inner : List Char} (h : q ∉ inner) (d : Nat) (r : List Char) :
    listEnd? ⟨d + 1, some q⟩ (inner ++ q :: r) =
      (listEnd? ⟨d + 1, none⟩ r).map fun raw => inner ++ q :: raw := by
  induction inner with
  | nil =>
    rw [List.nil_append, listEnd?_cons (Nesting.step_unquote q _) d.succ_ne_zero]
    rfl
  | cons c inner ih =>
    rw [List.mem_cons, not_or] at h
    rw [List.cons_append, listEnd?_cons (Nesting.step_quoted (Ne.symm h.1) _) d.succ_ne_zero,
      ih h.2, Option.map_map]
    rfl

/-- Balanced text leaves the nesting as it is. -/
theorem listEnd?_balanced {cs : List Char} (h : Balanced cs) (d : Nat) (r : List Char) :
    listEnd? ⟨d + 1, none⟩ (cs ++ r) = (listEnd? ⟨d + 1, none⟩ r).map (cs ++ ·) := by
  induction h generalizing d r with
  | nil => exact Option.map_id'.symm
  | plain hquote hopen hclose _ ih =>
    rw [List.cons_append, listEnd?_cons (Nesting.step_plain hquote hopen hclose _) d.succ_ne_zero,
      ih, Option.map_map]
    rfl
  | quoted hq hinner _ ih =>
    rw [List.cons_append, List.append_assoc, List.cons_append,
      listEnd?_cons (Nesting.step_quote hq _) d.succ_ne_zero, listEnd?_quoted hinner, ih,
      Option.map_map, Option.map_map]
    refine Option.map_congr fun raw _ => ?_
    simp
  | nested _ _ ihinner ih =>
    rw [List.cons_append, List.append_assoc, List.cons_append,
      listEnd?_cons (Nesting.step_open _) (Nat.succ_ne_zero _), ihinner,
      listEnd?_cons (Nesting.step_close _) d.succ_ne_zero, ih, Option.map_map, Option.map_map,
      Option.map_map]
    refine Option.map_congr fun raw _ => ?_
    simp

/-- What is found from inside quotes goes past their end. -/
theorem exists_unquoted {q : Char} {d : Nat} {cs raw : List Char}
    (h : listEnd? ⟨d + 1, some q⟩ cs = some raw) :
    ∃ inner after raw', q ∉ inner ∧ cs = inner ++ q :: after ∧
      listEnd? ⟨d + 1, none⟩ after = some raw' ∧ raw = inner ++ q :: raw' := by
  induction cs generalizing raw with
  | nil => cases h
  | cons c r ih =>
    by_cases hc : c = q
    · subst hc
      rw [listEnd?_cons (Nesting.step_unquote c _) d.succ_ne_zero] at h
      obtain ⟨raw', hraw, rfl⟩ := Option.map_eq_some_iff.mp h
      exact ⟨[], r, raw', List.not_mem_nil, rfl, hraw, rfl⟩
    · rw [listEnd?_cons (Nesting.step_quoted hc _) d.succ_ne_zero] at h
      obtain ⟨raw', hraw, rfl⟩ := Option.map_eq_some_iff.mp h
      obtain ⟨inner, after, raw'', hq, rfl, hafter, rfl⟩ := ih hraw
      exact ⟨c :: inner, after, raw'', by simp [hq, Ne.symm hc], rfl, hafter, rfl⟩

/-- What is found from inside brackets is balanced text and, from the bracket that closes the
innermost of them, what is found there. -/
theorem exists_balanced {d : Nat} {cs raw : List Char}
    (h : listEnd? ⟨d + 1, none⟩ cs = some raw) :
    ∃ inner after raw', Balanced inner ∧ cs = inner ++ ']' :: after ∧
      listEnd? ⟨d + 1, none⟩ (']' :: after) = some raw' ∧ raw = inner ++ raw' := by
  cases cs with
  | nil => cases h
  | cons c r =>
    by_cases hquote : isQuote c = true
    · rw [listEnd?_cons (Nesting.step_quote hquote _) d.succ_ne_zero] at h
      obtain ⟨_, hquoted, rfl⟩ := Option.map_eq_some_iff.mp h
      obtain ⟨quoted, rest, _, hq, rfl, hrest, rfl⟩ := exists_unquoted hquoted
      obtain ⟨inner, after, raw', hinner, rfl, hafter, rfl⟩ := exists_balanced hrest
      exact ⟨c :: (quoted ++ c :: inner), after, raw', .quoted hquote hq hinner, by simp, hafter,
        by simp⟩
    · by_cases hopen : c = '['
      · -- what is nested ends first, and the search goes on behind it
        subst hopen
        rw [listEnd?_cons (Nesting.step_open _) (Nat.succ_ne_zero _)] at h
        obtain ⟨_, hopened, rfl⟩ := Option.map_eq_some_iff.mp h
        obtain ⟨nested, rest, _, hnested, rfl, hclosed, rfl⟩ := exists_balanced hopened
        rw [listEnd?_cons (Nesting.step_close _) d.succ_ne_zero] at hclosed
        obtain ⟨_, hrest, rfl⟩ := Option.map_eq_some_iff.mp hclosed
        obtain ⟨inner, after, raw', hinner, rfl, hafter, rfl⟩ := exists_balanced hrest
        exact ⟨'[' :: (nested ++ ']' :: inner), after, raw', .nested hnested hinner, by simp,
          hafter, by simp⟩
      · by_cases hclose : c = ']'
        · subst hclose
          exact ⟨[], r, raw, .nil, rfl, h, rfl⟩
        · rw [Bool.not_eq_true] at hquote
          rw [listEnd?_cons (Nesting.step_plain hquote hopen hclose _) d.succ_ne_zero] at h
          obtain ⟨_, hrest, rfl⟩ := Option.map_eq_some_iff.mp h
          obtain ⟨inner, after, raw', hinner, rfl, hafter, rfl⟩ := exists_balanced hrest
          exact ⟨c :: inner, after, raw', .plain hquote hopen hclose hinner, rfl, hafter, rfl⟩
termination_by cs.length
decreasing_by all_goals (subst_vars; simp +arith)

/-- The lists of a text are those that balanced text in brackets makes up. -/
theorem listEnd?_eq_some_iff {cs raw : List Char} :
    listEnd? .outside ('[' :: cs) = some raw ↔
      ∃ inner after, Balanced inner ∧ cs = inner ++ ']' :: after ∧
        raw = '[' :: (inner ++ [']']) := by
  constructor
  · intro h
    rw [Nesting.outside, listEnd?_cons (Nesting.step_open 0) Nat.one_ne_zero] at h
    obtain ⟨raw, hraw, rfl⟩ := Option.map_eq_some_iff.mp h
    obtain ⟨inner, after, raw', hinner, rfl, hafter, rfl⟩ := exists_balanced hraw
    obtain rfl : [']'] = raw' := Option.some.inj hafter
    exact ⟨inner, after, hinner, rfl, rfl⟩
  · rintro ⟨inner, after, hinner, rfl, rfl⟩
    rw [Nesting.outside, listEnd?_cons (Nesting.step_open 0) Nat.one_ne_zero,
      listEnd?_balanced hinner]
    rfl

/-! ## Spelling -/

/-- The ways to write a token. -/
inductive Spelling : Token → List Char → Prop where
  | word {cs : List Char} : cs ≠ [] → (∀ c ∈ cs, isWordChar c = true) → Spelling (.word cs) cs
  | quoted {q : Char} {inner : List Char} :
      isQuote q = true → q ∉ inner → Spelling (.quoted inner) (q :: (inner ++ [q]))
  | list {inner : List Char} :
      Balanced inner → Spelling (.list ('[' :: (inner ++ [']']))) ('[' :: (inner ++ [']']))
  | comma : Spelling .comma [',']
  | sign (s : Sign) : Spelling (.sign s) s.spelling
  | bang : Spelling .bang ['!']
  | stray (c : Char) : c = ']' ∨ c = '[' ∨ isQuote c = true → Spelling (.stray c) [c]

/-- Whether a token is complete when that character comes next. -/
def endsBefore (next : Char) : Token → Bool
  | .word _ => !isWordChar next
  | .sign .eq | .sign .gt | .sign .lt | .bang => next != '='
  | _ => true

/-- The text begins with the token, which is complete before the rest. -/
def Heads (t : Token) (text rest : List Char) : Prop :=
  ∃ cs, Spelling t cs ∧ text = cs ++ rest ∧ ∀ c ∈ rest.head?, t.endsBefore c = true

/-- The tokens stand one after the other, with blanks around them. Where a token is complete
without any, they may be left out. -/
inductive Layout : List Token → List Char → Prop where
  | nil {gap : List Char} : (∀ c ∈ gap, Text.isBlank c = true) → Layout [] gap
  | cons {gap text rest : List Char} {t : Token} {ts : List Token} :
      (∀ c ∈ gap, Text.isBlank c = true) → t.Heads text rest → Layout ts rest →
      Layout (t :: ts) (gap ++ text)

/-- A character that begins no token because of what comes after it. -/
def isStray : Token → Bool
  | .stray _ => true
  | _ => false

theorem isWordChar_iff (c : Char) : isWordChar c = true ↔
    Text.isBlank c = false ∧ c ≠ ',' ∧ isQuote c = false ∧ c ≠ '[' ∧ c ≠ ']' ∧ c ≠ '=' ∧
      c ≠ '!' ∧ c ≠ '<' ∧ c ≠ '>' := by
  simp [isWordChar, isQuote, and_assoc]

/-- Blanks complete every token. -/
theorem endsBefore_of_isBlank {c : Char} (h : Text.isBlank c = true) (t : Token) :
    t.endsBefore c = true := by
  have hne : c ≠ '=' := by
    rintro rfl
    exact absurd h (by decide)
  cases t with
  | word cs => simp [endsBefore, isWordChar, h]
  | sign s => cases s <;> simp [endsBefore, hne]
  | _ => simp [endsBefore, hne]

theorem Spelling.length_eq {t : Token} {cs : List Char} (h : Spelling t cs) :
    cs.length = t.width := by
  cases h <;> simp [width]

theorem Spelling.not_isBlank {t : Token} {cs : List Char} (h : Spelling t cs) :
    ∃ c r, cs = c :: r ∧ Text.isBlank c = false := by
  have hquote {q : Char} (hq : isQuote q = true) : Text.isBlank q = false := by
    rcases (isQuote_iff q).mp hq with rfl | rfl <;> decide
  cases h with
  | word hne hall =>
    obtain ⟨c, r, rfl⟩ := List.exists_cons_of_ne_nil hne
    exact ⟨c, r, rfl, ((isWordChar_iff c).mp (hall c List.mem_cons_self)).1⟩
  | quoted hq _ => exact ⟨_, _, rfl, hquote hq⟩
  | list _ => exact ⟨_, _, rfl, by decide⟩
  | comma => exact ⟨_, _, rfl, by decide⟩
  | sign s => cases s <;> exact ⟨_, _, rfl, by decide⟩
  | bang => exact ⟨_, _, rfl, by decide⟩
  | stray c hc =>
    refine ⟨c, [], rfl, ?_⟩
    rcases hc with rfl | rfl | hq
    · decide
    · decide
    · exact hquote hq

/-! ## Reading one token -/

theorem ofStart?_eq_none {c : Char} (heq : c ≠ '=') (hgt : c ≠ '>') (hlt : c ≠ '<')
    {r : List Char} (hbang : c = '!' → r.head? ≠ some '=') : Sign.ofStart? (c :: r) = none := by
  rw [Sign.ofStart?.eq_def]
  split <;> simp_all

theorem ofStart?_of_heads {s : Sign} {cs rest : List Char} (h : (sign s).Heads cs rest) :
    Sign.ofStart? cs = some s := by
  obtain ⟨_, hs, rfl, hend⟩ := h
  cases hs
  cases rest with
  | nil => cases s <;> rfl
  | cons d r =>
    have hd := hend d rfl
    cases s <;> simp_all [Sign.spelling, Sign.ofStart?, endsBefore]

theorem heads_of_ofStart? {s : Sign} {cs : List Char} (h : Sign.ofStart? cs = some s) :
    ∃ rest, (sign s).Heads cs rest := by
  have hdouble {s : Sign} (hs : s.spelling.length = 2) {rest : List Char} :
      (sign s).Heads (s.spelling ++ rest) rest :=
    ⟨s.spelling, .sign s, rfl, fun d _ => by cases s <;> first | rfl | cases hs⟩
  have hsingle {s : Sign} {rest : List Char} (hne : ∀ r, rest ≠ '=' :: r) :
      (sign s).Heads (s.spelling ++ rest) rest := by
    refine ⟨s.spelling, .sign s, rfl, fun d hd => ?_⟩
    have : d ≠ '=' := by
      rintro rfl
      obtain ⟨r, hr⟩ := List.head?_eq_some_iff.mp hd
      exact hne r hr
    cases s <;> simp [endsBefore, this]
  rw [Sign.ofStart?.eq_def] at h
  split at h <;> cases h
  · exact ⟨_, hdouble rfl⟩
  · exact ⟨_, hdouble rfl⟩
  · exact ⟨_, hdouble rfl⟩
  · exact ⟨_, hdouble rfl⟩
  · rename_i hne
    exact ⟨_, hsingle hne⟩
  · rename_i hne
    exact ⟨_, hsingle hne⟩
  · rename_i hne
    exact ⟨_, hsingle hne⟩

/-- What begins nothing else begins a word. -/
theorem isWordChar_of_no_other {c : Char} {r : List Char} (hblank : Text.isBlank c = false)
    (hcomma : c ≠ ',') (hquote : ¬ isQuote c = true) (hopen : c ≠ '[') (hclose : c ≠ ']')
    (hbang : c ≠ '!') (hsign : Sign.ofStart? (c :: r) = none) : isWordChar c = true := by
  rw [isWordChar_iff]
  rw [Sign.ofStart?.eq_def] at hsign
  split at hsign <;> simp_all

theorem read_word {c : Char} (h : isWordChar c = true) (w : Bool) (r : List Char) :
    read w c r = .ok (.word (c :: r.takeWhile isWordChar)) := by
  obtain ⟨-, hcomma, hquote, hopen, hclose, heq, hbang, hlt, hgt⟩ := (isWordChar_iff c).mp h
  have hsign : Sign.ofStart? (c :: r) = none :=
    ofStart?_eq_none heq hgt hlt fun he => absurd he hbang
  simp [read, hcomma, hquote, hopen, hclose, hbang, hsign]

theorem read_sign {c : Char} {r : List Char} {s : Sign} (h : Sign.ofStart? (c :: r) = some s)
    (w : Bool) : read w c r = .ok (.sign s) := by
  obtain ⟨rest, _, hs, htext, -⟩ := heads_of_ofStart? h
  cases hs
  cases s <;> obtain ⟨rfl, -⟩ := List.cons.inj htext <;> simp [read, isQuote, h]

/-- A token is read where the text begins with it, unless it hangs on the rest what that is. -/
theorem read_of_heads {t : Token} {c : Char} {r rest : List Char} (h : t.Heads (c :: r) rest)
    (hstray : t.isStray = false) (w : Bool) : read w c r = .ok t := by
  obtain ⟨cs, hs, htext, hend⟩ := id h
  cases hs with
  | word hne hall =>
    obtain ⟨d, ds, rfl⟩ := List.exists_cons_of_ne_nil hne
    rw [List.cons_append] at htext
    obtain ⟨rfl, rfl⟩ := List.cons.inj htext
    obtain ⟨hc, hcs⟩ := List.forall_mem_cons.mp hall
    have hrest : rest.takeWhile isWordChar = [] := by
      cases rest with
      | nil => rfl
      | cons d r =>
        have hd : isWordChar d = false := by simpa [endsBefore] using hend d rfl
        exact List.takeWhile_cons_of_neg (by simp [hd])
    rw [read_word hc, List.takeWhile_append_of_pos hcs, hrest, List.append_nil]
  | quoted hq hinner =>
    obtain ⟨rfl, rfl⟩ := List.cons.inj htext
    have hcomma : c ≠ ',' := by
      rintro rfl
      cases hq
    simp [read, hcomma, hq, Text.splitOnce_of_not_mem hinner]
  | @list inner hinner =>
    obtain ⟨rfl, rfl⟩ := List.cons.inj htext
    have hlist : listEnd? .outside ('[' :: (inner ++ ']' :: rest)) =
        some ('[' :: (inner ++ [']'])) :=
      listEnd?_eq_some_iff.mpr ⟨inner, rest, hinner, rfl, rfl⟩
    simp [read, isQuote, hlist]
  | comma =>
    obtain ⟨rfl, rfl⟩ := List.cons.inj htext
    rfl
  | sign s => exact read_sign (ofStart?_of_heads h) w
  | bang =>
    obtain ⟨rfl, rfl⟩ := List.cons.inj htext
    have hsign : Sign.ofStart? ('!' :: r) = none := by
      refine ofStart?_eq_none (by decide) (by decide) (by decide) fun _ he => ?_
      cases hend '=' he
    simp [read, isQuote, hsign]
  | stray d _ => cases hstray

/-- The text begins with the token that is read. There are strays only after WHERE. -/
theorem heads_of_read {w : Bool} {c : Char} {r : List Char} {t : Token}
    (hblank : Text.isBlank c = false) (h : read w c r = .ok t) :
    (∃ rest, t.Heads (c :: r) rest) ∧ (t.isStray = true → w = true) := by
  have hstray (hc : c = ']' ∨ c = '[' ∨ isQuote c = true) {e : Error}
      (h : strayOr w c e = .ok t) :
      (∃ rest, t.Heads (c :: r) rest) ∧ (t.isStray = true → w = true) := by
    cases w with
    | false => cases h
    | true =>
      cases h
      exact ⟨⟨r, _, .stray c hc, rfl, fun _ _ => rfl⟩, fun _ => rfl⟩
  rw [read] at h
  split at h
  · rename_i hcomma
    cases h
    subst hcomma
    exact ⟨⟨r, _, .comma, rfl, fun _ _ => rfl⟩, nofun⟩
  rename_i hcomma
  split at h
  · rename_i hquote
    split at h
    · rename_i inner after hsplit
      cases h
      obtain ⟨hinner, rfl⟩ := Text.splitOnce_eq_some hsplit
      exact ⟨⟨after, _, .quoted hquote hinner, by simp, fun _ _ => rfl⟩, nofun⟩
    · exact hstray (.inr (.inr hquote)) h
  rename_i hquote
  split at h
  · rename_i hopen
    subst hopen
    split at h
    · rename_i raw hraw
      cases h
      obtain ⟨inner, after, hinner, rfl, rfl⟩ := listEnd?_eq_some_iff.mp hraw
      exact ⟨⟨after, _, .list hinner, by simp, fun _ _ => rfl⟩, nofun⟩
    · exact hstray (.inr (.inl rfl)) h
  rename_i hopen
  split at h
  · rename_i s hsign
    cases h
    exact ⟨heads_of_ofStart? hsign, nofun⟩
  rename_i hsign
  split at h
  · rename_i hbang
    cases h
    subst hbang
    refine ⟨⟨r, _, .bang, rfl, fun d hd => ?_⟩, nofun⟩
    simp only [endsBefore, bne_iff_ne]
    rintro rfl
    obtain ⟨r, rfl⟩ := List.head?_eq_some_iff.mp hd
    cases hsign
  rename_i hbang
  split at h
  · rename_i hclose
    exact hstray (.inl hclose) h
  · rename_i hclose
    cases h
    have hc : isWordChar c = true :=
      isWordChar_of_no_other hblank hcomma hquote hopen hclose hbang hsign
    refine ⟨⟨r.dropWhile isWordChar, _, .word (List.cons_ne_nil _ _) ?_, ?_, ?_⟩, nofun⟩
    · refine List.forall_mem_cons.mpr ⟨hc, ?_⟩
      exact List.all_eq_true.mp List.all_takeWhile
    · rw [List.cons_append, List.takeWhile_append_dropWhile]
    · intro d hd
      have hnot := List.head?_dropWhile_not isWordChar r
      rw [hd] at hnot
      simpa [endsBefore] using hnot

/-! ## Reading a text -/

theorem readFrom_blank {c : Char} (h : Text.isBlank c = true) (w : Bool) (r : List Char) :
    readFrom 0 w (c :: r) = readFrom 0 w r := by
  rw [readFrom, if_pos h]

/-- Reading a text that does not begin with a blank is reading a token and then the rest. -/
theorem readFrom_eq_ok_iff {c : Char} (h : Text.isBlank c = false) {w : Bool} {r : List Char}
    {ts : List Token} : readFrom 0 w (c :: r) = .ok ts ↔ ∃ t us, read w c r = .ok t ∧
      readFrom (t.width - 1) (w || t.is .where_) r = .ok us ∧ t :: us = ts := by
  rw [readFrom, if_neg (by rw [h]; decide)]
  cases read w c r with
  | error e => simp
  | ok t => simp [map_eq_ok_iff]

theorem readFrom_eq_drop (k : Nat) (w : Bool) (cs : List Char) :
    readFrom k w cs = readFrom 0 w (cs.drop k) := by
  induction cs generalizing k with
  | nil => rw [List.drop_nil, readFrom, readFrom]
  | cons c r ih =>
    cases k with
    | zero => rfl
    | succ k =>
      rw [readFrom]
      exact ih k

theorem readFrom_token {c : Char} (h : Text.isBlank c = false) (w : Bool) (r : List Char) :
    readFrom 0 w (c :: r) = (read w c r).bind fun t =>
      (readFrom 0 (w || t.is .where_) (r.drop (t.width - 1))).map (t :: ·) := by
  rw [readFrom, if_neg (by rw [h]; decide)]
  cases read w c r with
  | error e => rfl
  | ok t => exact congrArg (·.map (t :: ·)) (readFrom_eq_drop ..)

theorem readFrom_blanks {gap : List Char} (h : ∀ c ∈ gap, Text.isBlank c = true) (w : Bool)
    (r : List Char) : readFrom 0 w (gap ++ r) = readFrom 0 w r := by
  induction gap with
  | nil => rfl
  | cons c gap ih =>
    obtain ⟨hc, hgap⟩ := List.forall_mem_cons.mp h
    rw [List.cons_append, readFrom_blank hc]
    exact ih hgap

/-- The rest of a text is what the width of the token at its head leaves. -/
theorem Heads.rest_eq {t : Token} {c : Char} {r rest : List Char} (h : t.Heads (c :: r) rest) :
    rest = r.drop (t.width - 1) := by
  obtain ⟨cs, hs, htext, -⟩ := h
  obtain ⟨d, ds, rfl, -⟩ := hs.not_isBlank
  obtain ⟨rfl, rfl⟩ := List.cons.inj htext
  have hwidth : t.width - 1 = ds.length := by
    rw [← hs.length_eq, List.length_cons, Nat.add_sub_cancel]
  rw [hwidth]
  exact List.drop_left.symm

theorem readFrom_heads {t : Token} {text rest : List Char} (h : t.Heads text rest)
    (hstray : t.isStray = false) (w : Bool) :
    readFrom 0 w text = (readFrom 0 (w || t.is .where_) rest).map (t :: ·) := by
  obtain ⟨cs, hs, rfl, -⟩ := id h
  obtain ⟨c, r, rfl, hblank⟩ := hs.not_isBlank
  have hread : read w c (r ++ rest) = .ok t := read_of_heads h hstray w
  have hrest : rest = (r ++ rest).drop (t.width - 1) := h.rest_eq
  rw [List.cons_append, readFrom_token hblank, hread, Except.bind, ← hrest]

/-- The tokens of a layout are read again, and reading goes on with whatever blanks keep apart. -/
theorem Layout.readFrom_append {ts : List Token} {cs : List Char} (h : Layout ts cs)
    (hstray : ∀ t ∈ ts, t.isStray = false) {rest : List Char}
    (hrest : ∀ c ∈ rest.head?, Text.isBlank c = true) (w : Bool) :
    readFrom 0 w (cs ++ rest) = (readFrom 0 (w || ts.any (·.is .where_)) rest).map (ts ++ ·) := by
  induction h generalizing w with
  | nil hgap =>
    rw [readFrom_blanks hgap, List.any_nil, Bool.or_false]
    cases readFrom 0 w rest <;> rfl
  | @cons gap text after t ts hgap hhead _ ih =>
    obtain ⟨ht, hts⟩ := List.forall_mem_cons.mp hstray
    have hhead' : t.Heads (text ++ rest) (after ++ rest) := by
      obtain ⟨cs, hs, rfl, hend⟩ := hhead
      refine ⟨cs, hs, List.append_assoc .., fun c hc => ?_⟩
      cases after with
      | nil => exact endsBefore_of_isBlank (hrest c hc) t
      | cons d r => exact hend c hc
    rw [List.append_assoc, readFrom_blanks hgap, readFrom_heads hhead' ht, ih hts, List.any_cons,
      Bool.or_assoc]
    cases readFrom 0 (w || (t.is .where_ || ts.any (·.is .where_))) rest <;> rfl

theorem Layout.readFrom_eq {ts : List Token} {cs : List Char} (h : Layout ts cs)
    (hstray : ∀ t ∈ ts, t.isStray = false) (w : Bool) : readFrom 0 w cs = .ok ts := by
  have hnone : ∀ c ∈ ([] : List Char).head?, Text.isBlank c = true := nofun
  have hread := h.readFrom_append hstray hnone w
  rw [List.append_nil, readFrom] at hread
  rw [hread, Except.map, List.append_nil]

theorem Layout.blank {c : Char} (hc : Text.isBlank c = true) {ts : List Token} {cs : List Char}
    (h : Layout ts cs) : Layout ts (c :: cs) := by
  cases h with
  | nil hgap => exact .nil (List.forall_mem_cons.mpr ⟨hc, hgap⟩)
  | cons hgap hhead hrest =>
    have hmore := Layout.cons (List.forall_mem_cons.mpr ⟨hc, hgap⟩) hhead hrest
    exact hmore

/-- A text that is read is a layout of its tokens, with nothing left out and nothing added. -/
theorem layout_of_readFrom {k : Nat} {w : Bool} {cs : List Char} {ts : List Token}
    (h : readFrom k w cs = .ok ts) : Layout ts (cs.drop k) := by
  induction cs generalizing k w ts with
  | nil =>
    rw [readFrom] at h
    cases h
    exact .nil (by simp)
  | cons c r ih =>
    cases k with
    | succ k => exact ih h
    | zero =>
      cases hc : Text.isBlank c with
      | true =>
        rw [readFrom_blank hc] at h
        exact (ih h).blank hc
      | false =>
        obtain ⟨t, us, ht, hus, rfl⟩ := (readFrom_eq_ok_iff hc).mp h
        obtain ⟨rest, hhead⟩ := (heads_of_read hc ht).1
        have hnone : ∀ d ∈ ([] : List Char), Text.isBlank d = true := nofun
        have hlayout := Layout.cons hnone hhead (hhead.rest_eq ▸ ih hus)
        exact hlayout

theorem layout_of_tokenize {cs : List Char} {ts : List Token} (h : tokenize cs = .ok ts) :
    Layout ts cs := by
  have hlayout := layout_of_readFrom h
  rwa [List.drop_zero] at hlayout

/-- Up to the word WHERE there are no strays. -/
theorem isStray_of_readFrom {k : Nat} {cs : List Char} {ts : List Token}
    (h : readFrom k false cs = .ok ts) (hwhere : ∀ t ∈ ts, t.is .where_ = false) :
    ∀ t ∈ ts, t.isStray = false := by
  induction cs generalizing k ts with
  | nil =>
    rw [readFrom] at h
    cases h
    nofun
  | cons c r ih =>
    cases k with
    | succ k => exact ih h hwhere
    | zero =>
      cases hc : Text.isBlank c with
      | true =>
        rw [readFrom_blank hc] at h
        exact ih h hwhere
      | false =>
        obtain ⟨t, us, ht, hus, rfl⟩ := (readFrom_eq_ok_iff hc).mp h
        obtain ⟨hfirst, hrest⟩ := List.forall_mem_cons.mp hwhere
        rw [hfirst] at hus
        refine List.forall_mem_cons.mpr ⟨?_, ih hus hrest⟩
        rw [Bool.eq_false_iff]
        exact fun hstray => Bool.false_ne_true ((heads_of_read hc ht).2 hstray)

/-- After the word WHERE any character can be read. -/
theorem exists_read_of_where (c : Char) (r : List Char) : ∃ t, read true c r = .ok t := by
  rw [read]
  repeat' split
  all_goals exact ⟨_, rfl⟩

theorem exists_readFrom_of_where (k : Nat) (cs : List Char) :
    ∃ ts, readFrom k true cs = .ok ts := by
  induction cs generalizing k with
  | nil => exact ⟨[], by rw [readFrom]⟩
  | cons c r ih =>
    cases k with
    | succ k => exact ih k
    | zero =>
      cases hc : Text.isBlank c with
      | true =>
        rw [readFrom_blank hc]
        exact ih 0
      | false =>
        obtain ⟨t, ht⟩ := exists_read_of_where c r
        obtain ⟨us, hus⟩ := ih (t.width - 1)
        exact ⟨t :: us, (readFrom_eq_ok_iff hc).mpr ⟨t, us, ht, hus, rfl⟩⟩

theorem Layout.spelling_of_mem {ts : List Token} {cs : List Char} (h : Layout ts cs) {t : Token}
    (ht : t ∈ ts) : ∃ spelled, Spelling t spelled := by
  induction h with
  | nil => cases ht
  | cons _ hhead _ ih =>
    rcases List.mem_cons.mp ht with rfl | ht
    · exact hhead.imp fun _ h => h.1
    · exact ih ht

end Token

end NoteIndex.Query
