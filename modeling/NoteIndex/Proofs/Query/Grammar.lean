import NoteIndex.Proofs.Query.Tokens
import NoteIndex.Proofs.Tag
import NoteIndex.Query.Reading

/-!
# The grammar of queries

How a query is written, clause by clause, first in tokens and then in text. Any text of a query is
read as that query. The readers go from left to right and look one token ahead, so that each clause
is read rightly by itself once what follows it is known to begin with the keyword of a later one.
-/

namespace NoteIndex.Query

/-! ## Keywords -/

namespace Keyword

/-- The keywords that begin a clause. -/
def clauses : List Keyword := [.from_, .where_, .order, .limit]

def all : List Keyword :=
  [.list, .table, .task, .count, .from_, .where_, .order, .limit, .or_, .and_, .not_, .by_, .asc,
    .desc]

theorem mem_all (k : Keyword) : k ∈ all := by cases k <;> decide

theorem spelling_injective {j k : Keyword} (h : j.spelling = k.spelling) : j = k :=
  List.inj_on_of_nodup_map (f := spelling) (l := all) (by decide) (mem_all j) (mem_all k) h

end Keyword

namespace Token

theorem is_word_iff (k : Keyword) (cs : List Char) :
    (Token.word cs).is k = true ↔ cs.map Char.toUpper = k.spelling := beq_iff_eq

/-- No word is two keywords. -/
theorem is_of_ne {t : Token} {j k : Keyword} (h : t.is j = true) (hne : j ≠ k) :
    t.is k = false := by
  cases t with
  | word cs =>
    rw [Bool.eq_false_iff, Ne, is_word_iff]
    rw [is_word_iff] at h
    exact fun he => hne (Keyword.spelling_injective (h.symm.trans he))
  | _ => cases h

theorem beginsClause_iff (t : Token) :
    t.beginsClause = true ↔ ∃ k ∈ Keyword.clauses, t.is k = true := by
  simp [beginsClause, Keyword.clauses, or_assoc]

end Token

/-- The tokens begin with one of the keywords, if there are any. -/
def Follows (ks : List Keyword) (ts : List Token) : Prop :=
  ∀ t ∈ ts.head?, ∃ k ∈ ks, t.is k = true

namespace Follows

variable {ks : List Keyword} {t : Token} {ts : List Token}

theorem nil : Follows ks [] := nofun

theorem cons {k : Keyword} (hk : k ∈ ks) (h : t.is k = true) : Follows ks (t :: ts) := by
  rintro _ ⟨⟩
  exact ⟨k, hk, h⟩

theorem mono {js : List Keyword} (hsub : ∀ k ∈ ks, k ∈ js) (h : Follows ks ts) : Follows js ts :=
  fun t ht => (h t ht).imp fun k hk => ⟨hsub k hk.1, hk.2⟩

/-- They do not begin with any other keyword. -/
theorem is_eq_false (h : Follows ks ts) {k : Keyword} (hk : k ∉ ks) :
    ∀ t ∈ ts.head?, t.is k = false := by
  intro t ht
  obtain ⟨j, hj, hjt⟩ := h t ht
  exact Token.is_of_ne hjt fun he => hk (he ▸ hj)

theorem eat_eq_none (h : Follows ks ts) {k : Keyword} (hk : k ∉ ks) : eat k ts = none := by
  cases ts with
  | nil => rfl
  | cons t ts =>
    rw [eat, h.is_eq_false hk t rfl]
    rfl

end Follows

theorem eat_cons {k : Keyword} {t : Token} (h : t.is k = true) (ts : List Token) :
    eat k (t :: ts) = some ts := if_pos h

theorem eat_cons_of_not {k : Keyword} {t : Token} (h : t.is k = false) (ts : List Token) :
    eat k (t :: ts) = none := if_neg (by rw [h]; decide)

theorem eat_subset {k : Keyword} {ts us : List Token} (h : eat k ts = some us) : us ⊆ ts := by
  cases ts with
  | nil => cases h
  | cons t ts =>
    rw [eat] at h
    split at h
    · cases h
      exact List.subset_cons_self t _
    · cases h

/-! ## The grammar -/

/-- Parts with a keyword between each two of them. -/
inductive Joined {α : Type} (k : Keyword) (part : α → List Token → Prop) :
    List α → List Token → Prop where
  | one {a : α} {ts : List Token} : part a ts → Joined k part [a] ts
  | more {a : α} {as : List α} {ts us : List Token} {t : Token} :
      part a ts → t.is k = true → Joined k part as us → Joined k part (a :: as) (ts ++ t :: us)

namespace Joined

variable {α : Type} {k : Keyword} {part : α → List Token → Prop} {as : List α} {ts : List Token}

theorem imp {part' : α → List Token → Prop} (himp : ∀ {a ts}, part a ts → part' a ts)
    (h : Joined k part as ts) : Joined k part' as ts := by
  induction h with
  | one ha => exact .one (himp ha)
  | more ha ht _ ih => exact .more (himp ha) ht ih

theorem forall_mem {p : Token → Prop} (hpart : ∀ {a ts}, part a ts → ∀ t ∈ ts, p t)
    (hk : ∀ t, t.is k = true → p t) (h : Joined k part as ts) : ∀ t ∈ ts, p t := by
  induction h with
  | one ha => exact hpart ha
  | more ha ht _ ih =>
    exact List.forall_mem_append.mpr ⟨hpart ha, List.forall_mem_cons.mpr ⟨hk _ ht, ih⟩⟩

theorem exists_part (h : Joined k part as ts) : ∀ a ∈ as, ∃ us, part a us ∧ us ⊆ ts := by
  induction h with
  | one ha => exact List.forall_mem_singleton.mpr ⟨_, ha, List.Subset.refl _⟩
  | more ha _ _ ih =>
    refine List.forall_mem_cons.mpr ⟨⟨_, ha, List.subset_append_left _ _⟩, fun b hb => ?_⟩
    obtain ⟨us, hus, hsub⟩ := ih b hb
    exact ⟨us, hus, fun t ht => List.mem_append_right _ (List.mem_cons_of_mem _ (hsub ht))⟩

end Joined

/-- A clause after its keyword, or left out. -/
inductive Clause {α : Type} (k : Keyword) (absent : α) (body : α → List Token → Prop) :
    α → List Token → Prop where
  | absent : Clause k absent body absent []
  | present {a : α} {t : Token} {ts : List Token} :
      t.is k = true → body a ts → Clause k absent body a (t :: ts)

/-- Names of fields, which are words that begin no clause, with or without commas. -/
inductive Fields : List String → List Token → Prop where
  | nil : Fields [] []
  | comma {names : List String} {ts : List Token} :
      Fields names ts → Fields names (.comma :: ts)
  | name {name : String} {names : List String} {ts : List Token} :
      (Token.word name.toList).beginsClause = false → Fields names ts →
      Fields (name :: names) (.word name.toList :: ts)

def Shape.keyword : Shape → Keyword
  | .list => .list
  | .table => .table
  | .task => .task
  | .count => .count

/-- The shape of a query, which is a list if nothing is said, and the fields of a table. -/
inductive Head : Shape → List String → List Token → Prop where
  | absent : Head .list [] []
  | shape {s : Shape} {t : Token} : s ≠ .table → t.is s.keyword = true → Head s [] [t]
  | table {names : List String} {t : Token} {ts : List Token} :
      t.is .table = true → Fields names ts → Head .table names (t :: ts)

/-- A hash sign and a word not all of such, or the beginning of a path in quotes. -/
inductive SourceText : Source → List Token → Prop where
  | tag {word : List Char} :
      (∀ c ∈ word, Token.isWordChar c = true) → (∃ c ∈ word, c ≠ '#') →
      SourceText (.tag ⟨String.ofList (Text.lower (word.dropWhile (· == '#')))⟩)
        [.word ('#' :: word)]
  | path (start : String) : SourceText (.path start) [.quoted start.toList]

inductive OperatorText : Operator → Token → Prop where
  | sign (s : Sign) : OperatorText s.operator (.sign s)
  | contains {cs : List Char} :
      cs.map Char.toLower = "contains".toList → OperatorText .contains (.word cs)
  | oneOf {cs : List Char} : cs.map Char.toLower = "in".toList → OperatorText .oneOf (.word cs)

/-- Text in quotes stands for itself, words and lists for the literals they write. -/
inductive LiteralText : Value → Token → Prop where
  | quoted (s : String) : LiteralText (.string s) (.quoted s.toList)
  | word (s : String) : LiteralText (parseValue s) (.word s.toList)
  | list (s : String) : LiteralText (parseValue s) (.list s.toList)

/-- A field alone, or compared with a literal. -/
inductive Test : Condition → List Token → Prop where
  | present (field : String) : Test (.isPresent field) [.word field.toList]
  | compare {field : String} {o : Operator} {v : Value} {sign literal : Token} :
      OperatorText o sign → LiteralText v literal →
      Test ⟨field, o, v, false⟩ [.word field.toList, sign, literal]

/-- A test, or one turned round by an exclamation mark or the word NOT. -/
inductive ConditionText : Condition → List Token → Prop where
  | plain {c : Condition} {ts : List Token} :
      (∀ t ∈ ts.head?, t.is .not_ = false) → Test c ts → ConditionText c ts
  | negated {c : Condition} {t : Token} {ts : List Token} :
      t = .bang ∨ t.is .not_ = true → Test c ts →
      ConditionText { c with negated := true } (t :: ts)

/-- A condition without any of the words that would end it. -/
def WhereText (c : Condition) (ts : List Token) : Prop :=
  ConditionText c ts ∧
    ∀ t ∈ ts, t.is .and_ = false ∧ t.is .order = false ∧ t.is .limit = false

/-- What follows ORDER: the word BY, a field and a direction, upwards if there is none. -/
inductive OrderText : Option Order → List Token → Prop where
  | plain {field : String} {b : Token} :
      b.is .by_ = true → (Token.word field.toList).beginsClause = false →
      OrderText (some ⟨field, false⟩) [b, .word field.toList]
  | ascending {field : String} {b d : Token} :
      b.is .by_ = true → (Token.word field.toList).beginsClause = false → d.is .asc = true →
      OrderText (some ⟨field, false⟩) [b, .word field.toList, d]
  | descending {field : String} {b d : Token} :
      b.is .by_ = true → (Token.word field.toList).beginsClause = false → d.is .desc = true →
      OrderText (some ⟨field, true⟩) [b, .word field.toList, d]

inductive LimitText : Option Nat → List Token → Prop where
  | digits {ds : List Char} :
      ds ≠ [] → (∀ d ∈ ds, d.isDigit = true) → Number.digitsValue ds < 2 ^ 64 →
      LimitText (some (Number.digitsValue ds)) [.word ds]

/-- How a query is written in tokens. -/
inductive Written : Query → List Token → Prop where
  | clauses {shape : Shape} {fields : List String} {sources : List Source}
      {conditions : List Condition} {order : Option Order} {limit : Option Nat}
      {hs fs ws os ls : List Token} :
      Head shape fields hs → Clause .from_ [] (Joined .or_ SourceText) sources fs →
      Clause .where_ [] (Joined .and_ WhereText) conditions ws →
      Clause .order none OrderText order os → Clause .limit none LimitText limit ls →
      Written ⟨shape, fields, sources, conditions, order, limit⟩
        (hs ++ (fs ++ (ws ++ (os ++ ls))))

/-! ## Reading part by part -/

section Parts

variable {α : Type} {rest : List Token}

theorem readFields_stop {t : Token} (h : t.beginsClause = true) (ts : List Token) :
    readFields (t :: ts) = .ok ([], t :: ts) := by
  cases t with
  | word cs => rw [readFields, if_pos h]
  | _ => cases h

theorem readFields_of {names : List String} {ts : List Token} (h : Fields names ts)
    (hrest : Follows Keyword.clauses rest) : readFields (ts ++ rest) = .ok (names, rest) := by
  induction h with
  | nil =>
    cases rest with
    | nil => rfl
    | cons t r => exact readFields_stop ((Token.beginsClause_iff t).mpr (hrest t rfl)) r
  | comma _ ih =>
    rw [List.cons_append, readFields, if_neg (by decide)]
    exact ih
  | name hname _ ih =>
    rw [List.cons_append, readFields, if_neg (by rw [hname]; decide), ih]
    simp only [Except.map, String.ofList_toList]

theorem readShape_of_follows (h : Follows Keyword.clauses rest) :
    readShape rest = (none, rest) := by
  cases rest with
  | nil => rfl
  | cons t r =>
    have hnot {k : Keyword} (hk : k ∉ Keyword.clauses) : t.is k = false := h.is_eq_false hk t rfl
    rw [readShape, hnot (by decide), hnot (by decide), hnot (by decide), hnot (by decide)]
    rfl

theorem readShape_cons {s : Shape} {t : Token} (h : t.is s.keyword = true) :
    readShape (t :: rest) = (some s, rest) := by
  have hne {k : Keyword} (hk : s.keyword ≠ k) : t.is k = false := Token.is_of_ne h hk
  rw [readShape]
  cases s with
  | list => exact if_pos h
  | table =>
    rw [hne (by decide)]
    exact if_pos h
  | task =>
    rw [hne (by decide), hne (by decide)]
    exact if_pos h
  | count =>
    rw [hne (by decide), hne (by decide), hne (by decide)]
    exact if_pos h

theorem beginsClause_hash (word : List Char) :
    (Token.word ('#' :: word)).beginsClause = false := by
  rw [Bool.eq_false_iff, Ne, Token.beginsClause_iff]
  rintro ⟨k, -, h⟩
  have hhead : k.spelling.head? = some '#' := by
    rw [← (Token.is_word_iff _ _).mp h]
    rfl
  cases k <;> exact absurd hhead (by decide)

/-- The tag that a word after a hash sign names. -/
theorem ofChars?_hash {word : List Char} (hword : ∀ c ∈ word, Token.isWordChar c = true)
    (hhash : ∃ c ∈ word, c ≠ '#') : Tag.ofChars? ('#' :: word) =
      some ⟨String.ofList (Text.lower (word.dropWhile (· == '#')))⟩ := by
  have hblank : ∀ c ∈ '#' :: word, Text.isBlank c = false :=
    List.forall_mem_cons.mpr ⟨by decide, fun c hc => ((Token.isWordChar_iff c).mp (hword c hc)).1⟩
  have hnormal : Tag.normalize ('#' :: word) = Text.lower (word.dropWhile (· == '#')) :=
    Tag.normalize_of_not_blank hblank
  rw [Tag.ofChars?_eq_some_iff, hnormal, String.toList_ofList]
  refine ⟨fun hnil => ?_, rfl⟩
  obtain ⟨c, hc, hne⟩ := hhash
  have hdrop := List.dropWhile_eq_nil_iff.mp ((Text.lowerFrom_eq_nil_iff [] _).mp hnil)
  exact hne (beq_iff_eq.mp (hdrop c hc))

/-- A token that is read as a source. -/
def ReadsSource (s : Source) (ts : List Token) : Prop := ∃ t, ts = [t] ∧ readSource t = .ok s

theorem SourceText.reads {s : Source} {ts : List Token} (h : SourceText s ts) :
    ReadsSource s ts := by
  cases h with
  | tag hword hhash =>
    refine ⟨_, rfl, ?_⟩
    rw [readSource, if_neg (by rw [beginsClause_hash]; decide), ofChars?_hash hword hhash]
  | path start =>
    refine ⟨_, rfl, ?_⟩
    rw [readSource, if_neg (by exact Bool.false_ne_true), String.ofList_toList]

theorem readSources_of {ss : List Source} {ts : List Token} (h : Joined .or_ ReadsSource ss ts)
    (hrest : ∀ t ∈ rest.head?, t.is .or_ = false) :
    readSources (ts ++ rest) = .ok (ss, rest) := by
  induction h with
  | one hs =>
    obtain ⟨t, rfl, ht⟩ := hs
    rw [List.singleton_append, readSources, ht]
    cases rest with
    | nil => rfl
    | cons o r => simp [hrest o rfl]
  | more hs ho _ ih =>
    obtain ⟨t, rfl, ht⟩ := hs
    rw [List.singleton_append, List.cons_append, List.cons_append, readSources, ht]
    simp only [ho, if_true, ih, Except.map]

/-- Sources are read up to where the word OR fails to follow one. -/
theorem joined_of_readSources {ts rest : List Token} {ss : List Source}
    (h : readSources ts = .ok (ss, rest)) : ∃ us, ts = us ++ rest ∧ Joined .or_ ReadsSource ss us ∧
      ∀ t ∈ rest.head?, t.is .or_ = false := by
  induction ts using readSources.induct generalizing ss rest with
  | case1 => cases h
  | case2 t ts e he =>
    rw [readSources, he] at h
    cases h
  | case3 t s hs =>
    rw [readSources, hs] at h
    cases h
    exact ⟨[t], rfl, .one ⟨t, rfl, hs⟩, by simp⟩
  | case4 t s hs o ts ho ih =>
    rw [readSources, hs] at h
    simp only [ho, if_true] at h
    obtain ⟨⟨ss', r'⟩, hr, ⟨⟩⟩ := map_eq_ok_iff.mp h
    obtain ⟨us, rfl, hjoined, hrest⟩ := ih hr
    exact ⟨[t] ++ o :: us, rfl, .more ⟨t, rfl, hs⟩ ho hjoined, hrest⟩
  | case5 t s hs o ts ho =>
    rw [readSources, hs] at h
    simp only [if_neg ho] at h
    cases h
    exact ⟨[t], rfl, .one ⟨t, rfl, hs⟩, by simpa using ho⟩

theorem operator?_eq_some_iff (t : Token) (o : Operator) :
    operator? t = some o ↔ OperatorText o t := by
  constructor
  · intro h
    cases t with
    | sign s =>
      cases h
      exact .sign s
    | word cs =>
      rw [operator?] at h
      split at h
      · cases h
        exact .contains ‹_›
      split at h
      · cases h
        exact .oneOf ‹_›
      · cases h
    | _ => cases h
  · intro h
    cases h with
    | sign s => rfl
    | contains h =>
      rw [operator?]
      exact if_pos h
    | oneOf h =>
      rw [operator?]
      exact (if_neg (by rw [h]; decide)).trans (if_pos h)

theorem literal?_eq_some_iff (t : Token) (v : Value) :
    literal? t = some v ↔ LiteralText v t := by
  constructor
  · intro h
    cases t with
    | quoted inner =>
      cases h
      have := LiteralText.quoted (String.ofList inner)
      rwa [String.toList_ofList] at this
    | word cs =>
      cases h
      have := LiteralText.word (String.ofList cs)
      rwa [parseValue, String.toList_ofList] at this
    | list raw =>
      cases h
      have := LiteralText.list (String.ofList raw)
      rwa [parseValue, String.toList_ofList] at this
    | _ => cases h
  · rintro (s | s | s)
    · rw [literal?, String.ofList_toList]
    · rfl
    · rfl

/-- A test is read from just the tokens that write it. -/
theorem readTest?_eq_some_iff (negated : Bool) (ts : List Token) (c : Condition) :
    readTest? negated ts = some c ↔ ∃ d, Test d ts ∧ c = { d with negated } := by
  constructor
  · intro h
    rw [readTest?.eq_def] at h
    split at h
    · rename_i field
      cases h
      have := Test.present (String.ofList field)
      rw [String.toList_ofList] at this
      exact ⟨_, this, rfl⟩
    · rename_i field sign value
      obtain ⟨o, ho, h⟩ := Option.bind_eq_some_iff.mp h
      obtain ⟨v, hv, h⟩ := Option.bind_eq_some_iff.mp h
      cases h
      have htest : Test ⟨String.ofList field, o, v, false⟩
          [.word (String.ofList field).toList, sign, value] :=
        .compare ((operator?_eq_some_iff _ _).mp ho) ((literal?_eq_some_iff _ _).mp hv)
      rw [String.toList_ofList] at htest
      exact ⟨_, htest, rfl⟩
    · cases h
  · rintro ⟨d, hd, rfl⟩
    cases hd with
    | present field => rw [readTest?, String.ofList_toList]
    | compare ho hv =>
      rw [readTest?, (operator?_eq_some_iff _ _).mpr ho, (literal?_eq_some_iff _ _).mpr hv,
        String.ofList_toList]
      rfl

theorem Test.negated_eq {c : Condition} {ts : List Token} (h : Test c ts) :
    { c with negated := false } = c := by
  cases h <;> rfl

/-- A condition is read from just the tokens that write it. -/
theorem readCondition?_eq_some_iff (ts : List Token) (c : Condition) :
    readCondition? ts = some c ↔ ConditionText c ts := by
  cases ts with
  | nil =>
    refine iff_of_false nofun fun h => ?_
    cases h with
    | plain _ h => cases h
  | cons t r =>
    rw [readCondition?]
    by_cases ht : t = .bang ∨ t.is .not_ = true
    · rw [if_pos ht, readTest?_eq_some_iff]
      constructor
      · rintro ⟨d, hd, rfl⟩
        exact .negated ht hd
      · intro h
        cases h with
        | negated _ hd => exact ⟨_, hd, rfl⟩
        | plain hnot hd =>
          rcases ht with rfl | ht
          · cases hd
          · exact absurd (ht.symm.trans (hnot t rfl)) (by decide)
    · rw [if_neg ht, readTest?_eq_some_iff]
      rw [not_or, Bool.not_eq_true] at ht
      constructor
      · rintro ⟨d, hd, rfl⟩
        rw [hd.negated_eq]
        refine .plain ?_ hd
        rintro _ ⟨⟩
        exact ht.2
      · intro h
        cases h with
        | plain _ hd => exact ⟨c, hd, hd.negated_eq.symm⟩
        | negated hneg _ =>
          rcases hneg with hbang | hnot
          · exact absurd hbang ht.1
          · exact absurd (hnot.symm.trans ht.2) (by decide)

/-- Several conditions are read as one for each of the groups between the words AND. -/
theorem splitGroups_of_none {ts : List Token} (h : ∀ t ∈ ts, t.is .and_ = false) :
    splitGroups ts = [ts] := by
  induction ts with
  | nil => rfl
  | cons t r ih =>
    obtain ⟨ht, hr⟩ := List.forall_mem_cons.mp h
    rw [splitGroups, if_neg (by rw [ht]; decide), ih hr]

theorem splitGroups_append {ts us : List Token} {a : Token} (h : ∀ t ∈ ts, t.is .and_ = false)
    (ha : a.is .and_ = true) : splitGroups (ts ++ a :: us) = ts :: splitGroups us := by
  induction ts with
  | nil => rw [List.nil_append, splitGroups, if_pos ha]
  | cons t r ih =>
    obtain ⟨ht, hr⟩ := List.forall_mem_cons.mp h
    rw [List.cons_append, splitGroups, if_neg (by rw [ht]; decide), ih hr]

theorem readConditions_of {cs : List Condition} {ts : List Token}
    (h : Joined .and_ WhereText cs ts) : readConditions ts = cs := by
  have hgroups : (splitGroups ts).mapM readCondition? = some cs := by
    induction h with
    | one hc =>
      rw [splitGroups_of_none fun t ht => (hc.2 t ht).1, List.mapM_cons,
        (readCondition?_eq_some_iff _ _).mpr hc.1]
      rfl
    | more hc ha _ ih =>
      rw [splitGroups_append (fun t ht => (hc.2 t ht).1) ha, List.mapM_cons,
        (readCondition?_eq_some_iff _ _).mpr hc.1, ih]
      rfl
  rw [readConditions, hgroups, Option.getD_some]

theorem clause_of {k : Keyword} {absent a : α} {body : α → List Token → Prop}
    {read : List Token → Except Error (α × List Token)} {ts : List Token} {ks : List Keyword}
    (h : Clause k absent body a ts) (hrest : Follows ks rest) (hk : k ∉ ks)
    (hbody : ∀ {a ts}, body a ts → read (ts ++ rest) = .ok (a, rest)) :
    clause k absent read (ts ++ rest) = .ok (a, rest) := by
  cases h with
  | absent => rw [List.nil_append, clause, hrest.eat_eq_none hk]
  | present ht hts =>
    rw [List.cons_append, clause, eat_cons ht]
    exact hbody hts

theorem Clause.follows {k : Keyword} {absent a : α} {body : α → List Token → Prop}
    {ts : List Token} {ks : List Keyword} (h : Clause k absent body a ts)
    (hrest : Follows ks rest) : Follows (k :: ks) (ts ++ rest) := by
  cases h with
  | absent => exact hrest.mono fun _ => List.mem_cons_of_mem k
  | present ht _ => exact .cons List.mem_cons_self ht

/-- What a WHERE clause comes to: all tokens up to the next clause are its own. -/
def readWhere (ts : List Token) : Except Error (List Condition × List Token) :=
  .ok (readConditions (ts.takeWhile (!endsWhere ·)), ts.dropWhile (!endsWhere ·))

theorem readWhere_append {ts : List Token} (h : ∀ t ∈ ts, endsWhere t = false)
    (hrest : Follows [.order, .limit] rest) :
    readWhere (ts ++ rest) = .ok (readConditions ts, rest) := by
  have hts : ∀ t ∈ ts, (!endsWhere t) = true := fun t ht => by rw [h t ht]; rfl
  have htake : rest.takeWhile (!endsWhere ·) = [] ∧ rest.dropWhile (!endsWhere ·) = rest := by
    cases rest with
    | nil => exact ⟨rfl, rfl⟩
    | cons t r =>
      have ht : endsWhere t = true := by
        simpa [endsWhere] using hrest t rfl
      rw [List.takeWhile_cons_of_neg (by simp [ht]), List.dropWhile_cons_of_neg (by simp [ht])]
      exact ⟨rfl, rfl⟩
  rw [readWhere, List.takeWhile_append_of_pos hts, List.dropWhile_append_of_pos hts, htake.1,
    htake.2, List.append_nil]

theorem readWhere_of {cs : List Condition} {ts : List Token} (h : Joined .and_ WhereText cs ts)
    (hrest : Follows [.order, .limit] rest) : readWhere (ts ++ rest) = .ok (cs, rest) := by
  have hends : ∀ t ∈ ts, endsWhere t = false := by
    refine h.forall_mem (fun hc t ht => ?_) fun t ht => ?_
    · rw [endsWhere, (hc.2 t ht).2.1, (hc.2 t ht).2.2]
      rfl
    · rw [endsWhere, Token.is_of_ne ht (by decide), Token.is_of_ne ht (by decide)]
      rfl
  rw [readWhere_append hends hrest, readConditions_of h]

/-- The reader of a clause that may be absent. -/
def given (read : List Token → Except Error (α × List Token)) (ts : List Token) :
    Except Error (Option α × List Token) :=
  (read ts).map fun p => (some p.1, p.2)

theorem readOrder_of {o : Option Order} {ts : List Token} (h : OrderText o ts)
    (hrest : Follows [.limit] rest) : given readOrder (ts ++ rest) = .ok (o, rest) := by
  cases h with
  | plain hb hfield =>
    simp [given, readOrder, eat_cons hb, hfield, hrest.eat_eq_none, Except.map]
  | @ascending _ _ d hb hfield hd =>
    have hnot : d.is .desc = false := Token.is_of_ne hd (by decide)
    simp [given, readOrder, eat_cons hb, hfield, eat_cons_of_not hnot, eat_cons hd, Except.map]
  | descending hb hfield hd =>
    simp [given, readOrder, eat_cons hb, hfield, eat_cons hd, Except.map]

theorem index?_digits {ds : List Char} (hne : ds ≠ []) (hds : ∀ d ∈ ds, d.isDigit = true)
    (hlt : Number.digitsValue ds < 2 ^ 64) : Value.index? ds = some (Number.digitsValue ds) := by
  have hall : ds.all Char.isDigit = true := List.all_eq_true.mpr hds
  have hempty : ds.isEmpty = false := List.isEmpty_eq_false_iff.mpr hne
  rw [Value.index?.eq_def]
  split
  · exact absurd (hds '+' List.mem_cons_self) (by decide)
  · simp only [hempty, hall]
    exact if_pos hlt

theorem readLimit_of {n : Option Nat} {ts : List Token} (h : LimitText n ts) :
    given readLimit (ts ++ rest) = .ok (n, rest) := by
  cases h with
  | digits hne hds hlt =>
    simp [given, readLimit, index?_digits hne hds hlt, Except.map]

end Parts

/-! ## Reading a query -/

/-- What comes before the clauses: the shape, and the fields of a table. -/
def readHead (ts : List Token) : Except Error ((Shape × List String) × List Token) :=
  let shape := (readShape ts).1.getD .list
  if shape = .table then (readFields (readShape ts).2).map fun p => ((shape, p.1), p.2)
  else .ok ((shape, []), (readShape ts).2)

def readClauses (shape : Shape) (fields : List String) (ts : List Token) : Except Error Query := do
  let (sources, ts) ← clause .from_ [] readSources ts
  let (conditions, ts) ← clause .where_ [] readWhere ts
  let (order, ts) ← clause .order none (given readOrder) ts
  let (limit, ts) ← clause .limit none (given readLimit) ts
  match ts with
  | [] => .ok { shape, fields, sources, conditions, order, limit }
  | t :: _ => .error (.unexpected t.text)

theorem readTokens_eq (ts : List Token) :
    readTokens ts = (readHead ts).bind fun p => readClauses p.1.1 p.1.2 p.2 := by
  simp only [readTokens, readHead]
  split
  · cases readFields (readShape ts).2 <;> rfl
  · rfl

theorem readClauses_eq_ok_iff {s : Shape} {fields : List String} {ts : List Token} {q : Query} :
    readClauses s fields ts = .ok q ↔ ∃ r₁ r₂ r₃,
      clause .from_ [] readSources ts = .ok (q.sources, r₁) ∧
      clause .where_ [] readWhere r₁ = .ok (q.conditions, r₂) ∧
      clause .order none (given readOrder) r₂ = .ok (q.order, r₃) ∧
      clause .limit none (given readLimit) r₃ = .ok (q.limit, []) ∧
      s = q.shape ∧ fields = q.fields := by
  simp only [readClauses, bind, bind_eq_ok_iff, Prod.exists]
  constructor
  · rintro ⟨sources, r₁, h₁, conditions, r₂, h₂, order, r₃, h₃, limit, r₄, h₄, h⟩
    cases r₄ with
    | nil =>
      cases h
      exact ⟨r₁, r₂, r₃, h₁, h₂, h₃, h₄, rfl, rfl⟩
    | cons t r => cases h
  · rintro ⟨r₁, r₂, r₃, h₁, h₂, h₃, h₄, rfl, rfl⟩
    exact ⟨_, r₁, h₁, _, r₂, h₂, _, r₃, h₃, _, [], h₄, rfl⟩

theorem readHead_of {s : Shape} {fields : List String} {ts rest : List Token}
    (h : Head s fields ts) (hrest : Follows Keyword.clauses rest) :
    readHead (ts ++ rest) = .ok ((s, fields), rest) := by
  cases h with
  | absent =>
    rw [List.nil_append, readHead, readShape_of_follows hrest]
    rfl
  | shape hs ht =>
    rw [List.singleton_append, readHead, readShape_cons ht]
    exact if_neg hs
  | table ht hfields =>
    rw [List.cons_append, readHead, readShape_cons (s := .table) ht]
    simp only [Option.getD_some, if_true, readFields_of hfields hrest, Except.map]

/-- Tokens that write a query are read as that query. -/
theorem readTokens_of {q : Query} {ts : List Token} (h : Written q ts) :
    readTokens ts = .ok q := by
  cases h with
  | @clauses shape fields sources conditions order limit hs fs ws os ls
      hhead hfrom hwhere horder hlimit =>
    -- each clause ends where a later one begins
    have hls : Follows [.limit] (ls ++ []) := hlimit.follows .nil
    rw [List.append_nil] at hls
    have hos : Follows [.order, .limit] (os ++ ls) := horder.follows hls
    have hws : Follows [.where_, .order, .limit] (ws ++ (os ++ ls)) := hwhere.follows hos
    have hfs : Follows Keyword.clauses (fs ++ (ws ++ (os ++ ls))) := hfrom.follows hws
    have hsources : clause .from_ [] readSources (fs ++ (ws ++ (os ++ ls))) =
        .ok (sources, ws ++ (os ++ ls)) :=
      clause_of hfrom hws (by decide) fun hss =>
        readSources_of (hss.imp SourceText.reads) (hws.is_eq_false (by decide))
    have hconditions : clause .where_ [] readWhere (ws ++ (os ++ ls)) =
        .ok (conditions, os ++ ls) :=
      clause_of hwhere hos (by decide) fun hcs => readWhere_of hcs hos
    have horders : clause .order none (given readOrder) (os ++ ls) = .ok (order, ls) :=
      clause_of horder hls (by decide) fun ho => readOrder_of ho hls
    have hlimits : clause .limit none (given readLimit) (ls ++ []) = .ok (limit, []) :=
      clause_of hlimit (Follows.nil : Follows [] []) (by decide) readLimit_of
    rw [List.append_nil] at hlimits
    rw [readTokens_eq, readHead_of hhead hfs]
    exact readClauses_eq_ok_iff.mpr ⟨_, _, _, hsources, hconditions, horders, hlimits, rfl, rfl⟩

theorem parse_eq_ok_iff {text : String} {q : Query} :
    parse text = .ok q ↔
      ∃ ts, Token.tokenize text.toList = .ok ts ∧ ts ≠ [] ∧ readTokens ts = .ok q := by
  rw [parse]
  split
  · rename_i e he
    simp [he]
  · rename_i he
    simp [he]
  · rename_i ts hne hts
    simp only [hts, Except.ok.injEq, exists_eq_left']
    exact (and_iff_right hne).symm

theorem parse_of_tokens {text : String} {q : Query} {ts : List Token}
    (hts : (Token.tokenize text.toList).toOption = some ts) (hne : ts ≠ [])
    (hq : readTokens ts = .ok q) : parse text = .ok q :=
  parse_eq_ok_iff.mpr ⟨ts, eq_ok_of_toOption hts, hne, hq⟩

/-! ## No query is written with strays -/

section Strays

theorem isStray_of_is {t : Token} {k : Keyword} (h : t.is k = true) : t.isStray = false := by
  cases t with
  | stray c => cases h
  | _ => rfl

theorem Clause.forall_mem {α : Type} {k : Keyword} {absent a : α} {body : α → List Token → Prop}
    {p : Token → Prop} (hbody : ∀ {a ts}, body a ts → ∀ t ∈ ts, p t)
    (hk : ∀ t, t.is k = true → p t) {ts : List Token} (h : Clause k absent body a ts) :
    ∀ t ∈ ts, p t := by
  cases h with
  | absent => nofun
  | present ht hts => exact List.forall_mem_cons.mpr ⟨hk _ ht, hbody hts⟩

theorem Head.isStray {s : Shape} {fields : List String} {ts : List Token}
    (h : Head s fields ts) : ∀ t ∈ ts, t.isStray = false := by
  cases h with
  | absent => nofun
  | shape _ ht => exact List.forall_mem_singleton.mpr (isStray_of_is ht)
  | table ht hfields =>
    refine List.forall_mem_cons.mpr ⟨isStray_of_is ht, ?_⟩
    induction hfields with
    | nil => nofun
    | comma _ ih => exact List.forall_mem_cons.mpr ⟨rfl, ih⟩
    | name _ _ ih => exact List.forall_mem_cons.mpr ⟨rfl, ih⟩

theorem SourceText.isStray {s : Source} {ts : List Token} (h : SourceText s ts) :
    ∀ t ∈ ts, t.isStray = false := by
  cases h <;> exact List.forall_mem_singleton.mpr rfl

theorem Test.isStray {c : Condition} {ts : List Token} (h : Test c ts) :
    ∀ t ∈ ts, t.isStray = false := by
  cases h with
  | present field => exact List.forall_mem_singleton.mpr rfl
  | compare ho hv =>
    refine List.forall_mem_cons.mpr ⟨rfl, List.forall_mem_cons.mpr ⟨?_, ?_⟩⟩
    · cases ho <;> rfl
    · cases hv <;> exact List.forall_mem_singleton.mpr rfl

theorem WhereText.isStray {c : Condition} {ts : List Token} (h : WhereText c ts) :
    ∀ t ∈ ts, t.isStray = false := by
  cases h.1 with
  | plain _ hc => exact hc.isStray
  | negated ht hc =>
    refine List.forall_mem_cons.mpr ⟨?_, hc.isStray⟩
    rcases ht with rfl | ht
    · rfl
    · exact isStray_of_is ht

theorem OrderText.isStray {o : Option Order} {ts : List Token} (h : OrderText o ts) :
    ∀ t ∈ ts, t.isStray = false := by
  cases h with
  | plain hb _ =>
    exact List.forall_mem_cons.mpr ⟨isStray_of_is hb, List.forall_mem_singleton.mpr rfl⟩
  | ascending hb _ hd | descending hb _ hd =>
    exact List.forall_mem_cons.mpr ⟨isStray_of_is hb,
      List.forall_mem_cons.mpr ⟨rfl, List.forall_mem_singleton.mpr (isStray_of_is hd)⟩⟩

theorem Written.isStray {q : Query} {ts : List Token} (h : Written q ts) :
    ∀ t ∈ ts, t.isStray = false := by
  cases h with
  | clauses hhead hfrom hwhere horder hlimit =>
    have hkeyword {k : Keyword} (t : Token) (h : t.is k = true) : t.isStray = false :=
      isStray_of_is h
    simp only [List.forall_mem_append]
    refine ⟨hhead.isStray, ?_, ?_, ?_, ?_⟩
    · exact hfrom.forall_mem (fun h => h.forall_mem SourceText.isStray hkeyword) hkeyword
    · exact hwhere.forall_mem (fun h => h.forall_mem WhereText.isStray hkeyword) hkeyword
    · exact horder.forall_mem OrderText.isStray hkeyword
    · refine hlimit.forall_mem (fun h => ?_) hkeyword
      cases h
      exact List.forall_mem_singleton.mpr rfl

end Strays

/-- Every text of a query, with the keywords in any letter case and blanks between the tokens, is
read as just that query. -/
theorem parse_of_written {q : Query} {ts : List Token} (hq : Written q ts) (hne : ts ≠ [])
    {text : String} (htext : Token.Layout ts text.toList) : parse text = .ok q := by
  have htokens : Token.tokenize text.toList = .ok ts := htext.readFrom_eq hq.isStray false
  exact parse_eq_ok_iff.mpr ⟨ts, htokens, hne, readTokens_of hq⟩

/-- Keywords in any case, a keyword for a field, commas and brackets in quotes, a list in a list,
and both ways to turn a condition round. -/
theorem parse_of_written_table :
    let ts : List Token :=
      [.word "Table".toList, .word "title".toList, .comma, .word "not".toList,
        .word "from".toList, .word "##Work".toList, .word "or".toList, .quoted "a, b".toList,
        .word "where".toList, .bang, .word "done".toList, .word "and".toList, .word "NOT".toList,
        .word "x.y".toList, .word "In".toList, .list "['x]', [y]]".toList,
        .word "order".toList, .word "BY".toList, .word "by".toList, .word "Desc".toList,
        .word "limit".toList, .word "007".toList]
    let q : Query :=
      { shape := .table
        fields := ["title", "not"]
        sources := [.tag ⟨"work"⟩, .path "a, b"]
        conditions := [⟨"done", .present, .null, true⟩,
          ⟨"x.y", .oneOf, .list [.string "x]", .list [.string "y"]], true⟩]
        order := some ⟨"by", true⟩
        limit := some 7 }
    let text := "Table title,not from ##Work or 'a, b' where !done and NOT x.y In ['x]', [y]] " ++
      "order BY by Desc limit 007"
    Written q ts ∧ ts ≠ [] ∧ Token.Layout ts text.toList ∧ parse text = .ok q := by
  intro ts q text
  have hread : (Token.tokenize text.toList).toOption = some ts := by
    -- the characters of a literal are quickly read from the list of them
    change (Token.tokenize (String.ofList _ ++ String.ofList _).toList).toOption = some ts
    rw [String.toList_append, String.toList_ofList, String.toList_ofList]
    decide
  have hlayout : Token.Layout ts text.toList := Token.layout_of_tokenize (eq_ok_of_toOption hread)
  have hhead : Head .table q.fields (ts.take 4) :=
    .table (by decide) (.name (by decide) (.comma (.name (by decide) .nil)))
  have hwork : SourceText (.tag ⟨"work"⟩) [.word "##Work".toList] :=
    @SourceText.tag "#Work".toList (List.all_eq_true.mp (by decide)) ⟨'W', by decide, by decide⟩
  have hsources : Joined .or_ SourceText q.sources
      ([.word "##Work".toList] ++ .word "or".toList :: [.quoted "a, b".toList]) :=
    .more hwork (by decide) (.one (.path "a, b"))
  have hdone : WhereText ⟨"done", .present, .null, true⟩ [.bang, .word "done".toList] :=
    ⟨.negated (.inl rfl) (.present "done"), by decide⟩
  have hlist : LiteralText (.list [.string "x]", .list [.string "y"]])
      (.list "['x]', [y]]".toList) := .list "['x]', [y]]"
  have hin : WhereText ⟨"x.y", .oneOf, .list [.string "x]", .list [.string "y"]], true⟩
      ((ts.drop 12).take 4) :=
    ⟨.negated (.inr (by decide)) (.compare (.oneOf (by decide)) hlist), by decide⟩
  have hconditions : Joined .and_ WhereText q.conditions
      ([.bang, .word "done".toList] ++ .word "and".toList :: (ts.drop 12).take 4) :=
    .more hdone (by decide) (.one hin)
  have hlimit : LimitText q.limit [.word "007".toList] :=
    @LimitText.digits "007".toList (by decide) (List.all_eq_true.mp (by decide)) (by decide)
  have hq : Written q ts :=
    .clauses hhead (.present (by decide) hsources) (.present (by decide) hconditions)
      (.present (by decide) (.descending (by decide) (by decide) (by decide)))
      (.present (by decide) hlimit)
  have hne : ts ≠ [] := List.cons_ne_nil _ _
  exact ⟨hq, hne, hlayout, parse_of_written hq hne hlayout⟩

end NoteIndex.Query
