import NoteIndex.Proofs.Query.Grammar

/-!
# The leniency of WHERE

Any text may follow the word WHERE. Characters that begin no token are strays there, and conditions
that cannot be understood are dropped, so that a query which is read goes on being read when a WHERE
clause is put to its end. The readers of what comes before the clause stop where they stopped
without it.
-/

namespace NoteIndex.Query

/-! ## Readers that stop at a clause -/

/-- What the reader leaves is the end of the tokens, and it leaves a later clause as well. -/
def Stops {α : Type} (read : List Token → Except Error (α × List Token)) : Prop :=
  ∀ {ts a r}, read ts = .ok (a, r) →
    r <:+ ts ∧ ∀ us, Follows [.where_] us → read (ts ++ us) = .ok (a, r ++ us)

theorem readFields_stops : Stops readFields := by
  intro ts names r h
  induction ts generalizing names r with
  | nil =>
    cases h
    refine ⟨List.suffix_rfl, fun us hus => readFields_of .nil (hus.mono (by decide))⟩
  | cons t ts ih =>
    cases hbegins : t.beginsClause with
    | true =>
      rw [readFields_stop hbegins] at h
      cases h
      exact ⟨List.suffix_rfl, fun us _ => readFields_stop hbegins _⟩
    | false =>
      cases t with
      | word cs =>
        rw [readFields, if_neg (by rw [hbegins]; decide)] at h
        obtain ⟨⟨names', r'⟩, hr, ⟨⟩⟩ := map_eq_ok_iff.mp h
        obtain ⟨hsuffix, hmore⟩ := ih hr
        refine ⟨hsuffix.trans (List.suffix_cons _ _), fun us hus => ?_⟩
        rw [List.cons_append, readFields, if_neg (by rw [hbegins]; decide), hmore us hus]
        rfl
      | comma =>
        obtain ⟨hsuffix, hmore⟩ := ih h
        exact ⟨hsuffix.trans (List.suffix_cons _ _), hmore⟩
      | _ => cases h

theorem readSources_stops : Stops readSources := by
  intro ts ss r h
  obtain ⟨us, rfl, hjoined, hr⟩ := joined_of_readSources h
  refine ⟨List.suffix_append us r, fun vs hvs => ?_⟩
  rw [List.append_assoc]
  refine readSources_of hjoined ?_
  cases r with
  | nil => exact hvs.is_eq_false (by decide)
  | cons t r => exact hr

theorem clause_stops {α : Type} {k : Keyword} (hk : k ≠ .where_) (absent : α)
    {read : List Token → Except Error (α × List Token)} (hread : Stops read) :
    Stops (clause k absent read) := by
  intro ts a r h
  cases ts with
  | nil =>
    cases h
    refine ⟨List.suffix_rfl, fun us hus => ?_⟩
    rw [List.nil_append, clause, hus.eat_eq_none (by simpa using hk)]
  | cons t ts =>
    cases ht : t.is k with
    | true =>
      rw [clause, eat_cons ht] at h
      obtain ⟨hsuffix, hmore⟩ := hread h
      refine ⟨hsuffix.trans (List.suffix_cons _ _), fun us hus => ?_⟩
      rw [List.cons_append, clause, eat_cons ht]
      exact hmore us hus
    | false =>
      rw [clause, eat_cons_of_not ht] at h
      cases h
      refine ⟨List.suffix_rfl, fun us _ => ?_⟩
      rw [List.cons_append, clause, eat_cons_of_not ht]

theorem readShape_append (ts : List Token) {us : List Token} (hus : Follows [.where_] us) :
    (readShape ts).2 <:+ ts ∧
      readShape (ts ++ us) = ((readShape ts).1, (readShape ts).2 ++ us) := by
  cases ts with
  | nil => exact ⟨List.suffix_rfl, readShape_of_follows (hus.mono (by decide))⟩
  | cons t ts =>
    rw [List.cons_append]
    simp only [readShape]
    repeat' split
    all_goals simp

theorem readHead_stops : Stops readHead := by
  intro ts p r h
  have happend {us : List Token} (hus : Follows [.where_] us) := (readShape_append ts hus).2
  have hshape := (readShape_append ts .nil).1
  simp only [readHead] at h
  split at h
  · rename_i htable
    obtain ⟨⟨names, r'⟩, hr, ⟨⟩⟩ := map_eq_ok_iff.mp h
    obtain ⟨hsuffix, hmore⟩ := readFields_stops hr
    refine ⟨hsuffix.trans hshape, fun us hus => ?_⟩
    simp only [readHead, happend hus, if_pos htable, hmore us hus]
    rfl
  · rename_i htable
    cases h
    refine ⟨hshape, fun us hus => ?_⟩
    simp only [readHead, happend hus, if_neg htable]

theorem clause_eq_none {α : Type} {k : Keyword}
    {read : List Token → Except Error (α × List Token)} {ts r : List Token}
    (h : clause k none (given read) ts = .ok (none, r)) : r = ts ∧ eat k ts = none := by
  rw [clause] at h
  split at h
  · obtain ⟨_, -, ⟨⟩⟩ := map_eq_ok_iff.mp h
  · rename_i hnone
    cases h
    exact ⟨rfl, hnone⟩

/-- With a WHERE clause put to its end a query is the same but for the conditions. -/
theorem readTokens_where {ts us : List Token} {q : Query} {t : Token}
    (h : readTokens ts = .ok q) (hwhere : ∀ t ∈ ts, t.is .where_ = false) (horder : q.order = none)
    (hlimit : q.limit = none) (ht : t.is .where_ = true) (hus : ∀ u ∈ us, endsWhere u = false) :
    readTokens (ts ++ t :: us) = .ok { q with conditions := readConditions us } := by
  rw [readTokens_eq] at h
  obtain ⟨⟨⟨shape, fields⟩, r₁⟩, hhead, h⟩ := bind_eq_ok_iff.mp h
  obtain ⟨r₂, r₃, r₄, hsources, hconditions, horders, hlimits, rfl, rfl⟩ :=
    readClauses_eq_ok_iff.mp h
  obtain ⟨hsuffix₁, hmore₁⟩ := readHead_stops hhead
  obtain ⟨hsuffix₂, hmore₂⟩ := clause_stops (by decide) [] readSources_stops hsources
  have hr₂ : r₂ = [] := by
    have hnot : eat .where_ r₂ = none := by
      cases r₂ with
      | nil => rfl
      | cons u r₂ =>
        exact eat_cons_of_not (hwhere u ((hsuffix₂.trans hsuffix₁).subset List.mem_cons_self)) r₂
    rw [clause, hnot] at hconditions
    obtain ⟨-, rfl⟩ := Prod.mk.inj (Except.ok.inj hconditions)
    rw [horder] at horders
    obtain ⟨rfl, -⟩ := clause_eq_none horders
    rw [hlimit] at hlimits
    exact (clause_eq_none hlimits).1.symm
  subst hr₂
  have hfollows : Follows [.where_] (t :: us) := .cons (List.mem_singleton_self _) ht
  have hread : readWhere us = .ok (readConditions us, []) := by
    simpa using readWhere_append hus .nil
  rw [readTokens_eq, hmore₁ _ hfollows]
  refine readClauses_eq_ok_iff.mpr ⟨t :: us, [], [], hmore₂ _ hfollows, ?_, ?_, ?_, rfl, rfl⟩
  · rw [clause, eat_cons ht]
    exact hread
  · rw [horder]
    rfl
  · rw [hlimit]
    rfl

/-! ## Groups of conditions -/

/-- The pieces of some tokens between the words AND, none of which has that word in it. -/
def Groups (groups : List (List Token)) (ts : List Token) : Prop :=
  Joined .and_ (fun g us => us = g ∧ ∀ t ∈ g, t.is .and_ = false) groups ts

theorem groups_splitGroups (ts : List Token) : Groups (splitGroups ts) ts := by
  induction ts with
  | nil => exact .one ⟨rfl, nofun⟩
  | cons t ts ih =>
    rw [splitGroups]
    cases ht : t.is .and_ with
    | true =>
      have hgroups : Groups ([] :: splitGroups ts) ([] ++ t :: ts) := .more ⟨rfl, nofun⟩ ht ih
      exact hgroups
    | false =>
      rw [if_neg Bool.false_ne_true]
      generalize splitGroups ts = groups at ih
      cases ih with
      | one hg =>
        obtain ⟨rfl, hnot⟩ := hg
        exact .one ⟨rfl, List.forall_mem_cons.mpr ⟨ht, hnot⟩⟩
      | more hg ha hrest =>
        obtain ⟨rfl, hnot⟩ := hg
        have hgroups := Joined.more ⟨rfl, List.forall_mem_cons.mpr ⟨ht, hnot⟩⟩ ha hrest
        exact hgroups

/-- The groups are read one by one, and each comes to something unless one comes to nothing. -/
theorem mapM_readCondition?_cases (groups : List (List Token)) :
    (∃ cs, groups.mapM readCondition? = some cs ∧ List.Forall₂ ConditionText cs groups) ∨
      groups.mapM readCondition? = none ∧ ∃ g ∈ groups, ∀ c, ¬ ConditionText c g := by
  induction groups with
  | nil => exact .inl ⟨[], rfl, .nil⟩
  | cons g groups ih =>
    rw [List.mapM_cons]
    cases hg : readCondition? g with
    | none =>
      refine .inr ⟨rfl, g, List.mem_cons_self, fun c hc => ?_⟩
      rw [(readCondition?_eq_some_iff g c).mpr hc] at hg
      cases hg
    | some c =>
      rcases ih with ⟨cs, hcs, hall⟩ | ⟨hnone, g', hmem, hg'⟩
      · rw [hcs]
        exact .inl ⟨c :: cs, rfl, .cons ((readCondition?_eq_some_iff g c).mp hg) hall⟩
      · rw [hnone]
        exact .inr ⟨rfl, g', List.mem_cons_of_mem g hmem, hg'⟩

/-- The conditions are those that the groups write, or none if one of these writes none. -/
theorem readConditions_cases (ts : List Token) :
    List.Forall₂ ConditionText (readConditions ts) (splitGroups ts) ∨
      readConditions ts = [] ∧ ∃ g ∈ splitGroups ts, ∀ c, ¬ ConditionText c g := by
  rw [readConditions]
  rcases mapM_readCondition?_cases (splitGroups ts) with ⟨cs, hcs, hall⟩ | ⟨hnone, hbad⟩
  · rw [hcs]
    exact .inl hall
  · rw [hnone]
    exact .inr ⟨rfl, hbad⟩

/-! ## Texts -/

/-- Reading goes on after the word WHERE with the strays let through. -/
theorem tokenize_where {text w : String} {ts us : List Token}
    (h : Token.tokenize text.toList = .ok ts) (hwhere : ∀ t ∈ ts, t.is .where_ = false)
    (hus : Token.readFrom 0 true w.toList = .ok us) :
    Token.tokenize (text ++ " WHERE " ++ w).toList =
      .ok (ts ++ .word Keyword.where_.spelling :: us) := by
  have hlayout : Token.Layout ts text.toList := Token.layout_of_tokenize h
  have hstray := Token.isStray_of_readFrom h hwhere
  have hnone : ts.any (·.is .where_) = false := by
    rw [List.any_eq_false]
    exact fun t ht => by rw [hwhere t ht]; decide
  have hword : (Token.word Keyword.where_.spelling).Heads
      (Keyword.where_.spelling ++ ' ' :: w.toList) (' ' :: w.toList) := by
    refine ⟨_, .word (by decide) (List.all_eq_true.mp (by decide)), rfl, ?_⟩
    rintro _ ⟨⟩
    decide
  have htext : (text ++ " WHERE " ++ w).toList =
      text.toList ++ ' ' :: (Keyword.where_.spelling ++ ' ' :: w.toList) := by
    have hmiddle : " WHERE ".toList = ' ' :: (Keyword.where_.spelling ++ [' ']) := by decide
    simp only [String.toList_append, hmiddle, List.append_assoc, List.cons_append, List.nil_append]
  have hrest : Token.readFrom 0 false (' ' :: (Keyword.where_.spelling ++ ' ' :: w.toList)) =
      .ok (.word Keyword.where_.spelling :: us) := by
    have his : (Token.word Keyword.where_.spelling).is .where_ = true := by decide
    rw [Token.readFrom_blank (by decide), Token.readFrom_heads hword rfl, his,
      Token.readFrom_blank (by decide), Bool.or_true, hus]
    rfl
  have hgap : ∀ c ∈ (' ' :: (Keyword.where_.spelling ++ ' ' :: w.toList)).head?,
      Text.isBlank c = true := by
    rintro _ ⟨⟩
    decide
  rw [htext, Token.tokenize, hlayout.readFrom_append hstray hgap, hnone, Bool.or_false, hrest]
  rfl

/-- Whatever is put to the end of a query after the word WHERE, the query is read, as long as no
other clause begins in it. The conditions are one for each group, or none if a group writes none. -/
theorem parse_where {text w : String} {q : Query} (h : parse text = .ok q)
    (hwhere : ∀ ts, Token.tokenize text.toList = .ok ts → ∀ t ∈ ts, t.is .where_ = false)
    (horder : q.order = none) (hlimit : q.limit = none) :
    ∃ us, Token.readFrom 0 true w.toList = .ok us ∧
      ((∀ u ∈ us, u.is .order = false ∧ u.is .limit = false) →
        ∃ groups conditions, Groups groups us ∧
          parse (text ++ " WHERE " ++ w) =
            .ok ⟨q.shape, q.fields, q.sources, conditions, none, none⟩ ∧
          (List.Forall₂ ConditionText conditions groups ∨
            conditions = [] ∧ ∃ g ∈ groups, ∀ c, ¬ ConditionText c g)) := by
  obtain ⟨us, hus⟩ := Token.exists_readFrom_of_where 0 w.toList
  obtain ⟨ts, hts, -, hq⟩ := parse_eq_ok_iff.mp h
  refine ⟨us, hus, fun hends => ⟨splitGroups us, readConditions us, groups_splitGroups us, ?_,
    readConditions_cases us⟩⟩
  have hclause : ∀ u ∈ us, endsWhere u = false := by
    intro u hu
    rw [endsWhere, (hends u hu).1, (hends u hu).2]
    rfl
  have hread := readTokens_where hq (hwhere ts hts) horder hlimit
    (t := .word Keyword.where_.spelling) (by decide) hclause
  rw [horder, hlimit] at hread
  exact parse_eq_ok_iff.mpr ⟨_, tokenize_where hts (hwhere ts hts) hus, by simp, hread⟩

theorem parse_where_strays :
    let text := "TABLE a FROM #x"
    let w := "b = 1 and \"c ] [d"
    let q : Query := ⟨.table, ["a"], [.tag ⟨"x"⟩], [], none, none⟩
    let us : List Token := [.word "b".toList, .sign .eq, .word "1".toList, .word "and".toList,
      .stray '"', .word "c".toList, .stray ']', .stray '[', .word "d".toList]
    parse text = .ok q ∧
      (∀ ts, Token.tokenize text.toList = .ok ts → ∀ t ∈ ts, t.is .where_ = false) ∧
      q.order = none ∧ q.limit = none ∧ Token.readFrom 0 true w.toList = .ok us ∧
      (∀ u ∈ us, u.is .order = false ∧ u.is .limit = false) ∧
      ∃ groups conditions, Groups groups us ∧
        parse (text ++ " WHERE " ++ w) = .ok ⟨.table, ["a"], [.tag ⟨"x"⟩], conditions, none, none⟩ ∧
        (List.Forall₂ ConditionText conditions groups ∨
          conditions = [] ∧ ∃ g ∈ groups, ∀ c, ¬ ConditionText c g) := by
  intro text w q us
  have hts : Token.tokenize text.toList =
      .ok [.word "TABLE".toList, .word "a".toList, .word "FROM".toList, .word "#x".toList] :=
    eq_ok_of_toOption (by decide)
  have hus : Token.readFrom 0 true w.toList = .ok us := eq_ok_of_toOption (by decide)
  have hparse : parse text = .ok q := parse_eq_ok_iff.mpr ⟨_, hts, by simp, by rfl⟩
  have hwhere : ∀ ts, Token.tokenize text.toList = .ok ts → ∀ t ∈ ts, t.is .where_ = false := by
    intro ts h
    rw [hts] at h
    cases h
    decide
  have hends : ∀ u ∈ us, u.is .order = false ∧ u.is .limit = false := by decide
  obtain ⟨us', hus', hread⟩ := parse_where (w := w) hparse hwhere rfl rfl
  obtain rfl : us = us' := Except.ok.inj (hus.symm.trans hus')
  exact ⟨hparse, hwhere, rfl, rfl, hus, hends, hread hends⟩

end NoteIndex.Query
