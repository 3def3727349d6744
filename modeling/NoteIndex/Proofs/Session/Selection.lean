import NoteIndex.Proofs.Query.Sorting
import NoteIndex.Proofs.Query.Sources
import NoteIndex.Proofs.Session.Basic

/-!
# What queries select in a session

Sources are looked up in maps kept through any number of requests, and what they have in common is
to be told once. On an index that is built a query without a limit all the same tells of just the
records that its sources cover and its conditions admit, whatever order it asks for, unless these
cannot be put in that order and the program stops.
-/

namespace NoteIndex.Session

open Query (Condition ListRow Source)

/-- The list of a query that was read from text, without a limit: the records that one of its
sources covers, if there are any, and that meet all conditions, each once and in the order of the
index if no other is asked for. There is a list if none is, or if these can be put in it. Sources
and conditions may be given in another order, or more than once. -/
theorem parsed_query_selects (store : Option Store) (rs : List Request)
    (hbuilt : ((start store).after rs).catalog.initialized = true) {text : String} {q : Query}
    (hparse : Query.parse text = .ok q) (hlimit : q.limit = none) (book : Notebook) :
    let c := ((start store).after rs).catalog
    let x := c.index
    ∃ selected : List Record,
      (∀ r, r ∈ selected ↔ r ∈ x.records.values ∧
        (q.sources = [] ∨ ∃ s ∈ q.sources, s.Covers r) ∧
        ∀ cond ∈ q.conditions, cond.accepts r = true) ∧
      (selected.map Record.id).Nodup ∧ selected.Sublist x.records.values ∧
      (q.order = none → (c.run book { q with shape := .list }).2 =
        some (.ok (.list (selected.map ListRow.ofRecord)))) ∧
      (q.Sortable selected → ((c.run book { q with shape := .list }).2).isSome = true) ∧
      (∀ answer, (c.run book { q with shape := .list }).2 = some answer →
        ∃ found : List Record, found.Perm selected ∧
          answer = .ok (.list (found.map ListRow.ofRecord))) ∧
      ∀ (sources : List Source) (conditions : List Condition),
        (∀ s, s ∈ sources ↔ s ∈ q.sources) → (∀ cond, cond ∈ conditions ↔ cond ∈ q.conditions) →
        ∀ shape,
          c.run book { q with shape, sources, conditions } = c.run book { q with shape } := by
  intro c x
  have hexact : x.Exact := exact_invariant.reached store rs
  have hrun (p : Query) : c.run book p = (c, p.run x book) := c.run_of_initialized book hbuilt p
  have hlist : (c.run book { q with shape := .list }).2 = (q.matched x).map fun found =>
      .ok (.list (found.map ListRow.ofRecord)) := by
    rw [hrun]
    rfl
  refine ⟨q.selected x, Query.mem_selected_iff hexact (Query.readBack_of_parse hparse),
    Query.nodup_selected x q, (Query.selects_selected x q).sublist, ?_, ?_, ?_, ?_⟩
  · intro horder
    rw [hlist, Query.matched, Query.arranged_of_unordered horder, Option.map_some,
      Query.limited_of_unlimited hlimit, Option.map_some]
  · intro hsortable
    rw [hlist, Option.isSome_map, Option.isSome_iff_ne_none]
    exact fun hnone => Query.not_sortable_of_matched hnone hsortable
  · intro answer hanswer
    rw [hlist] at hanswer
    obtain ⟨found, hfound, rfl⟩ := Option.map_eq_some_iff.mp hanswer
    exact ⟨found, Query.perm_of_matched hlimit hfound, rfl⟩
  · intro sources conditions hsources hconditions shape
    have hsame := Query.selected_congr (x := x) (q := { q with shape }) hsources hconditions
    rw [hrun, hrun]
    simp only [Query.run, Query.matched, hsame]
    rfl

/-- Two sources that overlap, and a condition on a property that only one note has. -/
theorem parsed_query_selects_once :
    let a := Note.page "a" "Alpha" "#work"
    let b := Note.page "b" "Beta" "---\ndone: true\n---\n#Work"
    let c := Note.page "c" "Gamma" "#home"
    let s := (start none).after [.put a, .put b, .put c, .init]
    let text := "LIST FROM #Work OR 'a' WHERE !done"
    let q : Query := ⟨.list, [], [.tag ⟨"work"⟩, .path "a"], [⟨"done", .present, .null, true⟩],
      none, none⟩
    s.catalog.initialized = true ∧ Query.parse text = .ok q ∧ q.limit = none ∧
      ∃ selected : List Record,
        (∀ r, r ∈ selected ↔ r ∈ s.catalog.index.records.values ∧
          (q.sources = [] ∨ ∃ source ∈ q.sources, source.Covers r) ∧
          ∀ cond ∈ q.conditions, cond.accepts r = true) ∧
        (selected.map Record.id).Nodup ∧ selected.Sublist s.catalog.index.records.values ∧
        (s.catalog.run ∅ q).2 = some (.ok (.list (selected.map ListRow.ofRecord))) ∧
        (s.catalog.run ∅ { q with sources := [.path "a", .tag ⟨"work"⟩, .path "a"] }) =
          s.catalog.run ∅ q := by
  intro a b c s text q
  have hbuilt : s.catalog.initialized = true := by decide
  have htokens : (Query.Token.tokenize text.toList).toOption =
      some [.word "LIST".toList, .word "FROM".toList, .word "#Work".toList, .word "OR".toList,
        .quoted "a".toList, .word "WHERE".toList, .bang, .word "done".toList] := by
    decide
  have hparse : Query.parse text = .ok q :=
    Query.parse_of_tokens htokens (List.cons_ne_nil _ _) (by rfl)
  obtain ⟨selected, hmem, hnodup, hsub, hlist, -, -, hcongr⟩ :=
    parsed_query_selects none [.put a, .put b, .put c, .init] hbuilt hparse rfl ∅
  refine ⟨hbuilt, hparse, rfl, selected, hmem, hnodup, hsub, hlist rfl, ?_⟩
  refine hcongr _ q.conditions (fun source => ?_) (fun _ => .rfl) .list
  have hmem (p w : Source) : source ∈ [p, w, p] ↔ source ∈ [w, p] := by
    clear * -
    grind
  exact hmem _ _

end NoteIndex.Session
