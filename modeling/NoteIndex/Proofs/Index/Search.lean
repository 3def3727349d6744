import NoteIndex.Proofs.Collection.StableSort
import NoteIndex.Proofs.Session.Basic
import NoteIndex.Proofs.Text.Excerpt
import NoteIndex.Query.Run

/-!
# Searching an index

A search gives the records that match at all, those with the higher score first, and those of the
same score in the order of the index. A text that stands in a title as it is, capital letters and
all, is found there unless one of its sigmas has another small form in the title than in the text.
-/

namespace NoteIndex.Index

variable {x : Index} {text : String} {r : Record}

theorem score_eq (needle : List Char) (r : Record) : score needle r =
    (if needle <:+: Text.lower r.title.toList then 100 else 0) +
      (if ∃ t ∈ r.tags.toList, needle <:+: t.toList then 50 else 0) +
      25 * r.frontmatter.values.countP fun v => needle <:+: Text.lower v.text.toList := by
  simp only [score, ← Text.occursIn_iff, List.any_eq_true, List.countP_eq_length_filter,
    Bool.decide_eq_true]

theorem search_of_blank (h : Text.trim text.toList = []) : x.search text = [] := by
  rw [search, h]
  rfl

/-- The scores that go along with the records do not matter to what is found. -/
theorem search_eq (h : Text.trim text.toList ≠ []) :
    let needle := Text.lower (Text.trim text.toList)
    x.search text = sortStable (fun r s => score needle s < score needle r)
      (x.records.values.filter fun r => 0 < score needle r) := by
  intro needle
  have hne : needle.isEmpty = false :=
    List.isEmpty_eq_false_iff.mpr fun he => h ((Text.lowerFrom_eq_nil_iff [] _).mp he)
  rw [search, if_neg (by simp [needle, hne])]
  simp only [List.filter_map, sortStable_map, List.map_map]
  exact List.map_id _

theorem mem_search_iff (h : Text.trim text.toList ≠ []) :
    r ∈ x.search text ↔
      r ∈ x.records.values ∧ 0 < score (Text.lower (Text.trim text.toList)) r := by
  rw [search_eq h, (sortStable_perm _ _).mem_iff, List.mem_filter, decide_eq_true_iff]

theorem nodup_ids_search (x : Index) (text : String) : ((x.search text).map Record.id).Nodup := by
  by_cases h : Text.trim text.toList = []
  · rw [search_of_blank h]
    exact .nil
  · rw [search_eq h, ((sortStable_perm _ _).map Record.id).nodup_iff]
    exact x.records.nodup_values.sublist (List.filter_sublist.map Record.id)

/-- Higher scores first is a strict weak order. -/
theorem ranks_of_score (f : Record → Nat) (rs : List Record) :
    Ranks (fun r s => decide (f s < f r)) rs where
  asymm := by
    intro a _ b _ hab
    simp only [decide_eq_true_eq, decide_eq_false_iff_not] at hab ⊢
    omega
  trans := by
    intro a _ b _ c _ hba hcb
    simp only [decide_eq_false_iff_not] at hba hcb ⊢
    omega

/-- A search for blank text finds nothing. Any other finds the records with a score of the
lower-cased text without the blanks around it: 100 if the title contains it, 50 if a tag does, 25
for each value of the frontmatter that does. Each of them is found once, none with a lower score
before one with a higher one, and those of one score in the order of the index. -/
theorem search_ranked (x : Index) (text : String) :
    let needle := Text.lower (Text.trim text.toList)
    (∀ r, score needle r = (if needle <:+: Text.lower r.title.toList then 100 else 0) +
      (if ∃ t ∈ r.tags.toList, needle <:+: t.toList then 50 else 0) +
      25 * r.frontmatter.values.countP fun v => needle <:+: Text.lower v.text.toList) ∧
    (∀ r, r ∈ x.search text ↔
      Text.trim text.toList ≠ [] ∧ r ∈ x.records.values ∧ 0 < score needle r) ∧
    ((x.search text).map Record.id).Nodup ∧
    (x.search text).Pairwise (fun r s => score needle s ≤ score needle r) ∧
    ∀ r ∈ x.search text, (x.search text).filter (score needle · = score needle r) =
      x.records.values.filter (score needle · = score needle r) := by
  intro needle
  refine ⟨score_eq needle, ?_, nodup_ids_search x text, ?_⟩
  · intro r
    by_cases h : Text.trim text.toList = []
    · simp [search_of_blank h, h]
    · rw [mem_search_iff h]
      exact (and_iff_right h).symm
  by_cases h : Text.trim text.toList = []
  · simp [search_of_blank h]
  have hsearch : x.search text = sortStable (fun r s => score needle s < score needle r)
      (x.records.values.filter fun r => 0 < score needle r) := search_eq h
  refine ⟨?_, fun r hr => ?_⟩
  · rw [hsearch]
    refine (pairwise_sortStable (ranks_of_score (score needle) _)).imp fun {r s} hrs => ?_
    simpa using hrs
  · have hpos : 0 < score needle r := ((mem_search_iff h).mp hr).2
    rw [hsearch, filter_sortStable fun a _ b _ ha hb => ?_, List.filter_filter]
    · refine List.filter_congr fun s _ => ?_
      by_cases hs : score needle s = score needle r <;> simp [hs, hpos]
    · simp only [decide_eq_true_eq] at ha hb
      simp [ha, hb]

/-- The first note has its score of 100 from its title, the second from its tag and two values. -/
theorem search_ranked_ties :
    let a := Note.page "a" "On Rust" ""
    let b := Note.page "b" "Beta" "---\nlang: RUST\ntags: [rust]\n---\n"
    let s := (Session.start none).after [.put (.page "c" "Gamma" "#rusty"), .put a, .put b,
      .put (.page "d" "Delta" "rust"), .init]
    let x := s.catalog.index
    let found := x.search " Rust "
    found.map Record.id = ["a", "b", "c"] ∧
      found.Pairwise (fun r s => score "rust".toList s ≤ score "rust".toList r) ∧
      Record.ofNote b ∈ found ∧ found.filter (score "rust".toList · = 100) =
        x.records.values.filter (score "rust".toList · = 100) := by
  intro a b s x found
  have hmem : Record.ofNote b ∈ x.records.values :=
    Session.mem_records_init ((Session.start none).after [.put (.page "c" "Gamma" "#rusty"),
      .put a, .put b, .put (.page "d" "Delta" "rust")]) rfl (by decide +kernel)
  have hneedle : Text.lower (Text.trim " Rust ".toList) = "rust".toList := by decide
  have hscore : score "rust".toList (Record.ofNote b) = 100 := by decide +kernel
  have hranked := search_ranked x " Rust "
  simp only [hneedle] at hranked
  obtain ⟨-, hiff, -, hdescending, hties⟩ := hranked
  have hfound : Record.ofNote b ∈ found :=
    (hiff _).mpr ⟨by decide, hmem, by rw [hscore]; decide⟩
  have htied := hties _ hfound
  rw [hscore] at htied
  exact ⟨by decide +kernel, hdescending, hfound, htied⟩

/-! ## Text that stands there as it is -/

theorem score_pos_of_title {needle : List Char} (h : needle <:+: Text.lower r.title.toList) :
    0 < score needle r := by
  rw [score_eq, if_pos h]
  omega

theorem containsText_of_infix {s n : String}
    (h : Text.lower n.toList <:+: Text.lower s.toList) :
    (Value.string s).containsText n = true :=
  (Text.occursIn_iff _ _).mpr h

/-- A text is found where it stands, by a search in each record that has it in its title and by a
condition in each string, as long as its capital sigmas take the same small forms there as in the
text alone. Just then the lower-cased text is in the place of the text when all is lower-cased. -/
theorem verbatim_text_found (before cs after : List Char) :
    (Text.KeepsSigmas before cs after ↔
      Text.lower cs <+: (Text.lower (before ++ (cs ++ after))).drop (Text.lower before).length) ∧
    (Text.KeepsSigmas before cs after →
      (∀ (x : Index) (text : String), Text.trim text.toList = cs → cs ≠ [] →
        ∀ r ∈ x.records.values, r.title.toList = before ++ (cs ++ after) → r ∈ x.search text) ∧
      ∀ (c : Query.Condition) (r : Record) (s n : String), c.operator = .contains →
        c.value = .string n → n.toList = cs → r.property? c.field = some (.string s) →
        s.toList = before ++ (cs ++ after) → c.accepts r = !c.negated) := by
  refine ⟨Text.lower_isPrefix_iff.symm, fun hkeeps => ⟨?_, ?_⟩⟩
  · rintro x text rfl hne r hr htitle
    refine (mem_search_iff hne).mpr ⟨hr, score_pos_of_title ?_⟩
    rw [htitle]
    exact hkeeps.infix
  · rintro c r s n hop hvalue rfl hproperty hs
    have hinfix : Text.lower n.toList <:+: Text.lower s.toList := by
      rw [hs]
      exact hkeeps.infix
    have hholds : c.holds (some (.string s)) = true := by
      simp only [Query.Condition.holds, hop, hvalue]
      exact containsText_of_infix hinfix
    rw [Query.Condition.accepts, hproperty, hholds]
    cases c.negated <;> rfl

/-- A word that ends in a sigma, as a word of the title. -/
theorem verbatim_text_found_whole :
    let a := Note.page "a" "Η ΟΔΟΣ, ΟΔΟΣΗΜΑΝΣΗ" ""
    let s := (Session.start none).after [.put a, .put (.page "b" "ΟΔΟΣΗΜΑΝΣΗ" ""), .init]
    let before := "Η ".toList
    let after := ", ΟΔΟΣΗΜΑΝΣΗ".toList
    let c : Query.Condition := ⟨"title", .contains, .string "ΟΔΟΣ", false⟩
    (Text.trim " ΟΔΟΣ ".toList = "ΟΔΟΣ".toList ∧ "ΟΔΟΣ".toList ≠ [] ∧
      Record.ofNote a ∈ s.catalog.index.records.values ∧
      (Record.ofNote a).title.toList = before ++ ("ΟΔΟΣ".toList ++ after) ∧
      Text.KeepsSigmas before "ΟΔΟΣ".toList after ∧
      Record.ofNote a ∈ s.catalog.index.search " ΟΔΟΣ ") ∧
    (Record.ofNote a).property? "title" = some (.string (Record.ofNote a).title) ∧
      c.accepts (Record.ofNote a) = true := by
  intro a s before after c
  have hmem : Record.ofNote a ∈ s.catalog.index.records.values :=
    Session.mem_records_init ((Session.start none).after [.put a,
      .put (.page "b" "ΟΔΟΣΗΜΑΝΣΗ" "")]) rfl (by decide +kernel)
  have htrim : Text.trim " ΟΔΟΣ ".toList = "ΟΔΟΣ".toList := by decide
  have htitle : (Record.ofNote a).title.toList = before ++ ("ΟΔΟΣ".toList ++ after) := by decide
  have hkeeps : Text.KeepsSigmas before "ΟΔΟΣ".toList after :=
    Text.keepsSigmas_of_apart (by decide +kernel) (by decide +kernel)
  have hproperty :
      (Record.ofNote a).property? "title" = some (.string (Record.ofNote a).title) := by
    simp [Record.property?]
  obtain ⟨-, hfound⟩ := verbatim_text_found before "ΟΔΟΣ".toList after
  obtain ⟨hsearch, hcondition⟩ := hfound hkeeps
  exact ⟨⟨htrim, by decide, hmem, htitle, hkeeps,
      hsearch s.catalog.index " ΟΔΟΣ " htrim (by decide) _ hmem htitle⟩,
    hproperty, hcondition c _ _ "ΟΔΟΣ" rfl rfl rfl hproperty htitle⟩

/-- At the end of the text the sigma takes its final form, in the title it does not: neither a
search nor a condition finds the text, though the title begins with it. -/
theorem sigma_inside_word_not_found :
    let a := Note.page "a" "ΟΔΟΣΗΜΑΝΣΗ" ""
    let s := (Session.start none).after [.put a, .init]
    let c : Query.Condition := ⟨"title", .contains, .string "ΟΔΟΣ", false⟩
    Record.ofNote a ∈ s.catalog.index.records.values ∧
      Text.trim "ΟΔΟΣ".toList = "ΟΔΟΣ".toList ∧
      (Record.ofNote a).title.toList = "ΟΔΟΣ".toList ++ "ΗΜΑΝΣΗ".toList ∧
      s.catalog.index.search "ΟΔΟΣ" = [] ∧
      (Record.ofNote a).property? "title" = some (.string (Record.ofNote a).title) ∧
      c.accepts (Record.ofNote a) = false := by
  intro a s c
  have hmem : Record.ofNote a ∈ s.catalog.index.records.values :=
    Session.mem_records_init ((Session.start none).after [.put a]) rfl (by decide +kernel)
  have hnone : s.catalog.index.search "ΟΔΟΣ" = [] :=
    List.length_eq_zero_iff.mp (by decide +kernel)
  exact ⟨hmem, by decide, by decide, hnone, by simp [Record.property?], by decide +kernel⟩

end NoteIndex.Index
