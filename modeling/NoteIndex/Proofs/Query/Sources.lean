import NoteIndex.Proofs.Query.Candidates
import NoteIndex.Proofs.Query.Where

/-!
# The records of sources

A source covers the records that carry its tag, or whose path begins as it says. The candidates of a
query are looked up in the index by tags, which are read once more for that. A tag that a query's
text names is read as itself again, as words have no blanks in them, so that its candidates are just
the records covered. Nothing is claimed of sources that were not read from text.
-/

namespace NoteIndex

namespace Index

/-- Records of an index are told apart by their identifiers. -/
theorem eq_of_id {x : Index} {a b : Record} (ha : a ∈ x.records.values) (hb : b ∈ x.records.values)
    (h : a.id = b.id) : a = b :=
  List.inj_on_of_nodup_map x.records.nodup_values ha hb h

end Index

namespace Query

namespace Source

def Covers (s : Source) (r : Record) : Prop :=
  match s with
  | .tag t => t.text ∈ r.tags
  | .path start => start.toList <+: r.path.toList

/-- Looking the source up comes to the source itself, not to another tag. -/
def ReadBack : Source → Prop
  | .tag t => Tag.parse? t.text = some t
  | .path _ => True

end Source

/-! ## Sources of a text -/

/-- The tag of a word is its own normal form. -/
theorem readSource_readBack {t : Token} {s : Source} {cs : List Char} (h : readSource t = .ok s)
    (ht : Token.Spelling t cs) : s.ReadBack := by
  cases ht with
  | word _ hword =>
    rw [readSource] at h
    split at h
    · cases h
    split at h
    · rename_i tag htag
      cases h
      have hparse : Tag.parse? (String.ofList cs) = some tag := by
        rwa [Tag.parse?, String.toList_ofList]
      have hblank : ∀ c ∈ cs, Text.isBlank c = false := fun c hc =>
        ((Token.isWordChar_iff c).mp (hword c hc)).1
      refine (Tag.parse?_text_iff hparse).mpr ?_
      rw [((Tag.ofChars?_eq_some_iff cs tag).mp htag).2]
      exact Tag.head_normalize_of_not_blank hblank
    · cases h
  | quoted =>
    cases h
    trivial
  | _ => cases h

/-- Each source of a query is read from one of its tokens. -/
theorem readTokens_sources {ts : List Token} {q : Query} (h : readTokens ts = .ok q) :
    ∀ s ∈ q.sources, ∃ t ∈ ts, readSource t = .ok s := by
  rw [readTokens_eq] at h
  obtain ⟨⟨_, r⟩, hhead, h⟩ := bind_eq_ok_iff.mp h
  obtain ⟨r', _, _, hsources, -⟩ := readClauses_eq_ok_iff.mp h
  have hsuffix : r <:+ ts := (readHead_stops hhead).1
  rw [clause] at hsources
  split at hsources
  · rename_i us hus
    intro s hs
    obtain ⟨vs, rfl, hjoined, -⟩ := joined_of_readSources hsources
    obtain ⟨_, ⟨t, rfl, hread⟩, hsub⟩ := hjoined.exists_part s hs
    have ht : t ∈ vs ++ r' := List.mem_append_left _ (hsub (List.mem_singleton_self t))
    exact ⟨t, hsuffix.subset (eat_subset hus ht), hread⟩
  · rw [← (Prod.mk.inj (Except.ok.inj hsources)).1]
    exact fun s hs => absurd hs List.not_mem_nil

theorem readBack_of_parse {text : String} {q : Query} (h : parse text = .ok q) :
    ∀ s ∈ q.sources, s.ReadBack := by
  obtain ⟨ts, hts, -, hq⟩ := parse_eq_ok_iff.mp h
  intro s hs
  obtain ⟨t, ht, hread⟩ := readTokens_sources hq s hs
  obtain ⟨cs, hspell⟩ := (Token.layout_of_tokenize hts).spelling_of_mem ht
  exact readSource_readBack hread hspell

/-! ## Candidates -/

variable {x : Index}

theorem id_mem_ids_iff (h : x.Exact) {s : Source} (hs : s.ReadBack) {r : Record}
    (hr : r ∈ x.records.values) : r.id ∈ s.ids x ↔ s.Covers r := by
  have hself {rs : List Record} (hrs : ∀ a ∈ rs, a ∈ x.records.values) :
      r.id ∈ rs.map Record.id ↔ r ∈ rs := by
    rw [List.mem_map]
    refine ⟨fun ⟨a, ha, hid⟩ => ?_, fun hmem => ⟨r, hmem, rfl⟩⟩
    rwa [← Index.eq_of_id (hrs a ha) hr hid]
  cases s with
  | tag t =>
    have hscan := h.scan_byTag t.text
    rw [Source.ids, hself fun a ha => ((hscan.mem_iff a).mp ha).1, hscan.mem_iff, and_iff_right hr,
      show Tag.parse? t.text = some t from hs]
    simp [Source.Covers]
  | path start =>
    rw [Source.ids, hself fun a ha => (List.mem_filter.mp ha).1, List.mem_filter,
      and_iff_right hr]
    exact List.isPrefixOf_iff_prefix

theorem mem_candidates_iff (ss : List Source) (r : Record) : r ∈ candidates x ss ↔
    r ∈ x.records.values ∧ (ss = [] ∨ ∃ s ∈ ss, r.id ∈ s.ids x) := by
  rw [candidates]
  split
  · rename_i hempty
    simp [List.isEmpty_iff.mp hempty]
  · rename_i hempty
    rw [List.isEmpty_iff] at hempty
    rw [List.mem_filter, List.contains_iff_mem, List.mem_flatMap, or_iff_right hempty]

theorem candidates_sublist (ss : List Source) : (candidates x ss).Sublist x.records.values := by
  rw [candidates]
  split
  · exact .refl _
  · exact List.filter_sublist

/-- Neither the order of the sources nor saying one twice makes a difference. -/
theorem candidates_congr {ss ss' : List Source} (h : ∀ s, s ∈ ss ↔ s ∈ ss') :
    candidates x ss = candidates x ss' := by
  have hempty : ss.isEmpty = ss'.isEmpty := by
    rw [Bool.eq_iff_iff, List.isEmpty_iff, List.isEmpty_iff, List.eq_nil_iff_forall_not_mem,
      List.eq_nil_iff_forall_not_mem]
    exact forall_congr' fun s => not_congr (h s)
  have hselected (id : String) :
      (ss.flatMap (Source.ids x)).contains id = (ss'.flatMap (Source.ids x)).contains id := by
    rw [Bool.eq_iff_iff, List.contains_iff_mem, List.contains_iff_mem, List.mem_flatMap,
      List.mem_flatMap]
    exact exists_congr fun s => and_congr_left fun _ => h s
  simp only [candidates, hempty, hselected]

/-! ## Records that a query selects -/

variable {q : Query}

/-- `rs` are the records of the index that a query is about, each once and in the order of the
index: those that one of its sources, if any, stands for and that meet all its conditions. -/
structure Selects (x : Index) (q : Query) (rs : List Record) : Prop where
  mem_iff : ∀ r, r ∈ rs ↔ r ∈ x.records.values ∧
    (q.sources = [] ∨ ∃ s ∈ q.sources, r.id ∈ s.ids x) ∧ ∀ c ∈ q.conditions, c.accepts r = true
  sublist : rs.Sublist x.records.values

theorem selects_selected (x : Index) (q : Query) : q.Selects x (selected x q) where
  mem_iff := fun r => by
    rw [selected, List.mem_filter, mem_candidates_iff, List.all_eq_true, and_assoc]
  sublist := List.filter_sublist.trans (candidates_sublist _)

theorem mem_selected_iff (h : x.Exact) (hq : ∀ s ∈ q.sources, s.ReadBack) (r : Record) :
    r ∈ selected x q ↔ r ∈ x.records.values ∧ (q.sources = [] ∨ ∃ s ∈ q.sources, s.Covers r) ∧
      ∀ c ∈ q.conditions, c.accepts r = true := by
  rw [(selects_selected x q).mem_iff]
  refine and_congr_right fun hr => and_congr_left fun _ => or_congr_right ?_
  exact exists_congr fun s => and_congr_right fun hs => id_mem_ids_iff h (hq s hs) hr

theorem nodup_selected (x : Index) (q : Query) : ((selected x q).map Record.id).Nodup :=
  ((selects_selected x q).sublist.map Record.id).nodup x.records.nodup_values

theorem mem_records_of_mem_matched {found : List Record} {r : Record}
    (h : matched x q = some found) (hr : r ∈ found) : r ∈ x.records.values :=
  (selects_selected x q).sublist.subset (subset_of_matched h hr)

theorem selected_congr {ss : List Source} {cs : List Condition}
    (hss : ∀ s, s ∈ ss ↔ s ∈ q.sources) (hcs : ∀ c, c ∈ cs ↔ c ∈ q.conditions) :
    selected x { q with sources := ss, conditions := cs } = selected x q := by
  have hall (r : Record) :
      (cs.all fun c => c.accepts r) = q.conditions.all fun c => c.accepts r := by
    rw [Bool.eq_iff_iff, List.all_eq_true, List.all_eq_true]
    exact forall_congr' fun c => imp_congr (hcs c) .rfl
  simp only [selected, candidates_congr hss, hall]

end Query

end NoteIndex
