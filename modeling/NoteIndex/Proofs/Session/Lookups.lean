import NoteIndex.Proofs.Query.Sorting
import NoteIndex.Proofs.Session.Basic
import NoteIndex.Proofs.Tag

/-!
# What look-ups answer in a session

Whatever has been asked of a session, look-ups answer as going through all records would. Tags are
read anew each time they are looked up, also those that come from the list of all tags: there a tag
that begins with a hash sign is lost, since it is read as another one. Nothing is claimed of an
index that a query has yet to build.
-/

namespace NoteIndex.Session

/-- Look-ups by tag, by note linked to and by title linked to are scans of all records, and none of
the identifiers that the maps list is without its record. -/
theorem reads_match_scan (store : Option Store) (rs : List Request) :
    let x := ((start store).after rs).catalog.index
    (∀ s, x.Scan (fun r => ∃ t, Tag.parse? s = some t ∧ t.text ∈ r.tags) (x.byTag s)) ∧
    (∀ id, x.Scan (fun r => ∃ b, x.records.find? id = some b ∧ b.titleKey ∈ r.linkKeys)
      (x.backlinksTo id)) ∧
    (∀ s, x.Scan (fun r => String.ofList (Text.lower (Text.trim s.toList)) ∈ r.linkKeys)
      (x.linkingTo s)) ∧
    ∀ k, (x.lookup (x.tags.ids k)).map Record.id = (x.tags.ids k).toList ∧
      (x.lookup (x.links.ids k)).map Record.id = (x.links.ids k).toList ∧
      (x.lookup (x.backlinks.ids k)).map Record.id = (x.backlinks.ids k).toList := by
  intro x
  have hexact : x.Exact := exact_invariant.reached store rs
  exact ⟨hexact.scan_byTag, hexact.scan_backlinksTo, hexact.scan_linkingTo, hexact.ids_lookup⟩

/-! ## Tags that are listed -/

/-- The records of an index are those of notes, so their tags are known to have been read. -/
theorem parse?_tag_iff {notes : String → Option Note} {x : Index} (h : x.Knows notes) {r : Record}
    (hr : r ∈ x.records.values) {t : String} (ht : t ∈ r.tags) :
    Tag.parse? t = some ⟨t⟩ ↔ t.toList.head? ≠ some '#' := by
  have hfind := Keyed.find?_key hr
  rw [h.records] at hfind
  obtain ⟨n, -, rfl⟩ := Option.map_eq_some_iff.mp hfind
  exact Record.parse?_tag_iff ht

/-- A tag is listed with the number of notes that carry it. These are what looking it up finds,
unless it begins with a hash sign: then the records found are those of another tag. A query in that
tag alone selects what looking it up finds, and has an answer if these can be put in the order it
asks for, if any. -/
theorem listed_tag_found (store : Option Store) (rs : List Request) {t : String} {n : Nat}
    (h : (t, n) ∈ ((start store).after rs).catalog.index.allTags) :
    let x := ((start store).after rs).catalog.index
    (x.records.values.filter (t ∈ ·.tags)).length = n ∧
    (t.toList.head? ≠ some '#' → x.Scan (t ∈ ·.tags) (x.byTag t) ∧ (x.byTag t).length = n) ∧
    (t.toList.head? = some '#' →
      ∀ r ∈ x.byTag t, ∃ u, Tag.parse? t = some u ∧ u.text ≠ t ∧ u.text ∈ r.tags) ∧
    ∀ (q : Query) (b : Notebook), q.sources = [.tag ⟨t⟩] → q.limit = none →
      let tagged := (x.byTag t).filter fun r => q.conditions.all fun c => c.accepts r
      (q.Sortable tagged → (q.run x b).isSome = true) ∧
      ∀ answer, q.run x b = some answer →
        ∃ found, answer = q.project b found ∧ found.Perm tagged := by
  intro x
  obtain ⟨notes, hknows⟩ := knows_invariant.reached store rs
  have hexact : x.Exact := hknows.exact
  obtain ⟨hne, hcount⟩ := (hexact.mem_allTags_iff t n).mp h
  have hscan := hexact.scan_byTag t
  have hread : Tag.parse? t = some ⟨t⟩ ↔ t.toList.head? ≠ some '#' := by
    obtain ⟨r, hr⟩ := List.exists_mem_of_length_pos (Nat.pos_of_ne_zero (hcount ▸ hne))
    obtain ⟨hmem, ht⟩ := List.mem_filter.mp hr
    exact parse?_tag_iff hknows hmem (of_decide_eq_true ht)
  refine ⟨hcount, fun hhash => ?_, fun hhash r hr => ?_, fun q b hsource hlimit => ?_⟩
  · have hsame : x.Scan (t ∈ ·.tags) (x.byTag t) := by
      refine hscan.congr fun r _ => ?_
      rw [hread.mpr hhash]
      simp
    exact ⟨hsame, hsame.perm.length_eq.trans hcount⟩
  · obtain ⟨u, hu, hmem⟩ := ((hscan.mem_iff r).mp hr).2
    refine ⟨u, hu, fun he => ?_, hmem⟩
    subst he
    exact hread.mp hu hhash
  · intro tagged
    have hperm : (q.selected x).Perm tagged := Query.selected_tag_perm hexact hsource
    refine ⟨fun hsortable => ?_, fun answer hanswer => ?_⟩
    · rw [Query.run, Option.isSome_map, Option.isSome_iff_ne_none]
      exact fun hnone => Query.not_sortable_of_matched hnone (hsortable.subset hperm.subset)
    · obtain ⟨found, hfound, rfl⟩ := Option.map_eq_some_iff.mp hanswer
      exact ⟨found, rfl, (Query.perm_of_matched hlimit hfound).trans hperm⟩

/-- Hash signs in front, letter case and another tag on the same note are no hindrance. -/
theorem listed_tag_found_twice :
    let a := Note.page "a" "Alpha" "---\ntags: [#Work, \"## ΟΔΟΣ\"]\n---\n"
    let b := Note.page "b" "Beta" "#work and #WORK"
    let x := ((start none).after [.put a, .put b, .init]).catalog.index
    ("work", 2) ∈ x.allTags ∧ (x.byTag "work").length = 2 := by
  intro a b x
  have hlisted : ("work", 2) ∈ x.allTags := by decide +kernel
  have hfound := (listed_tag_found none [.put a, .put b, .init] hlisted).2.1 (by decide +kernel)
  exact ⟨hlisted, hfound.2⟩

/-- The text `# #a` gives the tag `#a`, which is listed but read as `a` when it is looked up. -/
theorem hashed_tag_not_found :
    let a := Note.page "a" "Alpha" "---\ntags: # #a\n---\n"
    let x := ((start none).after [.put a, .init]).catalog.index
    ("#a", 1) ∈ x.allTags ∧ (x.records.values.filter ("#a" ∈ ·.tags)).length = 1 ∧
      x.byTag "#a" = [] ∧
      ∀ q : Query, q.sources = [.tag ⟨"#a"⟩] → q.matched x = some [] := by
  intro a x
  have hexact : x.Exact := exact_invariant.reached none [.put a, .init]
  have hlisted : ("#a", 1) ∈ x.allTags := by decide +kernel
  have hnone : x.byTag "#a" = [] := List.length_eq_zero_iff.mp (by decide +kernel)
  refine ⟨hlisted, ((hexact.mem_allTags_iff _ _).mp hlisted).2, hnone, fun q hsource => ?_⟩
  have hperm := Query.selected_tag_perm hexact hsource
  rw [hnone] at hperm
  have hselected : q.selected x = [] := hperm.eq_nil
  obtain ⟨found, hfound⟩ := Option.ne_none_iff_exists'.mp fun h => Query.not_sortable_of_matched h
    (by rw [hselected]; nofun)
  have hempty : found ⊆ [] := hselected ▸ Query.subset_of_matched hfound
  rw [hfound, List.subset_nil.mp hempty]

end NoteIndex.Session
