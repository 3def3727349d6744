import NoteIndex.Proofs.Collection.Keys
import NoteIndex.Proofs.Session.Basic

/-!
# Which links are reported as leading nowhere

The check of an index resolves links anew, from the records alone. Of each record and link key that
is no note's title it reports the link that stands first, in the order of the records and of their
links. Of an index that is exact it reports nothing else, and what it does not report is what the
map of backlinks has.
-/

namespace NoteIndex

/-- The issue is that a link of that key, in that note, leads nowhere. -/
def Issue.isUnresolved (id key : String) : Issue → Bool
  | .unresolvedLink i target => i == id && Text.lowercase target == key
  | _ => false

namespace Index

/-! ## The first link of each key -/

/-- No link before that place has the key of the one there. -/
def FirstOfKey (ls : List Link) (i : Fin ls.length) : Prop := ∀ j < i, ls[j].key ≠ ls[i].key

instance (ls : List Link) (i : Fin ls.length) : Decidable (FirstOfKey ls i) :=
  inferInstanceAs (Decidable (∀ j < i, ls[j].key ≠ ls[i].key))

theorem firstOfKey_zero (l : Link) (r : List Link) : FirstOfKey (l :: r) (0 : Fin (r.length + 1)) :=
  fun j hj => absurd hj (Fin.not_lt_zero j)

theorem firstOfKey_succ_iff (l : Link) (r : List Link) (i : Fin r.length) :
    FirstOfKey (l :: r) i.succ ↔ r[i].key ≠ l.key ∧ FirstOfKey r i := by
  refine Fin.forall_fin_succ.trans (and_congr ?_ (forall_congr' fun j => ?_))
  · exact ⟨fun h he => h i.succ_pos he.symm, fun h _ he => h he.symm⟩
  · exact imp_congr_left Fin.succ_lt_succ_iff

section Links

variable {key : String}

theorem distinctLinks_eq (seen : List String) (ls : List Link) :
    distinctLinks seen ls = ((List.finRange ls.length).filter fun i =>
      ls[i].key ∉ seen ∧ FirstOfKey ls i).map (ls[·]) := by
  induction ls generalizing seen with
  | nil => rfl
  | cons l r ih =>
    have hrange : List.finRange (l :: r).length = 0 :: (List.finRange r.length).map Fin.succ :=
      List.finRange_succ
    -- A later link is first of its key in the whole list if the link in front has another key.
    have hlater (i : Fin r.length) :
        ((l :: r)[i.succ].key ∉ seen ∧ FirstOfKey (l :: r) i.succ) ↔
          r[i].key ∉ l.key :: seen ∧ FirstOfKey r i := by
      rw [List.mem_cons, not_or, and_comm (a := r[i].key ≠ l.key), and_assoc]
      exact and_congr_right fun _ => firstOfKey_succ_iff l r i
    rw [hrange, List.filter_cons, List.filter_map, distinctLinks]
    by_cases hl : l.key ∈ seen
    · have hsame (i : Fin r.length) : r[i].key ∉ l.key :: seen ↔ r[i].key ∉ seen := by
        rw [List.mem_cons, not_or]
        exact and_iff_right_of_imp fun h he => h (he ▸ hl)
      rw [if_pos (List.contains_iff_mem.mpr hl), if_neg (by simp [hl]), ih seen, List.map_map]
      refine congrArg _ (List.filter_congr fun i _ => decide_eq_decide.mpr ?_)
      rw [hlater, hsame]
    · rw [if_neg (by simpa using hl), if_pos (by simp [hl, firstOfKey_zero]), ih (l.key :: seen),
        List.map_cons, List.map_map]
      refine congrArg (l :: ·) (congrArg _ (List.filter_congr fun i _ => ?_))
      exact decide_eq_decide.mpr (hlater i).symm

theorem mem_of_mem_distinctLinks {seen : List String} {ls : List Link} {l : Link}
    (h : l ∈ distinctLinks seen ls) : l ∈ ls := by
  rw [distinctLinks_eq, List.mem_map] at h
  obtain ⟨i, -, rfl⟩ := h
  exact List.getElem_mem _

theorem not_mem_of_mem_distinctLinks {seen : List String} {ls : List Link} {l : Link}
    (h : l ∈ distinctLinks seen ls) : l.key ∉ seen := by
  rw [distinctLinks_eq, List.mem_map] at h
  obtain ⟨i, hi, rfl⟩ := h
  exact (of_decide_eq_true (List.mem_filter.mp hi).2).1

theorem key_of_find? {ls : List Link} {l : Link} (h : ls.find? (·.key == key) = some l) :
    l.key = key := by
  simpa using List.find?_some h

theorem filter_distinctLinks {seen : List String} (h : key ∉ seen) (ls : List Link) :
    (distinctLinks seen ls).filter (·.key == key) = (ls.find? (·.key == key)).toList := by
  induction ls generalizing seen with
  | nil => rfl
  | cons l r ih =>
    rw [distinctLinks]
    split
    · rename_i hseen
      have hl : l.key ≠ key := by
        rintro rfl
        exact h (List.contains_iff_mem.mp hseen)
      rw [ih h, List.find?_cons_of_neg (by simpa using hl)]
    · by_cases hl : l.key = key
      · -- From here on the key has been seen.
        have hrest : (distinctLinks (l.key :: seen) r).filter (·.key == key) = [] := by
          refine List.filter_eq_nil_iff.mpr fun m hm hkey => ?_
          refine not_mem_of_mem_distinctLinks hm ?_
          rw [eq_of_beq hkey, hl]
          exact List.mem_cons_self
        rw [List.filter_cons_of_pos (by simpa using hl), hrest,
          List.find?_cons_of_pos (by simpa using hl)]
        rfl
      · rw [List.filter_cons_of_neg (by simpa using hl), List.find?_cons_of_neg (by simpa using hl)]
        exact ih (List.not_mem_cons_of_ne_of_not_mem (Ne.symm hl) h)

end Links

/-! ## What the check reports -/

theorem isEmpty_titles_iff (rs : Records) (key : String) :
    ((titlesOf rs.values).ids key).isEmpty = true ↔ ∀ q ∈ rs.values, q.titleKey ≠ key := by
  have htitled (b : String) : b ∈ (titlesOf rs.values).ids key ↔ rs.Titled key b :=
    (lists_titlesOf rs).mem_iff key b
  rw [StringSet.isEmpty_iff]
  constructor
  · intro hempty q hq hkey
    refine StringSet.not_mem_empty q.id ?_
    rw [← hempty, htitled]
    exact ⟨q, Keyed.find?_key hq, hkey⟩
  · intro h
    ext b
    refine iff_of_false (fun hb => ?_) (StringSet.not_mem_empty b)
    obtain ⟨q, hq, hkey, -⟩ := Keyed.has_iff_exists.mp ((htitled b).mp hb)
    exact h q hq hkey

/-- Of a record the check reports the links that are the first of a key without a note. -/
theorem unresolvedOf_eq (rs : Records) (r : Record) :
    unresolvedOf (titlesOf rs.values) r = ((List.finRange r.links.length).filter fun i =>
      FirstOfKey r.links i ∧ ∀ q ∈ rs.values, q.titleKey ≠ r.links[i].key).map fun i =>
        .unresolvedLink r.id r.links[i].target := by
  rw [unresolvedOf, distinctLinks_eq, List.filter_map, List.filter_filter, List.map_map]
  refine congrArg _ (List.filter_congr fun i _ => ?_)
  rw [Bool.eq_iff_iff, Bool.and_eq_true, decide_eq_true_iff, decide_eq_true_iff, and_comm]
  refine and_congr (and_iff_right List.not_mem_nil) ?_
  exact isEmpty_titles_iff rs r.links[i].key

/-- At most one link of a key is reported, the first. -/
theorem filter_unresolvedOf (titles : IdMap) (r : Record) {key : String} {l : Link}
    (h : r.links.find? (·.key == key) = some l) :
    (unresolvedOf titles r).filter (Issue.isUnresolved r.id key) =
      if (titles.ids key).isEmpty then [.unresolvedLink r.id l.target] else [] := by
  have hissue : Issue.isUnresolved r.id key ∘ (fun l : Link => .unresolvedLink r.id l.target) =
      fun l => l.key == key := by
    funext l
    exact (congrArg (· && l.key == key) (beq_self_eq_true r.id)).trans (Bool.true_and _)
  have hfirst : (distinctLinks [] r.links).filter (·.key == key) = [l] := by
    rw [filter_distinctLinks List.not_mem_nil, h]
    rfl
  have hswap : ((distinctLinks [] r.links).filter fun l => (titles.ids l.key).isEmpty).filter
      (fun l => l.key == key) = [l].filter fun l => (titles.ids l.key).isEmpty := by
    rw [← hfirst, List.filter_filter, List.filter_filter]
    exact List.filter_congr fun m _ => Bool.and_comm ..
  rw [unresolvedOf, List.filter_map, hissue, hswap, List.filter_singleton, key_of_find? h]
  by_cases hempty : (titles.ids key).isEmpty = true <;> simp [hempty]

/-- No link is left out of the check but for one of its key that comes before it. -/
theorem unresolvedOf_eq_nil_iff (titles : IdMap) (r : Record) :
    unresolvedOf titles r = [] ↔ ∀ l ∈ r.links, (titles.ids l.key).isEmpty = false := by
  constructor
  · intro hnone l hl
    obtain ⟨m, hm⟩ : ∃ m, r.links.find? (·.key == l.key) = some m :=
      Option.isSome_iff_exists.mp (List.find?_isSome.mpr ⟨l, hl, beq_self_eq_true l.key⟩)
    have hfilter := filter_unresolvedOf titles r hm
    rw [hnone, List.filter_nil] at hfilter
    by_contra hempty
    rw [if_pos (by simpa using hempty)] at hfilter
    cases hfilter
  · intro h
    refine List.map_eq_nil_iff.mpr (List.filter_eq_nil_iff.mpr fun l hl => ?_)
    rw [h l (mem_of_mem_distinctLinks hl)]
    exact Bool.false_ne_true

theorem filter_unresolvedOf_of_ne (titles : IdMap) (r : Record) {id : String} (h : r.id ≠ id)
    (key : String) : (unresolvedOf titles r).filter (Issue.isUnresolved id key) = [] := by
  refine List.filter_eq_nil_iff.mpr fun i hi => ?_
  obtain ⟨l, -, rfl⟩ := List.mem_map.mp hi
  simp [Issue.isUnresolved, h]

theorem validate_eq_of_hasErrors {x : Index} (h : x.validate.hasErrors = false) :
    x.validate = x.records.values.flatMap (unresolvedOf (titlesOf x.records.values)) := by
  have hmaps := h
  simp only [validate, hasErrors_append, Bool.or_eq_false_iff, hasErrors_checkMap] at hmaps
  obtain ⟨⟨⟨-, htags⟩, hlinks⟩, hbacklinks⟩ := hmaps
  simp only [validate, htags, hlinks, hbacklinks, List.append_nil]

/-- What is reported of one record and key, among all that is reported. -/
theorem filter_validate {x : Index} (hx : x.validate.hasErrors = false) {r : Record}
    (hr : r ∈ x.records.values) {key : String} {l : Link}
    (h : r.links.find? (·.key == key) = some l) :
    x.validate.filter (Issue.isUnresolved r.id key) =
      if ∀ q ∈ x.records.values, q.titleKey ≠ key then [.unresolvedLink r.id l.target] else [] := by
  rw [validate_eq_of_hasErrors hx, List.filter_flatMap,
    flatMap_of_key x.records.nodup_values hr fun q _ hid => filter_unresolvedOf_of_ne _ q hid key,
    filter_unresolvedOf _ r h]
  simp only [isEmpty_titles_iff]

theorem validate_eq_nil_iff {x : Index} (hx : x.validate.hasErrors = false) :
    x.validate = [] ↔ ∀ r ∈ x.records.values, ∀ l ∈ r.links,
      ∃ q ∈ x.records.values, q.titleKey = l.key := by
  have htitle (key : String) : ((titlesOf x.records.values).ids key).isEmpty = false ↔
      ∃ q ∈ x.records.values, q.titleKey = key := by
    rw [← Bool.not_eq_true, isEmpty_titles_iff]
    simp
  simp only [validate_eq_of_hasErrors hx, List.flatMap_eq_nil_iff, unresolvedOf_eq_nil_iff, htitle]

/-- The notes whose backlinks list a note are those whose title it links to. -/
theorem Exact.mem_backlinks_iff {x : Index} (h : x.Exact) {a b : Record}
    (ha : a ∈ x.records.values) (hb : b ∈ x.records.values) :
    a.id ∈ x.backlinks.ids b.id ↔ b.titleKey ∈ a.linkKeys := by
  rw [h.backlinks.mem_iff]
  constructor
  · rintro ⟨key, hlinks, htitled⟩
    rw [(Keyed.has_iff (Keyed.find?_key hb)).mp htitled]
    exact (Keyed.has_iff (Keyed.find?_key ha)).mp hlinks
  · intro hkey
    exact ⟨b.titleKey, (Keyed.has_iff (Keyed.find?_key ha)).mpr hkey,
      (Keyed.has_iff (Keyed.find?_key hb)).mpr rfl⟩

end Index

namespace Session

open Index

/-- Whatever has been asked of a session, the check reports of its index just the links without a
note: those of a record after those of the records before it, in the order of its links, of each key
the one that stands first. A key of a link is not reported just if the backlinks of a note of that
title list the record. -/
theorem unresolved_links_reported (store : Option Store) (rs : List Request) :
    let x := ((start store).after rs).catalog.index
    (x.validate = x.records.values.flatMap fun r =>
      ((List.finRange r.links.length).filter fun i =>
        (∀ j < i, r.links[j].key ≠ r.links[i].key) ∧
          ∀ q ∈ x.records.values, q.titleKey ≠ r.links[i].key).map fun i =>
            .unresolvedLink r.id r.links[i].target) ∧
    ∀ r ∈ x.records.values, ∀ key l, r.links.find? (·.key == key) = some l →
      (x.validate.filter (Issue.isUnresolved r.id key) =
        if ∀ q ∈ x.records.values, q.titleKey ≠ key then [.unresolvedLink r.id l.target]
        else []) ∧
      (x.validate.filter (Issue.isUnresolved r.id key) = [] ↔
        ∃ b ∈ x.records.values, b.titleKey = key ∧ r.id ∈ x.backlinks.ids b.id) := by
  intro x
  obtain ⟨hexact, hfree⟩ := reachable_index_exact store rs
  refine ⟨?_, fun r hr key l hl => ⟨filter_validate hfree hr hl, ?_⟩⟩
  · rw [validate_eq_of_hasErrors hfree]
    exact congrArg (List.flatMap · x.records.values) (funext (unresolvedOf_eq x.records))
  · have hlinks : key ∈ r.linkKeys := by
      have hmem := List.mem_of_find?_eq_some hl
      exact (StringSet.mem_ofList _ key).mpr (List.mem_map.mpr ⟨l, hmem, key_of_find? hl⟩)
    have hlisted : (∃ b ∈ x.records.values, b.titleKey = key ∧ r.id ∈ x.backlinks.ids b.id) ↔
        ∃ b ∈ x.records.values, b.titleKey = key := by
      refine exists_congr fun b => and_congr_right fun hb => and_iff_left_of_imp fun htitle => ?_
      rw [hexact.mem_backlinks_iff hr hb, htitle]
      exact hlinks
    rw [filter_validate hfree hr hl, hlisted, ite_eq_right_iff]
    simp [x]

/-- Of three links to a title that no note has, each with a spelling of its own, the first is
reported. The link to a title that a note has is not. -/
theorem unresolved_links_reported_once :
    let a := Note.page "a" "Alpha" "[[Beta]] or [[No Where]], [[no where|there]] and [[NO WHERE]]"
    let b := Note.page "b" "Beta" "[[alpha]]"
    let x := ((start none).after [.put a, .put b, .init]).catalog.index
    x.validate.filter (Issue.isUnresolved "a" "no where") = [.unresolvedLink "a" "No Where"] ∧
      x.validate.filter (Issue.isUnresolved "a" "beta") = [] := by
  intro a b x
  have hlinks : ∃ r ∈ x.records.values, r.id = "a" ∧
      (r.links.find? (·.key == "no where")).map Link.target = some "No Where" ∧
      (r.links.find? (·.key == "beta")).isSome ∧ ∃ b ∈ x.records.values, b.titleKey = "beta" ∧
      r.id ∈ x.backlinks.ids b.id := by
    decide +kernel
  obtain ⟨r, hr, hid, hnowhere, hbeta, hlisted⟩ := hlinks
  obtain ⟨l, hl, htarget⟩ := Option.map_eq_some_iff.mp hnowhere
  obtain ⟨m, hm⟩ := Option.isSome_iff_exists.mp hbeta
  have hreported := (unresolved_links_reported none [.put a, .put b, .init]).2 r hr
  rw [← hid]
  refine ⟨?_, (hreported _ m hm).2.mpr hlisted⟩
  rw [(hreported _ l hl).1, if_pos (by decide +kernel), htarget]

end Session

end NoteIndex
