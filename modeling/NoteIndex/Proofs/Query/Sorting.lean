import NoteIndex.Proofs.Collection.StableSort
import NoteIndex.Proofs.Query.Candidates
import NoteIndex.Proofs.Record.Values
import NoteIndex.Proofs.Session.Basic
import NoteIndex.Proofs.Value.Order

/-!
# Records in order

Records are put in the natural order of a property, upwards or downwards. Those that lack it come
last either way, and where it is equal the order stays as it was. This takes values that the natural
order does not lead round in circles, as it may among numbers and other values together: then
sorting is not sure to come to an end, and in what order it leaves the records is not said here. A
property that is a number wherever it is defined, or nowhere one, can always be sorted by.
-/

namespace NoteIndex.Query

/-! ## Standing in front -/

/-- The order of two defined properties, in the direction asked for. -/
def directed (descending : Bool) (a b : Value) : Ordering :=
  if descending then b.naturalCompare a else a.naturalCompare b

theorem comesBefore_some (descending : Bool) (a b : Value) :
    comesBefore descending (some a) (some b) = (directed descending a b == .lt) := by
  cases descending <;> rfl

theorem directed_swap (descending : Bool) (a b : Value) :
    directed descending b a = (directed descending a b).swap := by
  cases descending
  · exact a.naturalCompare_swap b
  · exact b.naturalCompare_swap a

/-- What does not come before comes after, or is equal. -/
theorem comesBefore_eq_false_iff (descending : Bool) (a b : Value) :
    comesBefore descending (some b) (some a) = false ↔ (directed descending a b).isLE = true := by
  rw [comesBefore_some, directed_swap]
  cases directed descending a b <;> decide

theorem comesBefore_asymm (descending : Bool) (p q : Option Value)
    (h : comesBefore descending p q = true) : comesBefore descending q p = false := by
  match p, q with
  | none, _ => cases h
  | some _, none => rfl
  | some a, some b =>
    rw [comesBefore_some, beq_iff_eq] at h
    rw [comesBefore_eq_false_iff, h]
    rfl

/-- The records have the property alike: both lack it, or what they have is equal. -/
def tied (field : String) (r s : Record) : Bool :=
  match r.property? field, s.property? field with
  | some v, some w => v.naturalCompare w == .eq
  | none, none => true
  | _, _ => false

namespace Order

/-- A record may stand in front of another. If it lacks the property, so does the other, and if both
have it, it does not come later in the order asked for. -/
def Allows (o : Order) (r s : Record) : Prop :=
  (r.property? o.field = none → s.property? o.field = none) ∧
  ∀ v w, r.property? o.field = some v → s.property? o.field = some w →
    if o.descending then v.naturalCompare w ≠ .lt else v.naturalCompare w ≠ .gt

variable {o : Order} {r s : Record} {rs sorted : List Record}

theorem allows_iff : o.Allows r s ↔
    comesBefore o.descending (s.property? o.field) (r.property? o.field) = false := by
  rw [Allows]
  cases hr : r.property? o.field <;> cases hs : s.property? o.field
  case some.some v w =>
    rw [comesBefore_eq_false_iff, directed, Value.naturalCompare_swap v w]
    cases o.descending <;> cases hvw : v.naturalCompare w <;> simp [hvw]
  all_goals simp [comesBefore]

theorem allows_of_tied (h : tied o.field r s = true) : o.Allows r s ∧ o.Allows s r := by
  rw [tied] at h
  rw [allows_iff, allows_iff]
  cases hr : r.property? o.field <;> cases hs : s.property? o.field <;>
    simp only [hr, hs, Bool.false_eq_true] at h
  case none.none => exact ⟨rfl, rfl⟩
  case some.some v w =>
    rw [beq_iff_eq] at h
    have hdirected : directed o.descending v w = .eq := by
      cases hd : o.descending
      · exact h
      · rw [directed, if_pos rfl, Value.naturalCompare_swap, h]
        rfl
    rw [comesBefore_some, comesBefore_some, directed_swap, hdirected]
    exact ⟨rfl, rfl⟩

/-- The records can be put in order: what may stand in front of a record may do so of all that the
record may stand in front of. -/
def Sortable (o : Order) (rs : List Record) : Prop :=
  ∀ r ∈ rs, ∀ s ∈ rs, ∀ t ∈ rs, o.Allows r s → o.Allows s t → o.Allows r t

theorem Sortable.subset {ss : List Record} (h : o.Sortable rs) (hss : ss ⊆ rs) : o.Sortable ss :=
  fun r hr s hs t ht => h r (hss hr) s (hss hs) t (hss ht)

theorem sortable_iff : o.Sortable rs ↔ Ranks (fun r s =>
    comesBefore o.descending (r.property? o.field) (s.property? o.field)) rs := by
  simp only [Sortable, allows_iff]
  exact ⟨fun h => ⟨fun _ _ _ _ => comesBefore_asymm _ _ _, h⟩, Ranks.trans⟩

instance : Decidable (o.Allows r s) := decidable_of_iff _ allows_iff.symm

theorem sortRecords_eq_none_iff :
    sortRecords o rs = none ↔ 20 < rs.length ∧ ¬o.Sortable rs := by
  rw [Query.sortRecords_eq, sortBy?_eq_none_iff, sortable_iff]

theorem Sortable.sortRecords_eq (h : o.Sortable rs) :
    sortRecords o rs = some (sortStable (fun r s =>
      comesBefore o.descending (r.property? o.field) (s.property? o.field)) rs) := by
  rw [Query.sortRecords_eq]
  exact sortBy?_of_ranks (sortable_iff.mp h)

theorem Sortable.pairwise (h : o.Sortable rs) (hsorted : sortRecords o rs = some sorted) :
    sorted.Pairwise o.Allows := by
  rw [h.sortRecords_eq] at hsorted
  rw [← Option.some.inj hsorted]
  exact (pairwise_sortStable (sortable_iff.mp h)).imp allows_iff.mpr

/-- Of records that are tied with one of the list none comes before another. -/
theorem Sortable.filter_tied (h : o.Sortable rs) (hsorted : sortRecords o rs = some sorted)
    (hr : r ∈ rs) : sorted.filter (tied o.field r) = rs.filter (tied o.field r) := by
  rw [h.sortRecords_eq] at hsorted
  rw [← Option.some.inj hsorted]
  refine filter_sortStable fun s hs t ht hrs hrt => allows_iff.mp ?_
  exact h t ht r hr s hs (allows_of_tied hrt).2 (allows_of_tied hrs).1

end Order

/-! ## Queries -/

section Query

variable {q : Query} {x : Index} {rs sorted : List Record}

/-- The records can be put in the order that is asked for, if any is. -/
def Sortable (q : Query) (rs : List Record) : Prop := ∀ o ∈ q.order, o.Sortable rs

theorem Sortable.subset {ss : List Record} (h : q.Sortable rs) (hss : ss ⊆ rs) : q.Sortable ss :=
  fun o ho => (h o ho).subset hss

/-- `sorted` are the records as they are asked for: left alone if no order is, and otherwise the
same ones rearranged. Where they can be put in order they are, and those that tie keep theirs. -/
structure Arranges (q : Query) (rs sorted : List Record) : Prop where
  perm : sorted.Perm rs
  eq_of_unordered : q.order = none → sorted = rs
  ordered : ∀ o ∈ q.order, o.Sortable rs → sorted.Pairwise o.Allows ∧
    ∀ r ∈ rs, sorted.filter (tied o.field r) = rs.filter (tied o.field r)

theorem arranges_of_arranged (h : q.arranged rs = some sorted) : q.Arranges rs sorted where
  perm := perm_of_arranged h
  eq_of_unordered := fun horder => by
    rw [arranged_of_unordered horder] at h
    exact (Option.some.inj h).symm
  ordered := fun o ho hsortable => by
    rw [arranged, Option.mem_def.mp ho] at h
    exact ⟨hsortable.pairwise h, fun r hr => hsortable.filter_tied h hr⟩

/-- Arranging records ends unless they cannot be put in the order asked for. -/
theorem not_sortable_of_arranged (h : q.arranged rs = none) : ¬q.Sortable rs := by
  intro hsortable
  rw [arranged] at h
  split at h
  · rename_i o ho
    rw [(hsortable o ho).sortRecords_eq] at h
    cases h
  · cases h

theorem not_sortable_of_matched (h : matched x q = none) : ¬q.Sortable (selected x q) :=
  not_sortable_of_arranged (Option.map_eq_none_iff.mp h)

end Query

/-! ## Properties of one kind -/

/-- The properties are numbers wherever they are defined, or nowhere. -/
def OfOneKind (ps : List (Option Value)) : Prop :=
  (∀ p ∈ ps, ∀ v ∈ p, v.IsNumeric) ∨ ∀ p ∈ ps, ∀ v ∈ p, ¬v.IsNumeric

instance (ps : List (Option Value)) : Decidable (OfOneKind ps) :=
  inferInstanceAs (Decidable (_ ∨ _))

section Kind

variable {ps : List (Option Value)} {a b c : Value}

theorem OfOneKind.isLE_trans (h : OfOneKind ps) (hproper : ∀ p ∈ ps, ∀ v ∈ p, v.Proper)
    (descending : Bool) (ha : some a ∈ ps) (hb : some b ∈ ps) (hc : some c ∈ ps)
    (hab : (directed descending a b).isLE) (hbc : (directed descending b c).isLE) :
    (directed descending a c).isLE := by
  have hne {v : Value} (hv : some v ∈ ps) : v ≠ .number .notANumber := (hproper _ hv v rfl).ne
  have htrans {a b c : Value} (ha : some a ∈ ps) (hb : some b ∈ ps) (hc : some c ∈ ps)
      (hab : (a.naturalCompare b).isLE) (hbc : (b.naturalCompare c).isLE) :
      (a.naturalCompare c).isLE := by
    rcases h with hnum | htext
    · exact Value.isLE_trans_of_numeric (hne ha) (hne hb) (hne hc) (hnum _ ha a rfl)
        (hnum _ hb b rfl) (hnum _ hc c rfl) hab hbc
    · exact Value.isLE_trans_of_not_numeric (htext _ ha a rfl) (htext _ hb b rfl) hab hbc
  cases descending
  · exact htrans ha hb hc hab hbc
  · exact htrans hc hb ha hbc hab

theorem OfOneKind.ranks (h : OfOneKind ps) (hproper : ∀ p ∈ ps, ∀ v ∈ p, v.Proper)
    (descending : Bool) : Ranks (comesBefore descending) ps where
  asymm := fun p _ q _ => comesBefore_asymm descending p q
  trans := by
    intro p hp q hq r hr hqp hrq
    match p, q, r with
    | none, none, none => rfl
    | none, some _, _ => cases hqp
    | _, none, some _ => cases hrq
    | some _, _, none => rfl
    | some a, some b, some c =>
      rw [comesBefore_eq_false_iff] at hqp hrq ⊢
      exact h.isLE_trans hproper descending hp hq hr hqp hrq

theorem OfOneKind.sortable {o : Order} {rs : List Record}
    (h : OfOneKind (rs.map (·.property? o.field)))
    (hproper : ∀ r ∈ rs, ∀ v ∈ r.property? o.field, v.Proper) : o.Sortable rs :=
  Order.sortable_iff.mpr
    (ranks_map_iff.mp (h.ranks (List.forall_mem_map.mpr hproper) o.descending))

end Kind

/-- Records of notes with a property of one kind are put in order. They are only rearranged, those
that lack it come last in either direction, it does not fall where it should rise nor rise where it
should fall, and those in which it is equal keep their order. -/
theorem sortRecords_ordered (o : Order) {rs : List Record}
    (hrs : ∀ r ∈ rs, ∃ n, r = Record.ofNote n) (hkind : OfOneKind (rs.map (·.property? o.field))) :
    ∃ sorted, sortRecords o rs = some sorted ∧ sorted.Perm rs ∧
      sorted.Pairwise (fun r s => r.property? o.field = none → s.property? o.field = none) ∧
      sorted.Pairwise (fun r s => ∀ v w, r.property? o.field = some v →
        s.property? o.field = some w →
        if o.descending then v.naturalCompare w ≠ .lt else v.naturalCompare w ≠ .gt) ∧
      ∀ r ∈ rs, sorted.filter (tied o.field r) = rs.filter (tied o.field r) := by
  have hsortable : o.Sortable rs := hkind.sortable fun r hr v hv => by
    obtain ⟨n, rfl⟩ := hrs r hr
    exact Record.proper_property? hv
  have hsorted := hsortable.sortRecords_eq
  have hpairwise := hsortable.pairwise hsorted
  exact ⟨_, hsorted, perm_of_sortRecords hsorted, hpairwise.imp And.left, hpairwise.imp And.right,
    fun r hr => hsortable.filter_tied hsorted hr⟩

/-- Downwards by a property that is 10 for the first and the last record, the text `2` for the third
and missing in the second. -/
theorem sortRecords_ordered_downwards :
    let rs := [Note.page "a" "A" "---\nrank: 10\n---", .page "b" "B" "rank: 7",
      .page "c" "C" "---\nrank: \"2\"\n---", .page "d" "D" "---\nrank: 1e1\n---"].map Record.ofNote
    ((∀ r ∈ rs, ∃ n, r = Record.ofNote n) ∧ OfOneKind (rs.map (·.property? "rank"))) ∧
      ∃ sorted, sortRecords ⟨"rank", true⟩ rs = some sorted ∧
        sorted.map Record.id = ["a", "d", "c", "b"] ∧ sorted.Perm rs ∧
        sorted.Pairwise (fun r s => r.property? "rank" = none → s.property? "rank" = none) ∧
        sorted.Pairwise (fun r s => ∀ v w, r.property? "rank" = some v →
          s.property? "rank" = some w → v.naturalCompare w ≠ .lt) ∧
        ∀ r ∈ rs, sorted.filter (tied "rank" r) = rs.filter (tied "rank" r) := by
  intro rs
  have hnotes : ∀ r ∈ rs, ∃ n, r = Record.ofNote n :=
    List.forall_mem_map.mpr fun n _ => ⟨n, rfl⟩
  have hkind : OfOneKind (rs.map (·.property? "rank")) := by decide +kernel
  obtain ⟨sorted, hsorted, hordered⟩ := sortRecords_ordered ⟨"rank", true⟩ hnotes hkind
  have hids : (sortRecords ⟨"rank", true⟩ rs).map (fun sorted => sorted.map Record.id) =
      some ["a", "d", "c", "b"] := by decide +kernel
  rw [hsorted] at hids
  exact ⟨⟨hnotes, hkind⟩, sorted, hsorted, Option.some.inj hids, hordered⟩

end NoteIndex.Query
