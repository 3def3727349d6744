import NoteIndex.Value.Compare

/-!
# The natural order of values

Two values that read as numbers are compared by size, any other two by their texts. Turned round,
the answer is turned over. The order is transitive among numbers, and among values of which one at
most is a number. Among two numbers and another value it need not be: as texts `10a` comes before
`9`, as numbers `9` before `10`, and as texts `10` before `10a`. It is as long as the texts of the
two numbers stand as the numbers do, and no longer.
-/

namespace NoteIndex

namespace Number

theorem exists_position {n : Number} (h : n ≠ .notANumber) : ∃ x, n.position = some x := by
  cases n with
  | finite negative units => exact ⟨_, rfl⟩
  | infinite negative => exact ⟨_, rfl⟩
  | notANumber => exact absurd rfl h

theorem swap_compare? (m n : Number) :
    (n.compare? m).getD .eq = ((m.compare? n).getD .eq).swap := by
  cases hm : m.position <;> cases hn : n.position <;> simp only [compare?, hm, hn] <;> try rfl
  exact Std.OrientedOrd.eq_swap

end Number

namespace Value

def IsNumeric (v : Value) : Prop := v.asNumber?.isSome = true

instance (v : Value) : Decidable v.IsNumeric := inferInstanceAs (Decidable (_ = true))

theorem not_isNumeric_iff (v : Value) : ¬v.IsNumeric ↔ v.asNumber? = none := by
  simp [IsNumeric]

/-- Where the value stands among the numbers. -/
def place? (v : Value) : Option Int := v.asNumber?.bind Number.position

/-- Text is never read as the value that is no number, so only a number can be it. -/
theorem exists_place {v : Value} (hnan : v ≠ .number .notANumber) (h : v.IsNumeric) :
    ∃ x, v.place? = some x := by
  obtain ⟨n, hn⟩ := Option.isSome_iff_exists.mp h
  have hne : n ≠ .notANumber := by
    rintro rfl
    cases v with
    | number n =>
      cases hn
      exact hnan rfl
    | string s => exact Number.ne_notANumber_of_parseText? hn rfl
    | _ => cases hn
  rw [place?, hn]
  exact Number.exists_position hne

theorem naturalCompare_of_numbers {a b : Value} {m n : Number} (ha : a.asNumber? = some m)
    (hb : b.asNumber? = some n) : a.naturalCompare b = (m.compare? n).getD .eq := by
  rw [naturalCompare, ha, hb]

theorem naturalCompare_of_places {a b : Value} {x y : Int} (ha : a.place? = some x)
    (hb : b.place? = some y) : a.naturalCompare b = compare x y := by
  obtain ⟨m, hm, hx⟩ := Option.bind_eq_some_iff.mp ha
  obtain ⟨n, hn, hy⟩ := Option.bind_eq_some_iff.mp hb
  rw [naturalCompare_of_numbers hm hn, Number.compare?, hx, hy]
  rfl

theorem naturalCompare_of_text {a b : Value} (h : ¬a.IsNumeric ∨ ¬b.IsNumeric) :
    a.naturalCompare b = compare a.text b.text := by
  simp only [not_isNumeric_iff] at h
  rcases h with h | h
  · rw [naturalCompare, h]
    rfl
  · rw [naturalCompare, h]
    cases a.asNumber? <;> rfl

/-- The other way round the answer is turned over. -/
theorem naturalCompare_swap (a b : Value) : b.naturalCompare a = (a.naturalCompare b).swap := by
  by_cases h : a.IsNumeric ∧ b.IsNumeric
  · obtain ⟨m, hm⟩ := Option.isSome_iff_exists.mp h.1
    obtain ⟨n, hn⟩ := Option.isSome_iff_exists.mp h.2
    rw [naturalCompare_of_numbers hm hn, naturalCompare_of_numbers hn hm, Number.swap_compare?]
  · have h := Classical.not_and_iff_not_or_not.mp h
    rw [naturalCompare_of_text h, naturalCompare_of_text h.symm]
    exact Std.OrientedOrd.eq_swap

/-! ## Transitivity -/

section Transitive

variable {a b c : Value}

theorem isLE_trans_of_numeric (ha : a ≠ .number .notANumber) (hb : b ≠ .number .notANumber)
    (hc : c ≠ .number .notANumber) (hna : a.IsNumeric) (hnb : b.IsNumeric) (hnc : c.IsNumeric)
    (hab : (a.naturalCompare b).isLE) (hbc : (b.naturalCompare c).isLE) :
    (a.naturalCompare c).isLE := by
  obtain ⟨x, hx⟩ := exists_place ha hna
  obtain ⟨y, hy⟩ := exists_place hb hnb
  obtain ⟨z, hz⟩ := exists_place hc hnc
  rw [naturalCompare_of_places hx hy] at hab
  rw [naturalCompare_of_places hy hz] at hbc
  rw [naturalCompare_of_places hx hz]
  exact Std.TransCmp.isLE_trans hab hbc

/-- The texts of the values stand as the values do. -/
def OrderedByText (a b : Value) : Prop := a.naturalCompare b = compare a.text b.text

instance (a b : Value) : Decidable (OrderedByText a b) := inferInstanceAs (Decidable (_ = _))

/-- Only two numbers can stand otherwise than their texts. -/
theorem orderedByText_of_imp (h : a.IsNumeric → b.IsNumeric → OrderedByText a b) :
    OrderedByText a b := by
  by_cases hnum : a.IsNumeric ∧ b.IsNumeric
  · exact h hnum.1 hnum.2
  · exact naturalCompare_of_text (Classical.not_and_iff_not_or_not.mp hnum)

theorem isLE_trans_of_text (hab : OrderedByText a b) (hbc : OrderedByText b c)
    (hac : OrderedByText a c) (h : (a.naturalCompare b).isLE) (h' : (b.naturalCompare c).isLE) :
    (a.naturalCompare c).isLE := by
  rw [OrderedByText] at hab hbc hac
  rw [hab] at h
  rw [hbc] at h'
  rw [hac]
  exact Std.TransCmp.isLE_trans h h'

theorem isLE_trans_of_not_numeric (ha : ¬a.IsNumeric) (hb : ¬b.IsNumeric)
    (hab : (a.naturalCompare b).isLE) (hbc : (b.naturalCompare c).isLE) :
    (a.naturalCompare c).isLE :=
  isLE_trans_of_text (naturalCompare_of_text (.inl ha)) (naturalCompare_of_text (.inl hb))
    (naturalCompare_of_text (.inl ha)) hab hbc

end Transitive

/-! ## Where it is not transitive -/

theorem text_singleton (t : String) : (list [.string t]).text = t := by
  simp [text, itemTexts, Text.joinWith]

/-- Of two numbers whose texts do not stand as they do, and a value that has the text of one of them
and is no number, each can be put before the next and the first after the last. -/
theorem exists_cycle {m n : Value} (h : ¬OrderedByText m n) : ∃ s : Value, ¬s.IsNumeric ∧
    ∃ a b c, [a, b, c].Perm [m, n, s] ∧ a.naturalCompare b ≠ .gt ∧ b.naturalCompare c ≠ .gt ∧
      a.naturalCompare c = .gt := by
  -- a list is never a number, and one item long it has the text of its item
  have hlist (t : String) : ¬(list [.string t]).IsNumeric := nofun
  have hright (v : Value) (t : String) :
      v.naturalCompare (list [.string t]) = compare v.text t := by
    rw [naturalCompare_of_text (.inr (hlist t)), text_singleton]
  have hself (v : Value) : v.naturalCompare (list [.string v.text]) = .eq := by
    rw [hright]
    exact Std.ReflOrd.compare_self
  have hother {v w : Value} (h : v.text = w.text) :
      (list [.string v.text]).naturalCompare w = .eq := by
    rw [naturalCompare_swap, h, hself]
    rfl
  rw [OrderedByText] at h
  -- the number with the later text goes first, and the list has the text of the other
  cases htext : compare m.text n.text with
  | gt =>
    rw [htext] at h
    exact ⟨list [.string n.text], hlist _, m, n, _, .refl _, h, by simp [hself],
      by rw [hright, htext]⟩
  | lt =>
    rw [htext] at h
    refine ⟨list [.string m.text], hlist _, n, m, _, .swap .., ?_, by simp [hself], ?_⟩
    · rw [naturalCompare_swap m n]
      simpa using h
    · rw [hright, Std.OrientedOrd.eq_swap, htext]
      rfl
  | eq =>
    rw [htext] at h
    have heq : m.text = n.text := Std.LawfulEqOrd.eq_of_compare htext
    refine ⟨list [.string m.text], hlist _, ?_⟩
    cases hnum : m.naturalCompare n with
    | eq => exact absurd hnum h
    | gt => exact ⟨m, _, n, .cons _ (.swap ..), by simp [hself], by simp [hother heq], hnum⟩
    | lt =>
      refine ⟨n, _, m, ((List.Perm.swap ..).cons n).trans (.swap ..), ?_, ?_, ?_⟩
      · rw [heq, hself]
        nofun
      · rw [hother rfl]
        nofun
      · rw [naturalCompare_swap m n, hnum]
        rfl

/-! ## Main statements -/

/-- Turned round, the order is turned over. It is transitive on three values, the one that is no
number not among them, if all read as numbers, or if those of them that do have their texts in the
order of the numbers. Of two values whose texts stand otherwise it is not, with some third value. -/
theorem naturalCompare_preorder :
    (∀ a b : Value, b.naturalCompare a = (a.naturalCompare b).swap) ∧
    (∀ a b c : Value, (∀ v ∈ [a, b, c], v ≠ .number .notANumber) →
      (∀ v ∈ [a, b, c], v.IsNumeric) ∨
        (∀ v ∈ [a, b, c], ∀ w ∈ [a, b, c], v.IsNumeric → w.IsNumeric → OrderedByText v w) →
      a.naturalCompare b ≠ .gt → b.naturalCompare c ≠ .gt → a.naturalCompare c ≠ .gt) ∧
    ∀ m n : Value, ¬OrderedByText m n → m.IsNumeric ∧ n.IsNumeric ∧ ∃ s : Value, ¬s.IsNumeric ∧
      ∃ a b c, [a, b, c].Perm [m, n, s] ∧ a.naturalCompare b ≠ .gt ∧ b.naturalCompare c ≠ .gt ∧
        a.naturalCompare c = .gt := by
  refine ⟨naturalCompare_swap, fun a b c hnan halike hab hbc => ?_, fun m n h => ?_⟩
  · rw [ne_eq, Ordering.ne_gt_iff_isLE] at hab hbc ⊢
    simp only [List.forall_mem_cons, List.not_mem_nil, false_imp_iff, implies_true, and_true]
      at hnan halike
    rcases halike with ⟨ha, hb, hc⟩ | htext
    · exact isLE_trans_of_numeric hnan.1 hnan.2.1 hnan.2.2 ha hb hc hab hbc
    · have hpab : OrderedByText a b := orderedByText_of_imp htext.1.2.1
      have hpbc : OrderedByText b c := orderedByText_of_imp htext.2.1.2.2
      have hpac : OrderedByText a c := orderedByText_of_imp htext.1.2.2
      exact isLE_trans_of_text hpab hpbc hpac hab hbc
  · have hm : m.IsNumeric := Classical.byContradiction fun hm =>
      h (naturalCompare_of_text (.inl hm))
    have hn : n.IsNumeric := Classical.byContradiction fun hn =>
      h (naturalCompare_of_text (.inr hn))
    exact ⟨hm, hn, exists_cycle h⟩

/-- The number 7 and the text `9` stand as their texts do, and `9b` after both. The texts `9` and
`10` do not stand as the numbers. -/
theorem naturalCompare_preorder_mixed :
    let a : Value := .number (.ofNat 7)
    let b : Value := .string "9"
    let c : Value := .string "9b"
    let n : Value := .string "10"
    ((∀ v ∈ [a, b, c], v ≠ .number .notANumber) ∧
      (∀ v ∈ [a, b, c], ∀ w ∈ [a, b, c], v.IsNumeric → w.IsNumeric → OrderedByText v w) ∧
      a.naturalCompare b ≠ .gt ∧ b.naturalCompare c ≠ .gt ∧ a.naturalCompare c ≠ .gt) ∧
    ¬OrderedByText b n ∧ ∃ s : Value, ¬s.IsNumeric ∧ ∃ x y z, [x, y, z].Perm [b, n, s] ∧
      x.naturalCompare y ≠ .gt ∧ y.naturalCompare z ≠ .gt ∧ x.naturalCompare z = .gt := by
  intro a b c n
  obtain ⟨-, htrans, hcycle⟩ := naturalCompare_preorder
  have hnan : ∀ v ∈ [a, b, c], v ≠ .number .notANumber := by
    simp only [List.forall_mem_cons]
    exact ⟨fun h => absurd (Value.number.inj h) (by decide +kernel), nofun, nofun, nofun⟩
  have htext : ∀ v ∈ [a, b, c], ∀ w ∈ [a, b, c], v.IsNumeric → w.IsNumeric →
      OrderedByText v w := by
    decide +kernel
  have hab : a.naturalCompare b ≠ .gt := by decide +kernel
  have hbc : b.naturalCompare c ≠ .gt := by decide +kernel
  have hbn : ¬OrderedByText b n := by decide +kernel
  exact ⟨⟨hnan, htext, hab, hbc, htrans a b c hnan (.inr htext) hab hbc⟩, hbn, (hcycle b n hbn).2.2⟩

/-- `10a` comes before `9` as a text and `9` before `10` as a number, but `10` before `10a`. -/
theorem naturalCompare_not_transitive :
    ¬∀ a b c : Value, (∀ v ∈ [a, b, c], v ≠ .number .notANumber) →
      a.naturalCompare b ≠ .gt → b.naturalCompare c ≠ .gt → a.naturalCompare c ≠ .gt := by
  intro htrans
  refine htrans (.string "10a") (.string "9") (.string "10") (by simp) ?_ ?_ ?_ <;> decide +kernel

end Value

end NoteIndex
