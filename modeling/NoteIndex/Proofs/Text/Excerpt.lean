import NoteIndex.Proofs.Text.Lowercase

/-!
# Pieces of lower-cased text

Lower-casing a text lower-cases its pieces one after another, but for capital sigmas: which of its
two small forms one takes is told by the letters around it, also those outside the piece. So a piece
is found again in the lower-cased text, in the place where it stands, exactly when none of its
capital sigmas takes another form there than in the piece alone.
-/

namespace NoteIndex.Text

/-- Whether a capital sigma takes its final form, given what stands before it, last character first,
and after it. -/
def endsWord (before after : List Char) : Bool := meetsCased before && !meetsCased after

/-- What becomes of a piece of a text, given what stands before it, last character first, and after
it. -/
def lowerWithin (before cs after : List Char) : List Char :=
  match cs with
  | [] => []
  | c :: r =>
    (if c = 'Σ' then [if endsWord before (r ++ after) then 'ς' else 'σ'] else lowerChar c) ++
      lowerWithin (c :: before) r after

theorem lowerFrom_append (before cs after : List Char) :
    lowerFrom before (cs ++ after) =
      lowerWithin before cs after ++ lowerFrom (cs.reverse ++ before) after := by
  induction cs generalizing before with
  | nil => rfl
  | cons c r ih =>
    rw [List.cons_append, lowerFrom, ih, lowerWithin, List.reverse_cons, List.append_assoc,
      List.append_assoc, List.singleton_append]
    split <;> rfl

theorem lowerWithin_nil (before cs : List Char) :
    lowerWithin before cs [] = lowerFrom before cs := by
  have happend := lowerFrom_append before cs []
  rw [List.append_nil, lowerFrom, List.append_nil] at happend
  exact happend.symm

/-- Either form of a sigma is one character, so the lengths do not depend on the letters around. -/
theorem length_lowerWithin (before cs after before' after' : List Char) :
    (lowerWithin before cs after).length = (lowerWithin before' cs after').length := by
  induction cs generalizing before before' with
  | nil => rfl
  | cons c r ih =>
    rw [lowerWithin, lowerWithin, List.length_append, List.length_append, ih]
    split <;> rfl

theorem finalForm_inj (b b' : Bool) :
    (if b then 'ς' else 'σ') = (if b' then 'ς' else 'σ') ↔ b = b' := by
  cases b <;> cases b' <;> decide

/-- The same comes out in two places when each capital sigma takes the same form in both. -/
theorem lowerWithin_eq_iff (before cs after before' after' : List Char) :
    lowerWithin before cs after = lowerWithin before' cs after' ↔ ∀ u w, cs = u ++ 'Σ' :: w →
      endsWord (u.reverse ++ before) (w ++ after) =
        endsWord (u.reverse ++ before') (w ++ after') := by
  induction cs generalizing before before' with
  | nil => simp [lowerWithin]
  | cons c r ih =>
    have hlater : (∀ u w, r = u ++ 'Σ' :: w →
        endsWord (u.reverse ++ c :: before) (w ++ after) =
          endsWord (u.reverse ++ c :: before') (w ++ after')) ↔
        ∀ u w, c :: r = (c :: u) ++ 'Σ' :: w →
          endsWord ((c :: u).reverse ++ before) (w ++ after) =
            endsWord ((c :: u).reverse ++ before') (w ++ after') := by
      simp
    rw [lowerWithin, lowerWithin]
    by_cases hc : c = 'Σ'
    · subst hc
      rw [if_pos rfl, if_pos rfl, List.singleton_append, List.singleton_append, List.cons.injEq,
        finalForm_inj, ih, hlater]
      constructor
      · rintro ⟨hfirst, hrest⟩ u w hsplit
        cases u with
        | nil =>
          cases hsplit
          exact hfirst
        | cons d u =>
          cases hsplit
          exact hrest u w rfl
      · intro h
        exact ⟨h [] r rfl, fun u w => h ('Σ' :: u) w⟩
    · rw [if_neg hc, if_neg hc, List.append_cancel_left_eq, ih, hlater]
      constructor
      · intro h u w hsplit
        cases u with
        | nil => exact absurd (List.cons.inj hsplit).1 hc
        | cons d u =>
          cases hsplit
          exact h u w rfl
      · exact fun h u w => h (c :: u) w

/-! ## Excerpts -/

/-- Each capital sigma of the excerpt `cs` takes the same form in its place between `before` and
`after` as in the excerpt alone. -/
def KeepsSigmas (before cs after : List Char) : Prop := ∀ u w, cs = u ++ 'Σ' :: w →
  endsWord (u.reverse ++ before.reverse) (w ++ after) = endsWord u.reverse w

section Excerpt

variable {before cs after : List Char}

theorem keepsSigmas_iff_lowerWithin :
    KeepsSigmas before cs after ↔ lowerWithin before.reverse cs after = lower cs := by
  rw [lower, ← lowerWithin_nil, lowerWithin_eq_iff]
  simp only [List.append_nil]
  exact .rfl

theorem lower_append_append (before cs after : List Char) :
    lower (before ++ (cs ++ after)) = lowerWithin [] before (cs ++ after) ++
      (lowerWithin before.reverse cs after ++ lowerFrom (cs.reverse ++ before.reverse) after) := by
  rw [lower, lowerFrom_append, List.append_nil, lowerFrom_append]

/-- In its place in the lower-cased text stands the lower-cased excerpt, if it keeps its sigmas, and
something else if not. -/
theorem lower_isPrefix_iff :
    lower cs <+: (lower (before ++ (cs ++ after))).drop (lower before).length ↔
      KeepsSigmas before cs after := by
  have hplace : (lower before).length = (lowerWithin [] before (cs ++ after)).length := by
    rw [lower, ← lowerWithin_nil]
    exact length_lowerWithin ..
  have hlength : (lower cs).length = (lowerWithin before.reverse cs after).length := by
    rw [lower, ← lowerWithin_nil]
    exact length_lowerWithin ..
  rw [lower_append_append, hplace, List.drop_left, keepsSigmas_iff_lowerWithin]
  constructor
  · intro h
    exact ((List.prefix_of_prefix_length_le h (List.prefix_append ..) hlength.le).eq_of_length
      hlength).symm
  · intro h
    rw [h]
    exact List.prefix_append ..

theorem KeepsSigmas.infix (h : KeepsSigmas before cs after) :
    lower cs <:+: lower (before ++ (cs ++ after)) :=
  (lower_isPrefix_iff.mpr h).isInfix.trans (List.drop_suffix ..).isInfix

theorem meetsCased_append {r : List Char} (h : meetsCased r = false) (cs : List Char) :
    meetsCased (cs ++ r) = meetsCased cs := by
  induction cs with
  | nil => exact h
  | cons c cs ih =>
    rw [meetsCased, meetsCased, List.cons_append, List.dropWhile_cons, List.dropWhile_cons]
    cases isCaseIgnorable c with
    | false => rfl
    | true => exact ih

/-- An excerpt that no word goes into or out of keeps its sigmas. -/
theorem keepsSigmas_of_apart (hbefore : meetsCased before.reverse = false)
    (hafter : meetsCased after = false) : KeepsSigmas before cs after := by
  intro u w _
  rw [endsWord, meetsCased_append hbefore, meetsCased_append hafter, endsWord]

end Excerpt

end NoteIndex.Text
