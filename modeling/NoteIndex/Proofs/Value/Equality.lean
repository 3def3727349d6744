import NoteIndex.Proofs.Value.Order
import NoteIndex.Proofs.Value.Text

/-!
# Equality and order of values

Values that are equal in a query need not be level in its order. Order goes by the texts of two
values that are not both numbers, and what is equal can have another text in two ways: a truth value
also equals its word with blanks around it, and equal maps may have their keys in different order.
Apart from these two ways equal values are level.
-/

namespace NoteIndex

namespace Number

theorem compare?_self {n : Number} (h : n ≠ .notANumber) : n.compare? n = some .eq := by
  obtain ⟨x, hx⟩ := exists_position h
  rw [compare?, hx]
  exact congrArg some Std.ReflOrd.compare_self

theorem equals_symm (m n : Number) : m.equals n = n.equals m := by
  cases hm : m.position <;> cases hn : n.position <;> simp only [equals, hm, hn]
  exact Bool.beq_comm

end Number

namespace Value

/-- One is a truth value, and the other a text with blanks around it. -/
def paddedWord : Value → Value → Bool
  | .bool _, .string s => Text.trimmed s != s
  | .string s, .bool _ => Text.trimmed s != s
  | _, _ => false

theorem paddedWord_of_same {a b : Value} (h : a.same b = true) : a.paddedWord b = false := by
  cases a <;> cases b <;> simp only [same, Bool.false_eq_true] at h <;> rfl

theorem naturalCompare_string_self (s : String) :
    (Value.string s).naturalCompare (.string s) = .eq := by
  cases h : Number.parseText? s.toList with
  | some n =>
    rw [naturalCompare_of_numbers (a := .string s) (b := .string s) h h,
      Number.compare?_self (Number.ne_notANumber_of_parseText? h)]
    rfl
  | none =>
    rw [naturalCompare_of_text (.inl ((not_isNumeric_iff (.string s)).mpr h))]
    exact Std.ReflOrd.compare_self

section Same

variable {a b : Value}

theorem naturalCompare_eq_iff_text (h : ¬a.IsNumeric ∨ ¬b.IsNumeric) :
    a.naturalCompare b = .eq ↔ a.text = b.text := by
  rw [naturalCompare_of_text h]
  exact Std.LawfulEqOrd.compare_eq_iff_eq

/-- Equal values of one kind are level when their maps have their keys in the same order. -/
theorem naturalCompare_eq_iff_of_same (ha : a.WellFormed) (hb : b.WellFormed)
    (h : a.same b = true) : a.naturalCompare b = .eq ↔ a.keysAgree b = true := by
  have hother (hnum : ¬a.IsNumeric) : a.naturalCompare b = .eq ↔ a.keysAgree b = true :=
    (naturalCompare_eq_iff_text (.inl hnum)).trans (ha.text_eq_iff hb h)
  cases a with
  | number m =>
    cases b <;> simp only [same, Bool.false_eq_true] at h
    rename_i n
    rw [naturalCompare_of_numbers (a := .number m) (b := .number n) rfl rfl,
      (m.equals_iff_compare n).mp h]
    exact iff_of_true rfl rfl
  | string s =>
    cases b <;> simp only [same, Bool.false_eq_true, beq_iff_eq] at h
    subst h
    exact iff_of_true (naturalCompare_string_self s) rfl
  | _ => exact hother ((not_isNumeric_iff _).mpr rfl)

/-- A number is level with each text that reads as an equal number. -/
theorem naturalCompare_of_readsAs {s : String} {n : Number} (h : readsAs s n = true) :
    (Value.number n).naturalCompare (.string s) = .eq := by
  rw [readsAs] at h
  split at h
  · rename_i m hm
    rw [naturalCompare_of_numbers (a := .number n) (b := .string s) rfl hm,
      (n.equals_iff_compare m).mp (by rwa [Number.equals_symm])]
    rfl
  · cases h

/-- A truth value is level with its word alone. -/
theorem naturalCompare_of_spells {s : String} {b : Bool} (h : spells s b = true) :
    (Value.bool b).naturalCompare (.string s) = .eq ↔ Text.trimmed s = s := by
  have hword : (Value.bool b).text = Text.trimmed s := by
    rw [spells, beq_iff_eq] at h
    rw [h]
    cases b <;> rfl
  have hnot : ¬(Value.bool b).IsNumeric := (not_isNumeric_iff _).mpr rfl
  rw [naturalCompare_eq_iff_text (.inl hnot), hword]
  exact .rfl

theorem naturalCompare_eq_comm : a.naturalCompare b = .eq ↔ b.naturalCompare a = .eq := by
  rw [naturalCompare_swap a b]
  exact Ordering.swap_eq_eq.symm

/-- Values that are equal in a query are level but in the two ways in which their texts differ. -/
theorem naturalCompare_eq_iff_of_looseEq (ha : a.WellFormed) (hb : b.WellFormed)
    (h : a.looseEq b = true) :
    a.naturalCompare b = .eq ↔ a.paddedWord b = false ∧ a.keysAgree b = true := by
  rw [looseEq.eq_def] at h
  split at h
  · exact iff_of_true (naturalCompare_of_readsAs h) ⟨rfl, rfl⟩
  · exact iff_of_true (naturalCompare_eq_comm.mp (naturalCompare_of_readsAs h)) ⟨rfl, rfl⟩
  · rw [naturalCompare_of_spells h]
    simp [paddedWord, keysAgree]
  · rw [naturalCompare_eq_comm, naturalCompare_of_spells h]
    simp [paddedWord, keysAgree]
  · rw [naturalCompare_eq_iff_of_same ha hb h, paddedWord_of_same h, and_iff_right rfl]

end Same

end Value

end NoteIndex
