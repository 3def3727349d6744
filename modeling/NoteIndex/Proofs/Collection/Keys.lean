import Mathlib.Data.List.Nodup

/-!
# Lists whose elements are told apart by a key

What is said of the elements of one key is said of a single element.
-/

namespace NoteIndex

universe u v w

variable {α : Type u} {β : Type v} {κ : Type w} {key : α → κ} {as : List α} {a : α}

/-- Where all elements of other keys give nothing, one element gives all there is. -/
theorem flatMap_of_key {f : α → List β} (hnodup : (as.map key).Nodup) (ha : a ∈ as)
    (h : ∀ b ∈ as, key b ≠ key a → f b = []) : as.flatMap f = f a := by
  induction as with
  | nil => cases ha
  | cons b r ih =>
    rw [List.map_cons, List.nodup_cons] at hnodup
    obtain ⟨hb, hr⟩ := hnodup
    rw [List.flatMap_cons]
    rcases List.mem_cons.mp ha with rfl | ha
    · have hrest : r.flatMap f = [] := List.flatMap_eq_nil_iff.mpr fun c hc =>
        h c (List.mem_cons_of_mem a hc) fun hca => hb (hca ▸ List.mem_map_of_mem hc)
      rw [hrest, List.append_nil]
    · have hba : key b ≠ key a := fun hba => hb (hba ▸ List.mem_map_of_mem ha)
      rw [h b List.mem_cons_self hba, List.nil_append]
      exact ih hr ha fun c hc => h c (List.mem_cons_of_mem b hc)

section FilterMap

variable {key' : β → κ} {f : α → Option β} (hkey : ∀ a b, f a = some b → key' b = key a)
include hkey

theorem map_filterMap_sublist (as : List α) :
    ((as.filterMap f).map key').Sublist (as.map key) := by
  induction as with
  | nil => exact .slnil
  | cons a r ih =>
    rw [List.filterMap_cons, List.map_cons]
    cases h : f a with
    | none => exact ih.cons _
    | some b =>
      rw [List.map_cons, hkey a b h]
      exact ih.cons_cons _

theorem nodup_map_filterMap (hnodup : (as.map key).Nodup) : ((as.filterMap f).map key').Nodup :=
  hnodup.sublist (map_filterMap_sublist hkey as)

theorem filter_filterMap_of_key [DecidableEq κ] (hnodup : (as.map key).Nodup) (ha : a ∈ as) :
    (as.filterMap f).filter (key' · = key a) = (f a).toList := by
  rw [List.filterMap_eq_flatMap_toList, List.filter_flatMap]
  rw [flatMap_of_key hnodup ha fun b _ hba => ?_]
  · refine List.filter_eq_self.mpr fun x hx => decide_eq_true (hkey a x ?_)
    exact Option.mem_toList.mp hx
  · refine List.filter_eq_nil_iff.mpr fun x hx heq => hba ?_
    rw [← hkey b x (Option.mem_toList.mp hx)]
    exact of_decide_eq_true heq

end FilterMap

end NoteIndex
