import Mathlib.Data.List.TakeDrop
import NoteIndex.Number.Reading
import NoteIndex.Proofs.Text.Blank

/-!
# What is no number

A number is written with digits, signs, a point and the letter before an exponent, or by a name, and
may have blanks around it. Text with any other character in it is read as no number, wherever that
character stands.
-/

namespace NoteIndex.Number

/-- The character belongs to no number and is no blank. -/
structure Foreign (c : Char) : Prop where
  digit : c.isDigit = false
  blank : Text.isBlank c = false
  mark : c ∉ ['+', '-', '.', 'e', 'E']
  letter : c.toLower ∉ ['a', 'f', 'i', 'n', 't', 'y']

instance (c : Char) : Decidable (Foreign c) :=
  decidable_of_iff (c.isDigit = false ∧ Text.isBlank c = false ∧ c ∉ ['+', '-', '.', 'e', 'E'] ∧
    c.toLower ∉ ['a', 'f', 'i', 'n', 't', 'y'])
    ⟨fun h => ⟨h.1, h.2.1, h.2.2.1, h.2.2.2⟩, fun h => ⟨h.digit, h.blank, h.mark, h.letter⟩⟩

namespace Foreign

variable {c d : Char} {cs : List Char}

/-- Behind a sign, a point or the letter of an exponent the foreign character is still to come. -/
theorem mem_of_mem_cons (hc : Foreign c) (hd : d ∈ ['+', '-', '.', 'e', 'E']) (h : c ∈ d :: cs) :
    c ∈ cs :=
  (List.mem_cons.mp h).resolve_left fun heq => hc.mark (heq ▸ hd)

theorem readNamed?_eq (hc : Foreign c) (h : c ∈ cs) (negative : Bool) :
    readNamed? negative cs = none := by
  have hne (name : String) (hname : name.toList ⊆ ['a', 'f', 'i', 'n', 't', 'y']) :
      cs.map Char.toLower ≠ name.toList := fun heq =>
    hc.letter (hname (heq ▸ List.mem_map_of_mem h))
  simp only [readNamed?, hne "inf" (by decide), hne "infinity" (by decide), hne "nan" (by decide),
    or_self, if_false]

theorem readExponent?_eq (hc : Foreign c) (h : c ∈ cs) : readExponent? cs = none := by
  rw [readExponent?.eq_def]
  split
  · cases h
  · rename_i e r
    split
    · rename_i he
      have hr : c ∈ r := by
        rcases he with rfl | rfl
        · exact hc.mem_of_mem_cons (by decide) h
        · exact hc.mem_of_mem_cons (by decide) h
      -- behind the letter, and the sign if there is one, all should be digits
      split
      rename_i digits hdigits
      have hmem : c ∈ digits := by
        split at hdigits <;> cases hdigits
        · exact hc.mem_of_mem_cons (by decide) hr
        · exact hc.mem_of_mem_cons (by decide) hr
        · exact hr
      have hall : digits.all Char.isDigit = false :=
        List.all_eq_false.mpr ⟨c, hmem, by simp [hc.digit]⟩
      rw [hall, Bool.not_false, Bool.or_true, if_pos rfl]
    · rfl

theorem readUnsigned?_eq (hc : Foreign c) (h : c ∈ cs) (negative : Bool) :
    readUnsigned? negative cs = none := by
  have hrest {cs : List Char} (h : c ∈ cs) : c ∈ (spanDigits cs).2 := by
    rw [spanDigits, List.span_eq_takeWhile_dropWhile]
    rw [← List.takeWhile_append_dropWhile (p := Char.isDigit) (l := cs), List.mem_append] at h
    refine h.resolve_left fun htake => ?_
    exact Bool.eq_false_iff.mp hc.digit (List.all_eq_true.mp List.all_takeWhile c htake)
  cases hspan : spanDigits cs with
  | mk whole r =>
    have hr : c ∈ r := by simpa only [hspan] using hrest h
    simp only [readUnsigned?, hspan]
    split
    · have hfraction := hrest (hc.mem_of_mem_cons (by decide) hr)
      rw [hc.readExponent?_eq hfraction, Option.map_none, ite_self]
    · rw [hc.readExponent?_eq hr, Option.map_none, ite_self]

theorem parse?_eq (hc : Foreign c) (h : c ∈ cs) : parse? cs = none := by
  have hsigned {cs : List Char} (h : c ∈ cs) (negative : Bool) :
      readSigned? negative cs = none := by
    rw [readSigned?, hc.readNamed?_eq h, hc.readUnsigned?_eq h]
    rfl
  rw [parse?.eq_def]
  split
  · exact hsigned (hc.mem_of_mem_cons (by decide) h) true
  · exact hsigned (hc.mem_of_mem_cons (by decide) h) false
  · exact hsigned h false

theorem parseText?_eq (hc : Foreign c) (h : c ∈ cs) : parseText? cs = none := by
  have htrim : c ∈ Text.trim cs := by
    obtain ⟨before, after, hcs, hbefore, hafter⟩ := Text.append_trim_append cs
    have hblank := Bool.eq_false_iff.mp hc.blank
    rw [hcs, List.mem_append, List.mem_append] at h
    exact (h.resolve_left fun hmem => hblank (hbefore c hmem)).resolve_right
      fun hmem => hblank (hafter c hmem)
  rw [parseText?, hc.parse?_eq htrim]
  rfl

end Foreign

end NoteIndex.Number
