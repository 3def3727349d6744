import NoteIndex.Text.Split

/-!
# Texts and their lines

A text consists of lines. Each ends at LF, which takes a CR before it along; the last may have no
end. The lines that a text is cut into are one list of its lines. Others hold a CR at the end of a
line, as lines do that have been taken from another text and joined again by LF.
-/

namespace NoteIndex.Text

/-- `e` ends the line `l` as a reader of lines sees it: no CR before LF is left to the line. -/
def Ends (l e : List Char) : Prop := e = ['\r', '\n'] ∨ (e = ['\n'] ∧ l.getLast? ≠ some '\r')

/-- The text consists of these lines, a CR at the end of a line left aside. -/
inductive Lined : List Char → List (List Char) → Prop where
  | nil : Lined [] []
  | last {l : List Char} : '\n' ∉ l → Lined l [l]
  | line {b e l r : List Char} {ls : List (List Char)} : '\n' ∉ b → Ends b e →
      (l = b ∨ l = b ++ ['\r']) → Lined r ls → Lined (b ++ (e ++ r)) (l :: ls)

theorem Lined.not_mem {cs : List Char} {ls : List (List Char)} (h : Lined cs ls) :
    ∀ l ∈ ls, '\n' ∉ l := by
  induction h with
  | nil => nofun
  | last hl => simpa using hl
  | line hb _ hl _ ih =>
    refine List.forall_mem_cons.mpr ⟨?_, ih⟩
    rcases hl with rfl | rfl
    · exact hb
    · simp [hb]

theorem Ends.mem {l e : List Char} (h : Ends l e) : '\n' ∈ e := by
  rcases h with rfl | ⟨rfl, -⟩ <;> decide

theorem Ends.tail {c : Char} {l e : List Char} (h : Ends (c :: l) e) : Ends l e := by
  refine h.imp_right fun ⟨he, hend⟩ => ⟨he, ?_⟩
  cases l with
  | nil => nofun
  | cons d l => rwa [List.getLast?_cons_cons] at hend

/-- After a CR inside a line there is no LF. -/
theorem Ends.head?_ne {l e : List Char} (h : Ends ('\r' :: l) e) (hl : '\n' ∉ l) (r : List Char) :
    (l ++ (e ++ r)).head? ≠ some '\n' := by
  cases l with
  | nil =>
    rcases h with rfl | ⟨rfl, hend⟩
    · nofun
    · exact absurd rfl hend
  | cons d l => exact fun hd => hl (List.mem_cons.mpr (.inl (Option.some.inj hd).symm))

/-- Every line with something after it has an end. -/
theorem exists_line_of_mem {cs : List Char} (h : '\n' ∈ cs) :
    ∃ b e r, cs = b ++ (e ++ r) ∧ '\n' ∉ b ∧ Ends b e := by
  obtain ⟨l, r, rfl, hl⟩ := List.eq_append_cons_of_mem h
  by_cases hend : l.getLast? = some '\r'
  · obtain ⟨b, rfl⟩ := List.getLast?_eq_some_iff.mp hend
    exact ⟨b, ['\r', '\n'], r, by simp, fun hb => hl (List.mem_append_left _ hb), .inl rfl⟩
  · exact ⟨l, ['\n'], r, rfl, hl, .inr ⟨rfl, hend⟩⟩

/-- A text with LF has one first line, one end of it and one rest. -/
theorem line_inj {b b' e e' r r' : List Char} (hb : '\n' ∉ b) (he : Ends b e) (hb' : '\n' ∉ b')
    (he' : Ends b' e') (h : b ++ (e ++ r) = b' ++ (e' ++ r')) : b = b' ∧ e = e' ∧ r = r' := by
  -- what comes before the first LF is the line with the CR of its end
  have hsplit {p q s t : List Char} (hp : '\n' ∉ p) (hq : '\n' ∉ q)
      (h : p ++ '\n' :: s = q ++ '\n' :: t) : p = q ∧ s = t := by
    have hfirst := congrArg (splitOnce '\n') h
    rw [splitOnce_of_not_mem hp, splitOnce_of_not_mem hq, Option.some.injEq] at hfirst
    exact Prod.mk.inj hfirst
  have hreturn {p : List Char} (hp : '\n' ∉ p) : '\n' ∉ p ++ ['\r'] := by simp [hp]
  have hcut (p s : List Char) : p ++ (['\r', '\n'] ++ s) = p ++ ['\r'] ++ '\n' :: s := by simp
  rcases he with rfl | ⟨rfl, hend⟩ <;> rcases he' with rfl | ⟨rfl, hend'⟩
  · rw [hcut, hcut] at h
    obtain ⟨hbb, hr⟩ := hsplit (hreturn hb) (hreturn hb') h
    exact ⟨List.append_cancel_right hbb, rfl, hr⟩
  · rw [hcut] at h
    obtain ⟨rfl, -⟩ := hsplit (hreturn hb) hb' h
    exact absurd List.getLast?_concat hend'
  · rw [hcut] at h
    obtain ⟨rfl, -⟩ := hsplit hb (hreturn hb') h
    exact absurd List.getLast?_concat hend
  · obtain ⟨hbb, hr⟩ := hsplit hb hb' h
    exact ⟨hbb, rfl, hr⟩

/-! ## Cutting a text into lines -/

/-- A character that does not end a line belongs to the first line of the rest. -/
theorem lines_cons {c : Char} {r l : List Char} {ls : List (List Char)} (hlf : c ≠ '\n')
    (hcr : c = '\r' → r.head? ≠ some '\n') (h : lines r = l :: ls) :
    lines (c :: r) = (c :: l) :: ls := by
  rw [lines, h]
  · exact hlf
  · intro r' hc hr
    exact hcr hc (by rw [hr]; rfl)

theorem lines_last {l : List Char} (h : '\n' ∉ l) (hne : l ≠ []) : lines l = [l] := by
  induction l with
  | nil => exact absurd rfl hne
  | cons c l ih =>
    rw [List.mem_cons, not_or] at h
    cases l with
    | nil =>
      rw [lines, lines]
      · exact Ne.symm h.1
      · nofun
    | cons d l =>
      refine lines_cons (Ne.symm h.1) (fun _ hd => h.2 ?_) (ih h.2 nofun)
      exact List.mem_cons.mpr (.inl (Option.some.inj hd).symm)

theorem lines_line {b e : List Char} (hb : '\n' ∉ b) (he : Ends b e) (r : List Char) :
    lines (b ++ (e ++ r)) = b :: lines r := by
  induction b with
  | nil => rcases he with rfl | ⟨rfl, -⟩ <;> rfl
  | cons c b ih =>
    rw [List.mem_cons, not_or] at hb
    refine lines_cons (Ne.symm hb.1) (fun hc => ?_) (ih hb.2 he.tail)
    rw [hc] at he
    exact he.head?_ne hb.2 r

/-- Induction over a text by its lines. -/
theorem line_induction {P : List Char → Prop} (last : ∀ l, '\n' ∉ l → P l)
    (line : ∀ b e r, '\n' ∉ b → Ends b e → P r → P (b ++ (e ++ r))) (cs : List Char) : P cs := by
  induction hn : cs.length using Nat.strongRecOn generalizing cs with
  | _ n ih =>
    by_cases hmem : '\n' ∈ cs
    · obtain ⟨b, e, r, rfl, hb, he⟩ := exists_line_of_mem hmem
      have hlen : 0 < e.length := by rcases he with rfl | ⟨rfl, -⟩ <;> simp
      exact line b e r hb he (ih r.length (by simp at hn; omega) r rfl)
    · exact last cs hmem

theorem lined_lines (cs : List Char) : Lined cs (lines cs) := by
  induction cs using line_induction with
  | last l hl =>
    by_cases hne : l = []
    · rw [hne]
      exact .nil
    · rw [lines_last hl hne]
      exact .last hl
  | line b e r hb he ih =>
    rw [lines_line hb he]
    exact .line hb he (.inl rfl) ih

/-! ## Whole lines -/

/-- The text consists of lines that all have an end. -/
inductive Whole : List Char → Prop where
  | nil : Whole []
  | line {b e r : List Char} : '\n' ∉ b → Ends b e → Whole r → Whole (b ++ (e ++ r))

theorem Whole.lines_append {cs : List Char} (h : Whole cs) (r : List Char) :
    lines (cs ++ r) = lines cs ++ lines r := by
  induction h with
  | nil => rfl
  | @line b e s hb he _ ih =>
    rw [List.append_assoc, List.append_assoc, lines_line hb he, lines_line hb he, ih]
    rfl

/-- A line before LF, whatever its last character. -/
theorem Lined.lf {l r : List Char} {ls : List (List Char)} (hl : '\n' ∉ l) (h : Lined r ls) :
    Lined (l ++ '\n' :: r) (l :: ls) := by
  by_cases hend : l.getLast? = some '\r'
  · obtain ⟨b, rfl⟩ := List.getLast?_eq_some_iff.mp hend
    have hb : '\n' ∉ b := fun hb => hl (List.mem_append_left _ hb)
    have := Lined.line hb (.inl rfl) (.inr rfl) h
    rwa [List.append_assoc]
  · exact .line hl (.inr ⟨rfl, hend⟩) (.inl rfl) h

/-- Lines joined by LF. -/
theorem lined_intercalate {ls : List (List Char)} (h : ∀ l ∈ ls, '\n' ∉ l) :
    Lined ((['\n'] : List Char).intercalate ls) ls := by
  induction ls with
  | nil => exact .nil
  | cons l ls ih =>
    rw [List.forall_mem_cons] at h
    cases ls with
    | nil =>
      rw [List.intercalate_singleton]
      exact .last h.1
    | cons l' ls =>
      rw [List.intercalate_cons_cons, List.append_assoc, List.singleton_append]
      exact .lf h.1 (ih h.2)

/-- Lines without CR and LF, joined by LF and with one behind the last, are whole lines. -/
theorem whole_intercalate {ls : List (List Char)} (hne : ls ≠ [])
    (h : ∀ l ∈ ls, '\n' ∉ l ∧ '\r' ∉ l) :
    Whole ((['\n'] : List Char).intercalate ls ++ ['\n']) ∧
      lines ((['\n'] : List Char).intercalate ls ++ ['\n']) = ls := by
  induction ls with
  | nil => exact absurd rfl hne
  | cons l ls ih =>
    rw [List.forall_mem_cons] at h
    have hend : Ends l ['\n'] := .inr ⟨rfl, fun hlast => h.1.2 (List.mem_of_getLast? hlast)⟩
    have hcons {r : List Char} (hr : Whole r ∧ lines r = ls) :
        Whole (l ++ (['\n'] ++ r)) ∧ lines (l ++ (['\n'] ++ r)) = l :: ls :=
      ⟨.line h.1.1 hend hr.1, by rw [lines_line h.1.1 hend, hr.2]⟩
    cases ls with
    | nil =>
      rw [List.intercalate_singleton]
      exact hcons ⟨.nil, rfl⟩
    | cons l' ls =>
      rw [List.intercalate_cons_cons, List.append_assoc, List.append_assoc]
      exact hcons (ih nofun h.2)

end NoteIndex.Text
