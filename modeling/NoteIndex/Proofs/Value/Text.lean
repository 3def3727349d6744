import Mathlib.Data.List.Forall2
import Mathlib.Data.List.Nodup
import NoteIndex.Proofs.Json.Compact
import NoteIndex.Value.Written

/-!
# The texts of equal values

Equal values need not have the same text: equal maps may have their keys in different order, and the
text of a map keeps that order. There is no other way for it. This holds also of a value with
whatever text behind it, since the text tells where it ends once it is known what it is equal to.
-/

namespace NoteIndex

namespace Number

/-- A finite number has fewer units than infinity. -/
def InRange (n : Number) : Prop := ∀ negative units, n = .finite negative units → units < unitLimit

theorem signed_inj (p q : Bool) (u v : Nat) :
    (if p then -(u : Int) else u) = (if q then -(v : Int) else v) ↔ u = v ∧ (p = q ∨ u = 0) := by
  cases p <;> cases q <;> simp <;> omega

/-- But for the two zeros a number equals only itself. -/
theorem eq_or_zero_of_equals {m n : Number} (hm : m.InRange) (hn : n.InRange)
    (h : m.equals n = true) : m = n ∨ ∃ p q, m = .finite p 0 ∧ n = .finite q 0 := by
  have hlimit : 0 < unitLimit := by decide +kernel
  cases m <;> cases n <;> simp only [equals, position, beq_iff_eq, Bool.false_eq_true] at h
  case finite.finite p u q v =>
    obtain ⟨rfl, rfl | rfl⟩ := (signed_inj p q u v).mp h
    · exact .inl rfl
    · exact .inr ⟨p, q, rfl, rfl⟩
  case finite.infinite p u q =>
    exact absurd ((signed_inj p q u unitLimit).mp h).1 (Nat.ne_of_lt (hm p u rfl))
  case infinite.finite p q v =>
    exact absurd ((signed_inj p q unitLimit v).mp h).1 (Nat.ne_of_gt (hn q v rfl))
  case infinite.infinite p q =>
    obtain ⟨-, rfl | hzero⟩ := (signed_inj p q unitLimit unitLimit).mp h
    · exact .inl rfl
    · exact absurd hzero (Nat.ne_of_gt hlimit)

theorem asShortInteger?_zero (negative : Bool) : (finite negative 0).asShortInteger? = some 0 := by
  cases negative <;> decide +kernel

/-- Equal numbers are written alike, minus zero without its sign. -/
theorem texts_of_equals {m n : Number} (hm : m.InRange) (hn : n.InRange)
    (h : m.equals n = true) : m.plainText = n.plainText ∧ m.jsonText = n.jsonText := by
  rcases eq_or_zero_of_equals hm hn h with rfl | ⟨p, q, rfl, rfl⟩
  · exact ⟨rfl, rfl⟩
  · simp only [plainText, jsonText, asShortInteger?_zero, and_self]

end Number

namespace Value

/-- As values come: finite numbers are smaller than infinity, and no map has a key twice. -/
inductive WellFormed : Value → Prop where
  | null : WellFormed .null
  | bool (b : Bool) : WellFormed (.bool b)
  | number {n : Number} : n.InRange → WellFormed (.number n)
  | string (s : String) : WellFormed (.string s)
  | list {items : List Value} : (∀ v ∈ items, WellFormed v) → WellFormed (.list items)
  | map {entries : List (String × Value)} : (entries.map Prod.fst).Nodup →
      (∀ e ∈ entries, WellFormed e.2) → WellFormed (.map entries)

mutual

/-- Wherever both values have a map, its keys stand in the same order. -/
def keysAgree : Value → Value → Bool
  | .list xs, .list ys => keysAgreeItems xs ys
  | .map es, .map fs => es.map Prod.fst == fs.map Prod.fst && keysAgreeEntries es fs
  | _, _ => true

def keysAgreeItems : List Value → List Value → Bool
  | x :: xs, y :: ys => x.keysAgree y && keysAgreeItems xs ys
  | _, _ => true

def keysAgreeEntries : List (String × Value) → List (String × Value) → Bool
  | (_, v) :: es, (_, w) :: fs => v.keysAgree w && keysAgreeEntries es fs
  | _, _ => true

end

/-! ## Lists of values -/

theorem itemTexts_eq (items : List Value) : itemTexts items = items.map text := by
  induction items with
  | nil => rfl
  | cons v r ih => rw [itemTexts, ih, List.map_cons]

theorem sameItems_iff (xs ys : List Value) :
    sameItems xs ys = true ↔ List.Forall₂ (fun x y => x.same y = true) xs ys := by
  induction xs generalizing ys with
  | nil => cases ys <;> simp [sameItems]
  | cons x xs ih =>
    cases ys with
    | nil => simp [sameItems]
    | cons y ys => rw [sameItems, Bool.and_eq_true, ih, List.forall₂_cons]

/-- The value under the first key; the others lack that key. -/
theorem sameEntries_cons_iff {k : String} {v w : Value} {es fs : List (String × Value)}
    (hk : k ∉ es.map Prod.fst) :
    sameEntries ((k, v) :: es) ((k, w) :: fs) = true ↔
      v.same w = true ∧ sameEntries es fs = true := by
  have hrest : sameEntries es ((k, w) :: fs) = sameEntries es fs := by
    clear * - hk
    induction es with
    | nil => rfl
    | cons e es ih =>
      rw [List.map_cons, List.mem_cons, not_or] at hk
      rw [sameEntries, sameEntries, ih hk.2, Table.lookup, if_neg hk.1]
  rw [sameEntries, Table.lookup, if_pos rfl, Bool.and_eq_true, hrest]

/-! ## Pieces between commas -/

/-- Pieces with a comma in front of each. -/
def commaed (ps : List (List Char)) : List Char := ps.flatMap (',' :: ·)

theorem cons_intercalate (p : List Char) (ps : List (List Char)) :
    ',' :: ([','] : List Char).intercalate (p :: ps) = commaed (p :: ps) := by
  induction ps generalizing p with
  | nil => simp [commaed]
  | cons q ps ih =>
    rw [List.intercalate_cons_cons, List.append_assoc, List.singleton_append, ih]
    rfl

/-- The first comma makes no difference to what two series of pieces have in common. -/
theorem intercalate_append_iff {ps qs : List (List Char)} (h : ps.length = qs.length)
    (r r' : List Char) :
    ([','] : List Char).intercalate ps ++ r = ([','] : List Char).intercalate qs ++ r' ↔
      commaed ps ++ r = commaed qs ++ r' := by
  cases ps with
  | nil =>
    rw [List.eq_nil_of_length_eq_zero h.symm]
    exact .rfl
  | cons p ps =>
    cases qs with
    | nil => cases h
    | cons q qs =>
      rw [← cons_intercalate, ← cons_intercalate, List.cons_append, List.cons_append,
        List.cons.injEq, and_iff_right rfl]

/-- With whatever behind them, two values are written as the same text just when the keys of all
their maps stand in the same order and what is behind them is the same. -/
def Parted (f : Value → List Char) (v w : Value) : Prop :=
  ∀ r r', f v ++ r = f w ++ r' ↔ v.keysAgree w = true ∧ r = r'

theorem commaed_items_iff {f : Value → List Char} {xs ys : List Value}
    (h : List.Forall₂ (Parted f) xs ys) (r r' : List Char) :
    commaed (xs.map f) ++ r = commaed (ys.map f) ++ r' ↔
      keysAgreeItems xs ys = true ∧ r = r' := by
  induction h with
  | nil => simp [commaed, keysAgreeItems]
  | @cons x y xs ys hxy _ ih =>
    have hstep (v : Value) (vs : List Value) (r : List Char) :
        commaed ((v :: vs).map f) ++ r = ',' :: (f v ++ (commaed (vs.map f) ++ r)) := by
      simp [commaed]
    rw [hstep, hstep, List.cons.injEq, and_iff_right rfl, hxy, ih, keysAgreeItems,
      Bool.and_eq_true, and_assoc]

theorem list_append_iff {f : Value → List Char} {xs ys : List Value}
    (h : List.Forall₂ (Parted f) xs ys) (r r' : List Char) :
    ([','] : List Char).intercalate (xs.map f) ++ r =
        ([','] : List Char).intercalate (ys.map f) ++ r' ↔
      (list xs).keysAgree (list ys) = true ∧ r = r' := by
  rw [intercalate_append_iff (by simp [h.length_eq]), commaed_items_iff h, keysAgree]

/-- An entry as it stands in the JSON of a map. -/
def fieldChars (e : String × Value) : List Char := Json.quoted e.1 ++ ':' :: e.2.toJson.compactChars

/-- Equal maps are compared entry by entry as they stand: at the first key that is not the same in
both the texts part, and until there the values are equal. -/
theorem commaed_fields_iff {es fs : List (String × Value)} (hlength : es.length = fs.length)
    (hsame : sameEntries es fs = true) (hkeys : (es.map Prod.fst).Nodup)
    (h : ∀ e ∈ es, ∀ f ∈ fs, e.2.same f.2 = true → Parted (·.toJson.compactChars) e.2 f.2)
    (r r' : List Char) :
    commaed (es.map fieldChars) ++ r = commaed (fs.map fieldChars) ++ r' ↔
      (es.map Prod.fst = fs.map Prod.fst ∧ keysAgreeEntries es fs = true) ∧ r = r' := by
  induction es generalizing fs with
  | nil =>
    rw [List.eq_nil_of_length_eq_zero hlength.symm]
    simp [keysAgreeEntries]
  | cons e es ih =>
    obtain ⟨k, v⟩ := e
    cases fs with
    | nil => cases hlength
    | cons f fs =>
      obtain ⟨l, w⟩ := f
      have hstep (k : String) (v : Value) (es : List (String × Value)) (r : List Char) :
          commaed (((k, v) :: es).map fieldChars) ++ r = ',' :: (Json.quoted k ++
            ':' :: (v.toJson.compactChars ++ (commaed (es.map fieldChars) ++ r))) := by
        simp [commaed, fieldChars]
      rw [hstep, hstep, List.cons.injEq, and_iff_right rfl, Json.quoted_append_iff, List.cons.injEq,
        and_iff_right rfl]
      by_cases hk : k = l
      · subst hk
        obtain ⟨hnot, hnodup⟩ := List.nodup_cons.mp hkeys
        obtain ⟨hvw, hrest⟩ := (sameEntries_cons_iff hnot).mp hsame
        rw [h _ (List.mem_cons_self ..) _ (List.mem_cons_self ..) hvw,
          ih (Nat.succ.inj hlength) hrest hnodup fun e he f hf =>
            h e (List.mem_cons_of_mem _ he) f (List.mem_cons_of_mem _ hf)]
        simp [keysAgreeEntries, and_assoc, and_left_comm]
      · simp [hk]

/-! ## How values are written -/

theorem compactChars_list (xs : List Value) : (Value.list xs).toJson.compactChars =
    '[' :: (([','] : List Char).intercalate (xs.map (·.toJson.compactChars)) ++ [']']) := by
  have hitems : Json.compactItems (itemsJson xs) = xs.map (·.toJson.compactChars) := by
    induction xs with
    | nil => rfl
    | cons x xs ih => rw [itemsJson, Json.compactItems, ih, List.map_cons]
  rw [toJson, Json.compactChars, Json.enclose, hitems]
  rfl

theorem compactChars_map (es : List (String × Value)) : (Value.map es).toJson.compactChars =
    '\x7b' :: (([','] : List Char).intercalate (es.map fieldChars) ++ ['\x7d']) := by
  have hfields : Json.compactFields (entriesJson es) = es.map fieldChars := by
    induction es with
    | nil => rfl
    | cons e es ih => rw [entriesJson, Json.compactFields, ih, List.map_cons, fieldChars]
  rw [toJson, Json.compactChars, Json.enclose, hfields]
  rfl

theorem toList_text_list (xs : List Value) : (Value.list xs).text.toList =
    ([','] : List Char).intercalate (xs.map (·.text.toList)) := by
  rw [text.eq_def]
  simp only [Text.joinWith, String.toList_intercalate, itemTexts_eq, List.map_map]
  rfl

theorem toList_text_map (es : List (String × Value)) :
    (Value.map es).text.toList = (Value.map es).toJson.compactChars := by
  rw [text.eq_def, toJson]
  exact String.toList_ofList

/-! ## Values -/

theorem parted_of_eq {f : Value → List Char} {v w : Value} (h : f v = f w)
    (hkeys : v.keysAgree w = true) : Parted f v w := by
  intro r r'
  rw [h, hkeys, List.append_cancel_left_eq, and_iff_right rfl]

theorem forall₂_parted {f : Value → List Char} {xs ys : List Value}
    (hsame : sameItems xs ys = true)
    (h : ∀ x ∈ xs, ∀ y ∈ ys, x.same y = true → Parted f x y) : List.Forall₂ (Parted f) xs ys := by
  rw [sameItems_iff] at hsame
  induction hsame with
  | nil => exact .nil
  | @cons x y xs ys hxy _ ih =>
    exact .cons (h x (List.mem_cons_self ..) y (List.mem_cons_self ..) hxy) (ih fun a ha b hb =>
      h a (List.mem_cons_of_mem _ ha) b (List.mem_cons_of_mem _ hb))

/-- Equal values are parted by a way to write them that writes equal numbers alike, and parts lists
and maps when it parts what is in them. -/
theorem WellFormed.parted {f : Value → List Char} {v w : Value} (hv : v.WellFormed)
    (hw : w.WellFormed) (hsame : v.same w = true)
    (hnumber : ∀ m n : Number, m.InRange → n.InRange → m.equals n = true →
      f (.number m) = f (.number n))
    (hlist : ∀ xs ys, List.Forall₂ (Parted f) xs ys → Parted f (.list xs) (.list ys))
    (hmap : ∀ es fs, WellFormed (.map es) → WellFormed (.map fs) →
      same (.map es) (.map fs) = true →
      (∀ d ∈ es, ∀ e ∈ fs, d.2.same e.2 = true → Parted f d.2 e.2) →
      Parted f (.map es) (.map fs)) :
    Parted f v w := by
  induction hv generalizing w with
  | null => cases hw <;> simp only [same, Bool.false_eq_true] at hsame; exact parted_of_eq rfl rfl
  | bool b =>
    cases hw <;> simp only [same, Bool.false_eq_true, beq_iff_eq] at hsame
    subst hsame
    exact parted_of_eq rfl rfl
  | string s =>
    cases hw <;> simp only [same, Bool.false_eq_true, beq_iff_eq] at hsame
    subst hsame
    exact parted_of_eq rfl rfl
  | number hm =>
    cases hw with
    | number hn => exact parted_of_eq (hnumber _ _ hm hn hsame) rfl
    | _ => simp only [same, Bool.false_eq_true] at hsame
  | list _ ih =>
    cases hw with
    | list hys => exact hlist _ _ (forall₂_parted hsame fun x hx y hy => ih x hx (hys y hy))
    | _ => simp only [same, Bool.false_eq_true] at hsame
  | map hkeys hes ih =>
    cases hw with
    | map hkeys' hfs =>
      exact hmap _ _ (.map hkeys hes) (.map hkeys' hfs) hsame fun d hd e he => ih d hd (hfs e he)
    | _ => simp only [same, Bool.false_eq_true] at hsame

section WellFormed

variable {v w : Value}

/-- The JSON of equal values, whatever follows it, is the same when their maps have their keys in
the same order, and only then. -/
theorem WellFormed.parted_json (hv : v.WellFormed) (hw : w.WellFormed) (hsame : v.same w = true) :
    Parted (·.toJson.compactChars) v w := by
  refine hv.parted hw hsame ?_ ?_ ?_
  · intro m n hm hn h
    simp only [toJson, (Number.texts_of_equals hm hn h).2]
  · intro xs ys h r r'
    simp only [compactChars_list, List.cons_append, List.append_assoc, List.nil_append,
      List.cons.injEq, true_and]
    rw [list_append_iff h, List.cons.injEq, and_iff_right rfl]
  · rintro es fs (_ | _ | _ | _ | _ | ⟨hkeys, -⟩) - hsame h r r'
    rw [same, Bool.and_eq_true, beq_iff_eq] at hsame
    simp only [compactChars_map, List.cons_append, List.append_assoc, List.nil_append,
      List.cons.injEq, true_and]
    rw [intercalate_append_iff (by simp [hsame.1]), commaed_fields_iff hsame.1 hsame.2 hkeys h,
      List.cons.injEq, and_iff_right rfl, keysAgree, Bool.and_eq_true, beq_iff_eq]

/-- So it is with their texts. -/
theorem WellFormed.parted_text (hv : v.WellFormed) (hw : w.WellFormed) (hsame : v.same w = true) :
    Parted (·.text.toList) v w := by
  refine hv.parted hw hsame ?_ ?_ ?_
  · intro m n hm hn h
    simp only [text, (Number.texts_of_equals hm hn h).1]
  · intro xs ys h r r'
    simp only [toList_text_list]
    exact list_append_iff h r r'
  · intro es fs hes hfs hsame _ r r'
    simp only [toList_text_map]
    exact hes.parted_json hfs hsame r r'

theorem WellFormed.text_eq_iff (hv : v.WellFormed) (hw : w.WellFormed)
    (hsame : v.same w = true) : v.text = w.text ↔ v.keysAgree w = true := by
  have hparted := hv.parted_text hw hsame [] []
  simpa [String.toList_inj] using hparted

end WellFormed

end Value

end NoteIndex
