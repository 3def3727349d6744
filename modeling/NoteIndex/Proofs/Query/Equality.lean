import NoteIndex.Proofs.Session.Basic
import NoteIndex.Proofs.Value.Equality

/-!
# Conditions that ask for equality

A literal of a query holds no map and no infinite number, nor does a value that equals it. So where
a property equals a literal it comes neither before nor after it, unless one of them is a truth
value and the other its word with blanks around it.
-/

namespace NoteIndex

/-! ## Numbers that are read -/

namespace Number

theorem inRange_nearest (negative : Bool) (num den : Nat) : (nearest negative num den).InRange := by
  intro sign units h
  rw [nearest] at h
  split at h
  · cases h
    assumption
  · cases h

theorem inRange_ofDecimal (negative : Bool) (digits : Nat) (exponent : Int) :
    (ofDecimal negative digits exponent).InRange := by
  have hlimit : 0 < unitLimit := by decide +kernel
  rw [ofDecimal]
  split
  · rintro _ _ ⟨⟩
    exact hlimit
  · split
    · exact nofun
    · exact inRange_nearest _ _ _

theorem inRange_of_readUnsigned? {negative : Bool} {cs : List Char} {n : Number}
    (h : readUnsigned? negative cs = some n) : n.InRange := by
  have hresult {b : Bool} {cs : List Char} {f : Int → Number} (hf : ∀ e, (f e).InRange)
      (h : (if b then none else (readExponent? cs).map f) = some n) : n.InRange := by
    split at h
    · cases h
    · obtain ⟨exponent, -, rfl⟩ := Option.map_eq_some_iff.mp h
      exact hf exponent
  simp only [readUnsigned?] at h
  split at h <;> exact hresult (fun _ => inRange_ofDecimal _ _ _) h

theorem inRange_of_readSigned? {negative : Bool} {cs : List Char} {n : Number}
    (h : readSigned? negative cs = some n) : n.InRange := by
  rcases Option.or_eq_some_iff.mp h with h | ⟨-, h⟩
  · rw [readNamed?] at h
    split at h
    · cases h
      exact nofun
    · split at h
      · cases h
        exact nofun
      · cases h
  · exact inRange_of_readUnsigned? h

theorem inRange_of_parse? {cs : List Char} {n : Number} (h : parse? cs = some n) : n.InRange := by
  rw [parse?.eq_def] at h
  split at h <;> exact inRange_of_readSigned? h

/-- What equals a finite number has as many units. -/
theorem inRange_of_equals {m n : Number} (hn : n.InRange) (hfinite : n.isFinite = true)
    (h : m.equals n = true) : m.InRange := by
  rintro p u rfl
  cases n with
  | finite q v =>
    simp only [equals, position, beq_iff_eq] at h
    rw [((signed_inj p q u v).mp h).1]
    exact hn q v rfl
  | _ => cases hfinite

end Number

/-! ## Literals -/

/-- What a literal can be: a text, a truth value, a finite number, or a list of such. -/
inductive Value.IsLiteral : Value → Prop where
  | bool (b : Bool) : IsLiteral (.bool b)
  | number {n : Number} : n.isFinite = true → n.InRange → IsLiteral (.number n)
  | string (s : String) : IsLiteral (.string s)
  | list {items : List Value} : (∀ v ∈ items, IsLiteral v) → IsLiteral (.list items)

namespace Value

theorem isLiteral_of_parseText? {cs : List Char} {n : Number} (h : Number.parseText? cs = some n) :
    (Value.number n).IsLiteral := by
  obtain ⟨hparse, hfinite⟩ := Option.filter_eq_some_iff.mp h
  exact .number hfinite (Number.inRange_of_parse? hparse)

namespace IsLiteral

variable {v w : Value}

theorem wellFormed (h : v.IsLiteral) : v.WellFormed := by
  induction h with
  | bool b => exact .bool b
  | number _ hrange => exact .number hrange
  | string s => exact .string s
  | list _ ih => exact .list ih

/-- A literal has no map whose keys could stand in another order. -/
theorem keysAgree (h : v.IsLiteral) (w : Value) : w.keysAgree v = true := by
  induction h generalizing w with
  | @list items hitems ih =>
    cases w with
    | list ws =>
      rw [Value.keysAgree]
      clear hitems
      induction items generalizing ws with
      | nil => cases ws <;> rfl
      | cons v items ihitems =>
        obtain ⟨hv, hrest⟩ := List.forall_mem_cons.mp ih
        cases ws with
        | nil => rfl
        | cons w ws => rw [keysAgreeItems, hv, Bool.true_and, ihitems hrest]
    | _ => rfl
  | _ => cases w <;> rfl

theorem wellFormed_of_same (hv : v.IsLiteral) (h : w.same v = true) : w.WellFormed := by
  induction hv generalizing w with
  | bool b => cases w <;> simp only [same, Bool.false_eq_true] at h; exact .bool _
  | string s => cases w <;> simp only [same, Bool.false_eq_true] at h; exact .string _
  | number hfinite hrange =>
    cases w with
    | number m => exact .number (Number.inRange_of_equals hrange hfinite h)
    | _ => simp only [same, Bool.false_eq_true] at h
  | list hitems ih =>
    cases w with
    | list ws =>
      rw [same, sameItems_iff] at h
      clear hitems
      refine .list ?_
      induction h with
      | nil => exact List.forall_mem_nil _
      | cons hwv _ ihitems =>
        obtain ⟨hv, hrest⟩ := List.forall_mem_cons.mp ih
        exact List.forall_mem_cons.mpr ⟨hv hwv, ihitems hrest⟩
    | _ => simp only [same, Bool.false_eq_true] at h

/-- Of the properties of whatever record only well-formed ones equal a literal. -/
theorem wellFormed_of_looseEq (hv : v.IsLiteral) (h : w.looseEq v = true) : w.WellFormed := by
  rw [looseEq.eq_def] at h
  split at h
  · rename_i n s
    rw [readsAs] at h
    split at h
    · rename_i m hm
      cases isLiteral_of_parseText? hm with
      | number hfinite hrange =>
        rw [Number.equals_symm] at h
        exact .number (Number.inRange_of_equals hrange hfinite h)
    · cases h
  · exact .string _
  · exact .bool _
  · exact .string _
  · exact hv.wellFormed_of_same h

end IsLiteral

end Value

namespace Query

open Value (IsLiteral)

theorem isLiteral_literalWithin (fuel : Nat) (cs : List Char) :
    (literalWithin fuel cs).IsLiteral := by
  induction fuel generalizing cs with
  | zero => exact .string _
  | succ fuel ih =>
    rw [literalWithin]
    split
    · exact .string _
    · split
      · exact .bool true
      · split
        · exact .bool false
        · split
          · rename_i n hn
            exact Value.isLiteral_of_parseText? hn
          · split
            · exact .list (List.forall_mem_map.mpr fun p _ => ih p)
            · exact .string _

theorem isLiteral_of_literal? {t : Token} {v : Value} (h : literal? t = some v) : v.IsLiteral := by
  cases t <;> simp only [literal?, Option.some.injEq, reduceCtorEq] at h
  case quoted inner =>
    subst h
    exact .string _
  all_goals
    subst h
    exact isLiteral_literalWithin _ _

/-! ## Level properties -/

/-- A property passes both `>=` and `<=` and neither `>` nor `<` when it is level with the value. -/
theorem accepts_iff_level {r : Record} {field : String} {v w : Value}
    (h : r.property? field = some w) :
    (Condition.accepts ⟨field, .gtEq, v, false⟩ r = true ∧
        Condition.accepts ⟨field, .ltEq, v, false⟩ r = true ∧
        Condition.accepts ⟨field, .gt, v, false⟩ r = false ∧
        Condition.accepts ⟨field, .lt, v, false⟩ r = false) ↔ w.naturalCompare v = .eq := by
  simp only [Condition.accepts, Condition.holds, h, Bool.bne_false]
  cases w.naturalCompare v <;> decide

/-- Equal values are level unless one is a truth value and the other its word with blanks around it,
or they hold maps with their keys in different order. Of a property and a literal only the first can
be the case. -/
theorem equal_values_level :
    (∀ a b : Value, a.WellFormed → b.WellFormed → a.looseEq b = true →
      (a.naturalCompare b = .eq ↔ a.paddedWord b = false ∧ a.keysAgree b = true)) ∧
    ∀ (r : Record) (field : String) (t : Token) (v : Value), literal? t = some v →
      Condition.accepts ⟨field, .eq, v, false⟩ r = true →
      ((Condition.accepts ⟨field, .gtEq, v, false⟩ r = true ∧
          Condition.accepts ⟨field, .ltEq, v, false⟩ r = true ∧
          Condition.accepts ⟨field, .gt, v, false⟩ r = false ∧
          Condition.accepts ⟨field, .lt, v, false⟩ r = false) ↔
        ∀ w ∈ r.property? field, w.paddedWord v = false) := by
  refine ⟨fun a b => Value.naturalCompare_eq_iff_of_looseEq, ?_⟩
  intro r field t v ht heq
  have hv : v.IsLiteral := isLiteral_of_literal? ht
  cases hproperty : r.property? field with
  | none =>
    simp only [Condition.accepts, Condition.holds, hproperty] at heq
    cases heq
  | some w =>
    have hloose : w.looseEq v = true := by
      simpa only [Condition.accepts, Condition.holds, hproperty, Bool.bne_false] using heq
    have hw : w.WellFormed := hv.wellFormed_of_looseEq hloose
    rw [accepts_iff_level hproperty,
      Value.naturalCompare_eq_iff_of_looseEq hw hv.wellFormed hloose,
      and_iff_left (hv.keysAgree w)]
    simp

/-- Zeros of either sign in equal maps, and a number that the literal writes with blanks. -/
theorem equal_values_level_numbers :
    let a := Value.map [("x", .number (.finite true 0)), ("y", .list [.bool true])]
    let b := Value.map [("x", .number (.finite false 0)), ("y", .list [.bool true])]
    let r := Record.ofNote (.page "a" "Alpha" "---\nn: 3\n---\n")
    let v := Value.string " 3.0 "
    (a.WellFormed ∧ b.WellFormed ∧ a.looseEq b = true ∧ a.paddedWord b = false ∧
      a.keysAgree b = true ∧ a.naturalCompare b = .eq) ∧
    literal? (.quoted " 3.0 ".toList) = some v ∧
      Condition.accepts ⟨"n", .eq, v, false⟩ r = true ∧
      (∀ w ∈ r.property? "n", w.paddedWord v = false) ∧
      Condition.accepts ⟨"n", .gtEq, v, false⟩ r = true ∧
      Condition.accepts ⟨"n", .ltEq, v, false⟩ r = true ∧
      Condition.accepts ⟨"n", .gt, v, false⟩ r = false ∧
      Condition.accepts ⟨"n", .lt, v, false⟩ r = false := by
  intro a b r v
  have hzero (negative : Bool) : (Number.finite negative 0).InRange := by
    rintro _ _ ⟨⟩
    decide +kernel
  have hmap (negative : Bool) :
      (Value.map [("x", .number (.finite negative 0)), ("y", .list [.bool true])]).WellFormed := by
    refine .map (by simp) (List.forall_mem_cons.mpr ⟨.number (hzero negative), ?_⟩)
    exact List.forall_mem_singleton.mpr (.list (List.forall_mem_singleton.mpr (.bool true)))
  have hab : a.looseEq b = true := by decide +kernel
  have hpadded : a.paddedWord b = false := rfl
  have hkeys : a.keysAgree b = true := by decide +kernel
  have heq : Condition.accepts ⟨"n", .eq, v, false⟩ r = true := by decide +kernel
  have hword : ∀ w ∈ r.property? "n", w.paddedWord v = false := by
    have hall : (r.property? "n").all (fun w => !w.paddedWord v) = true := by decide +kernel
    simpa [Option.all_eq_true] using hall
  obtain ⟨hvalues, hconditions⟩ := equal_values_level
  exact ⟨⟨hmap true, hmap false, hab, hpadded, hkeys,
      (hvalues a b (hmap true) (hmap false) hab).mpr ⟨hpadded, hkeys⟩⟩,
    rfl, heq, hword, (hconditions r "n" (.quoted " 3.0 ".toList) v rfl heq).mpr hword⟩

/-- A truth value equals its word with blanks around it and comes after it, and two equal maps are
not level. -/
theorem padded_word_not_level :
    let r := Record.ofNote (.page "a" "Alpha" "---\ndone: true\n---\n")
    let v := Value.string " true "
    let a := Value.map [("x", .null), ("y", .null)]
    let b := Value.map [("y", .null), ("x", .null)]
    literal? (.quoted " true ".toList) = some v ∧
      Condition.accepts ⟨"done", .eq, v, false⟩ r = true ∧
      Condition.accepts ⟨"done", .ltEq, v, false⟩ r = false ∧
      Condition.accepts ⟨"done", .gt, v, false⟩ r = true ∧
      a.WellFormed ∧ b.WellFormed ∧ a.looseEq b = true ∧ a.naturalCompare b = .lt := by
  intro r v a b
  have hmap (k l : String) (h : k ≠ l) : (Value.map [(k, .null), (l, .null)]).WellFormed := by
    refine .map (by simpa using h) (List.forall_mem_cons.mpr ⟨.null, ?_⟩)
    exact List.forall_mem_singleton.mpr .null
  exact ⟨rfl, by decide +kernel, by decide +kernel, by decide +kernel, hmap _ _ (by decide),
    hmap _ _ (by decide), by decide +kernel, by decide +kernel⟩

end Query

end NoteIndex
