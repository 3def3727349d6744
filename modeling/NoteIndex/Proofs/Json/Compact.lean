import NoteIndex.Json.Reader
import NoteIndex.Json.Writer

/-!
# Compact JSON text reads back

What is written without numbers is read back as it was, whatever text follows it: each string by its
pieces, each container by its items. Every character of a value that is read costs at most one unit
of fuel, so the length of the text is enough of it.
-/

namespace NoteIndex.Json

/-- Values made of strings, truth values and null alone. -/
inductive Plain : Json → Prop
  | null : Plain .null
  | bool (b : Bool) : Plain (.bool b)
  | string (s : String) : Plain (.string s)
  | array {items : List Json} (h : ∀ j ∈ items, Plain j) : Plain (.array items)
  | object {fields : List (String × Json)} (h : ∀ f ∈ fields, Plain f.2) : Plain (.object fields)

theorem plain_strings (xs : List String) : Plain (strings xs) := by
  refine .array fun j hj => ?_
  obtain ⟨s, -, rfl⟩ := List.mem_map.mp hj
  exact .string s

/-! ## Strings -/

/-- The two digits of a control character after two zeros. -/
theorem hexFour?_control : ∀ n < 0x20,
    hexFour? '0' '0' (hexDigit (n / 16)) (hexDigit (n % 16)) = some n := by
  decide

theorem readPiece?_escapeChar (c : Char) (r : List Char) :
    readPiece? (escapeChar c ++ r) = some (.char c, r) := by
  simp only [escapeChar]
  -- The seven characters with an escape of their own.
  iterate 7
    split
    · subst_vars
      rfl
  split
  · rename_i h
    have hhex := hexFour?_control c.toNat h
    have hlead : ¬ (0xD800 ≤ c.toNat ∧ c.toNat ≤ 0xDBFF) := by omega
    have htrail : ¬ (0xDC00 ≤ c.toNat ∧ c.toNat ≤ 0xDFFF) := by omega
    simp only [List.cons_append, List.nil_append, readPiece?, hhex, if_neg hlead, if_neg htrail,
      Char.ofNat_toNat]
  · rename_i _ hback _ _ _ _ _ hcontrol
    simp [readPiece?, hback, hcontrol]

theorem length_le_escaped (s : List Char) : s.length ≤ (s.flatMap escapeChar).length := by
  induction s with
  | nil => exact Nat.le_refl 0
  | cons c s ih =>
    have hc : 1 ≤ (escapeChar c).length := by
      simp only [escapeChar]
      repeat' split
      all_goals simp
    rw [List.flatMap_cons, List.length_append, List.length_cons]
    omega

theorem readString?_escaped (s : List Char) (fuel : Nat) (r : List Char) (h : s.length < fuel) :
    readString? fuel (s.flatMap escapeChar ++ '"' :: r) = some (some s, r) := by
  induction s generalizing fuel with
  | nil =>
    obtain ⟨n, rfl⟩ := Nat.exists_eq_succ_of_ne_zero (Nat.ne_of_gt h)
    rfl
  | cons c s ih =>
    obtain ⟨n, rfl⟩ := Nat.exists_eq_succ_of_ne_zero (Nat.ne_of_gt (Nat.zero_lt_of_lt h))
    have hs := ih n (Nat.lt_of_succ_lt_succ h)
    rw [List.flatMap_cons, List.append_assoc, readString?, readPiece?_escapeChar]
    simp only [hs, Option.map_some]

/-- The reader of a value gives a string as much fuel as there is text. -/
theorem readString?_text (s : String) (r : List Char) :
    let cs := s.toList.flatMap escapeChar ++ '"' :: r
    readString? (cs.length + 1) cs = some (some s.toList, r) := by
  have hescaped := length_le_escaped s.toList
  refine readString?_escaped s.toList _ r ?_
  simp only [List.length_append, List.length_cons]
  omega

/-- The closing quote tells where a string ends, so that what follows it is told apart too. -/
theorem quoted_append_iff (s t : String) (r r' : List Char) :
    quoted s ++ r = quoted t ++ r' ↔ s = t ∧ r = r' := by
  constructor
  · intro h
    simp only [quoted, List.cons_append, List.append_assoc, List.nil_append, List.cons.injEq,
      true_and] at h
    have hs := readString?_escaped s.toList (s.toList.length + t.toList.length + 1) r (by omega)
    have ht := readString?_escaped t.toList (s.toList.length + t.toList.length + 1) r' (by omega)
    rw [h, ht, Option.some.injEq, Prod.mk.injEq, Option.some.injEq] at hs
    exact ⟨(String.toList_injective hs.1).symm, hs.2.symm⟩
  · rintro ⟨rfl, rfl⟩
    rfl

/-! ## Values -/

theorem skipSpace_cons (c : Char) (h : isSpace c = false) (r : List Char) :
    skipSpace (c :: r) = c :: r := by
  rw [skipSpace, List.dropWhile_cons_of_neg (by simp [h])]

/-- What reading needs to know of how a value begins: no blank, and no end of a list. -/
theorem Plain.head {j : Json} (h : j.Plain) :
    ∃ c r, j.compactChars = c :: r ∧ isSpace c = false ∧ c ≠ ']' := by
  cases h with
  | null => exact ⟨'n', "ull".toList, rfl, rfl, by decide⟩
  | bool b =>
    cases b with
    | true => exact ⟨'t', "rue".toList, rfl, rfl, by decide⟩
    | false => exact ⟨'f', "alse".toList, rfl, rfl, by decide⟩
  | string s => exact ⟨'"', s.toList.flatMap escapeChar ++ ['"'], rfl, rfl, by decide⟩
  | @array items h =>
    exact ⟨'[', ([','] : List Char).intercalate (compactItems items) ++ [']'],
      by rw [compactChars, enclose, List.cons_append], rfl, by decide⟩
  | @object fields h =>
    exact ⟨'\x7b', ([','] : List Char).intercalate (compactFields fields) ++ ['\x7d'],
      by rw [compactChars, enclose, List.cons_append], rfl, by decide⟩

/-- Given enough fuel, the value is read off the front of any text that begins with it. -/
def ReadsBack (j : Json) : Prop :=
  ∀ (fuel : Nat) (rest : List Char), j.compactChars.length ≤ fuel →
    readValue? fuel (j.compactChars ++ rest) = some (j, rest)

theorem readItems?_compactItems {items : List Json} (hne : items ≠ [])
    (h : ∀ j ∈ items, ReadsBack j) (fuel : Nat) (rest : List Char)
    (hfuel : (([','] : List Char).intercalate (compactItems items)).length < fuel) :
    readItems? fuel (([','] : List Char).intercalate (compactItems items) ++ ']' :: rest) =
      some (items, rest) := by
  induction items generalizing fuel with
  | nil => exact absurd rfl hne
  | cons j js ih =>
    obtain ⟨n, rfl⟩ := Nat.exists_eq_succ_of_ne_zero (Nat.ne_of_gt (Nat.zero_lt_of_lt hfuel))
    cases js with
    | nil =>
      simp only [compactItems, List.intercalate_singleton] at hfuel ⊢
      rw [readItems?, h j (List.mem_singleton_self j) n _ (Nat.le_of_lt_succ hfuel)]
      rfl
    | cons k ks =>
      have hsplit : ([','] : List Char).intercalate (compactItems (j :: k :: ks)) =
          j.compactChars ++ ',' :: ([','] : List Char).intercalate (compactItems (k :: ks)) := by
        simp [compactItems, List.intercalate_cons_cons]
      rw [hsplit, List.length_append, List.length_cons] at hfuel
      have hj := h j (List.mem_cons_self ..) n
        (',' :: ([','] : List Char).intercalate (compactItems (k :: ks)) ++ ']' :: rest) (by omega)
      have hks := ih (List.cons_ne_nil k ks) (fun i hi => h i (List.mem_cons_of_mem j hi)) n
        (by omega)
      rw [hsplit, List.append_assoc, readItems?, hj]
      simp only [List.cons_append, skipSpace_cons ',' rfl, hks, Option.map_some]

/-- Reading item by item what was written item by item. -/
theorem mapM_map_of_left_inverse {α β : Type} {write : α → β} {read : β → Option α} {as : List α}
    (h : ∀ a ∈ as, read (write a) = some a) : (as.map write).mapM read = some as := by
  rw [List.mapM_map]
  induction as with
  | nil => rfl
  | cons a as ih =>
    obtain ⟨ha, has⟩ := List.forall_mem_cons.mp h
    simp [List.mapM_cons, Function.comp, ha, ih has]

/-- The keys of fields, as the reader hands them on: each denotes itself. -/
def namedFields (fields : List (String × Json)) : List (Option String × Json) :=
  fields.map fun f => (some f.1, f.2)

theorem ofFields_namedFields (fields : List (String × Json)) :
    ofFields (namedFields fields) = .object fields := by
  rw [ofFields, namedFields, mapM_map_of_left_inverse]
  exact fun _ _ => rfl

section Field

variable (k : String) {j : Json} {n : Nat} {r : List Char}

theorem readFields?_last {rest : List Char} (hj : readValue? n r = some (j, '\x7d' :: rest)) :
    readFields? (n + 1) (quoted k ++ ':' :: r) = some ([(some k, j)], rest) := by
  simp only [quoted, readFields?, List.cons_append, List.append_assoc, List.nil_append,
    skipSpace_cons '"' rfl, readString?_text, skipSpace_cons ':' rfl, hj,
    skipSpace_cons '\x7d' rfl, Option.map_some, String.ofList_toList]

theorem readFields?_next {r' rest : List Char} {fields : List (Option String × Json)}
    (hj : readValue? n r = some (j, ',' :: r')) (hr : readFields? n r' = some (fields, rest)) :
    readFields? (n + 1) (quoted k ++ ':' :: r) = some ((some k, j) :: fields, rest) := by
  simp only [quoted, readFields?, List.cons_append, List.append_assoc, List.nil_append,
    skipSpace_cons '"' rfl, readString?_text, skipSpace_cons ':' rfl, hj,
    skipSpace_cons ',' rfl, hr, Option.map_some, String.ofList_toList]

end Field

theorem readFields?_compactFields {fields : List (String × Json)} (hne : fields ≠ [])
    (h : ∀ f ∈ fields, ReadsBack f.2) (fuel : Nat) (rest : List Char)
    (hfuel : (([','] : List Char).intercalate (compactFields fields)).length < fuel) :
    readFields? fuel (([','] : List Char).intercalate (compactFields fields) ++ '\x7d' :: rest) =
      some (namedFields fields, rest) := by
  induction fields generalizing fuel with
  | nil => exact absurd rfl hne
  | cons f fs ih =>
    obtain ⟨k, j⟩ := f
    obtain ⟨n, rfl⟩ := Nat.exists_eq_succ_of_ne_zero (Nat.ne_of_gt (Nat.zero_lt_of_lt hfuel))
    have hread : ReadsBack j := h (k, j) (List.mem_cons_self ..)
    cases fs with
    | nil =>
      have hwhole : ([','] : List Char).intercalate (compactFields [(k, j)]) =
          quoted k ++ ':' :: j.compactChars := by
        simp [compactFields]
      rw [hwhole, List.length_append, List.length_cons] at hfuel
      rw [hwhole, List.append_assoc, List.cons_append]
      exact readFields?_last k (hread n ('\x7d' :: rest) (by omega))
    | cons g gs =>
      have hsplit : ([','] : List Char).intercalate (compactFields ((k, j) :: g :: gs)) =
          quoted k ++ ':' :: (j.compactChars ++
            ',' :: ([','] : List Char).intercalate (compactFields (g :: gs))) := by
        simp [compactFields, List.intercalate_cons_cons]
      rw [hsplit] at hfuel
      simp only [List.length_append, List.length_cons] at hfuel
      have hgs := ih (List.cons_ne_nil g gs) (fun i hi => h i (List.mem_cons_of_mem _ hi)) n
        (by omega)
      rw [hsplit]
      simp only [List.append_assoc, List.cons_append]
      exact readFields?_next k (hread n _ (by omega)) hgs

/-- A value is at least a character long, so there is fuel to read it. -/
theorem Plain.exists_fuel {j : Json} (h : j.Plain) {fuel : Nat}
    (hfuel : j.compactChars.length ≤ fuel) : ∃ n, fuel = n + 1 := by
  obtain ⟨c, r, hj, -, -⟩ := h.head
  rw [hj, List.length_cons] at hfuel
  exact Nat.exists_eq_add_of_le' (Nat.le_trans (Nat.le_add_left 1 _) hfuel)

theorem readValue?_items (n : Nat) {c : Char} {r : List Char} (hspace : isSpace c = false)
    (hclose : c ≠ ']') :
    readValue? (n + 1) ('[' :: c :: r) =
      (readItems? n (c :: r)).map fun (items, r) => (.array items, r) := by
  simp only [readValue?, skipSpace_cons '[' rfl, skipSpace_cons c hspace]
  split
  · rename_i heq
    exact absurd (List.cons.inj heq).1 hclose
  · rfl

theorem Plain.readsBack {j : Json} (h : j.Plain) : j.ReadsBack := by
  induction h with
  | null =>
    intro fuel rest hfuel
    obtain ⟨n, rfl⟩ := Plain.null.exists_fuel hfuel
    rfl
  | bool b =>
    intro fuel rest hfuel
    obtain ⟨n, rfl⟩ := (Plain.bool b).exists_fuel hfuel
    cases b <;> rfl
  | string s =>
    intro fuel rest hfuel
    obtain ⟨n, rfl⟩ := (Plain.string s).exists_fuel hfuel
    simp only [compactChars, quoted, List.cons_append, List.append_assoc, List.nil_append,
      readValue?, skipSpace_cons '"' rfl]
    rw [readString?_text s rest]
    simp only [Option.map_some, String.ofList_toList]
  | @array items h ih =>
    intro fuel rest hfuel
    obtain ⟨n, rfl⟩ := (Plain.array h).exists_fuel hfuel
    cases items with
    | nil => rfl
    | cons i is =>
      obtain ⟨c, r, hi, hspace, hclose⟩ := (h i (List.mem_cons_self ..)).head
      have hitems := readItems?_compactItems (List.cons_ne_nil i is) ih n rest (by
        simp only [compactChars, enclose, List.length_cons, List.length_append] at hfuel
        omega)
      have htext : ∃ q, ([','] : List Char).intercalate (compactItems (i :: is)) = c :: q := by
        cases is <;> simp [compactItems, hi, List.intercalate_cons_cons]
      obtain ⟨q, hq⟩ := htext
      simp only [compactChars, enclose, hq, List.cons_append, List.append_assoc, List.nil_append]
        at hitems ⊢
      rw [readValue?_items n hspace hclose, hitems, Option.map_some]
  | @object fields h ih =>
    intro fuel rest hfuel
    obtain ⟨n, rfl⟩ := (Plain.object h).exists_fuel hfuel
    cases fields with
    | nil => rfl
    | cons f fs =>
      have hfields := readFields?_compactFields (List.cons_ne_nil f fs) ih n rest (by
        simp only [compactChars, enclose, List.length_cons, List.length_append] at hfuel
        omega)
      have htext : ∃ q, ([','] : List Char).intercalate (compactFields (f :: fs)) = '"' :: q := by
        cases fs <;> simp [compactFields, quoted, List.intercalate_cons_cons]
      obtain ⟨q, hq⟩ := htext
      simp only [compactChars, enclose, hq, List.cons_append, List.append_assoc, List.nil_append]
        at hfields ⊢
      simp only [readValue?, skipSpace_cons '\x7b' rfl, skipSpace_cons '"' rfl, hfields,
        Option.map_some, ofFields_namedFields]
      rfl

/-- What is written is read. -/
theorem Plain.parse?_compact {j : Json} (h : j.Plain) : parse? j.compact = some j := by
  have hread := h.readsBack (2 * j.compactChars.length + 2) [] (by omega)
  rw [List.append_nil] at hread
  simp only [parse?, compact, String.toList_ofList, hread]
  rfl

end NoteIndex.Json
