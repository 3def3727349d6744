/-!
# Byte offsets

Places in a text as the number of bytes that UTF-8 takes for what comes before them. A text can be
cut where one of its characters ends, or at its beginning, and nowhere else.
-/

namespace NoteIndex.Text

/-- The number of bytes of a text. -/
def byteSize : List Char → Nat
  | [] => 0
  | c :: r => c.utf8Size + byteSize r

/-- The text before and after an offset. There is no cut inside a character, nor past the end. -/
def cutAt? (n : Nat) : List Char → Option (List Char × List Char)
  | [] => if n = 0 then some ([], []) else none
  | c :: r =>
    if n = 0 then some ([], c :: r)
    else if c.utf8Size ≤ n then (cutAt? (n - c.utf8Size) r).map fun p => (c :: p.1, p.2)
    else none

/-- The offset of the first character with a property. -/
def offset? (p : Char → Bool) : List Char → Option Nat
  | [] => none
  | c :: r => if p c then some 0 else (offset? p r).map (c.utf8Size + ·)

theorem byteSize_append (front back : List Char) :
    byteSize (front ++ back) = byteSize front + byteSize back := by
  induction front with
  | nil => exact (Nat.zero_add _).symm
  | cons c front ih => rw [List.cons_append, byteSize, byteSize, ih, Nat.add_assoc]

theorem byteSize_eq (cs : List Char) : byteSize cs = (String.ofList cs).utf8ByteSize := by
  induction cs with
  | nil => rfl
  | cons c r ih =>
    rw [byteSize, ih, String.ofList_cons, String.utf8ByteSize_append,
      String.utf8ByteSize_singleton]

/-- A text is cut behind any piece that it begins with. -/
theorem cutAt?_append (front back : List Char) :
    cutAt? (byteSize front) (front ++ back) = some (front, back) := by
  induction front with
  | nil => cases back <;> rfl
  | cons c front ih =>
    have hpos : c.utf8Size + byteSize front ≠ 0 := by
      have := c.utf8Size_pos
      omega
    rw [List.cons_append, byteSize, cutAt?, if_neg hpos, if_pos (Nat.le_add_right ..),
      Nat.add_sub_cancel_left, ih, Option.map_some]

theorem cutAt?_eq_some {n : Nat} {cs front back : List Char}
    (h : cutAt? n cs = some (front, back)) : cs = front ++ back ∧ n = byteSize front := by
  induction cs generalizing n front with
  | nil =>
    rw [cutAt?] at h
    split at h <;> cases h
    rename_i hn
    exact ⟨rfl, hn⟩
  | cons c r ih =>
    rw [cutAt?] at h
    split at h
    · rename_i hn
      cases h
      exact ⟨rfl, hn⟩
    split at h
    · rename_i hle
      obtain ⟨⟨_, _⟩, hr, ⟨⟩⟩ := Option.map_eq_some_iff.mp h
      obtain ⟨rfl, hsize⟩ := ih hr
      refine ⟨rfl, ?_⟩
      rw [byteSize]
      exact (Nat.sub_eq_iff_eq_add' hle).mp hsize
    · cases h

theorem cutAt?_eq_some_iff {n : Nat} {cs front back : List Char} :
    cutAt? n cs = some (front, back) ↔ cs = front ++ back ∧ n = byteSize front := by
  constructor
  · exact cutAt?_eq_some
  · rintro ⟨rfl, rfl⟩
    exact cutAt?_append front back

/-- The offsets at which a text can be cut are the valid positions of its string. -/
theorem isSome_cutAt?_iff (n : Nat) (cs : List Char) :
    (cutAt? n cs).isSome = true ↔ String.Pos.Raw.IsValid (String.ofList cs) ⟨n⟩ := by
  rw [Option.isSome_iff_exists, String.Pos.Raw.isValid_ofList]
  constructor
  · rintro ⟨⟨front, back⟩, h⟩
    obtain ⟨rfl, rfl⟩ := cutAt?_eq_some h
    refine ⟨front.length, ?_⟩
    rw [List.take_left, ← byteSize_eq]
  · rintro ⟨i, hi⟩
    refine ⟨(cs.take i, cs.drop i), ?_⟩
    rw [cutAt?_eq_some_iff, byteSize_eq, List.take_append_drop]
    exact ⟨rfl, hi⟩

example : cutAt? 1 "é".toList = none := by decide

end NoteIndex.Text
