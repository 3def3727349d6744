import NoteIndex.Proofs.Number
import NoteIndex.Proofs.Query.Sorting
import NoteIndex.Proofs.Query.Sources
import NoteIndex.Proofs.Time.Order

/-!
# Properties in order of time

When a note was made and when it was changed are told as texts, which have colons in them and so
are never taken for numbers. Sorting by them and comparing them goes by these texts, that is by time
down to the millisecond, as long as the years have four digits.
-/

namespace NoteIndex

/-! ## Instants as values -/

namespace Timestamp

theorem not_isNumeric_millisText (t : Timestamp) : ¬(Value.string t.millisText).IsNumeric := by
  have hcolon : ':' ∈ t.millisText.toList := by
    simp [millisText, wholeText, clockText]
  have hforeign : Number.Foreign ':' := by decide
  rw [Value.not_isNumeric_iff]
  exact hforeign.parseText?_eq hcolon

theorem naturalCompare_millisText {s t : Timestamp} (hs : s.IsInstant) (ht : t.IsInstant) :
    (Value.string s.millisText).naturalCompare (.string t.millisText) =
      (Ord.compare (yearText s.year) (yearText t.year)).then (s.compareMillis t) := by
  rw [Value.naturalCompare_of_text (.inl s.not_isNumeric_millisText)]
  exact compare_millisText hs ht

/-- The year has four digits and no sign. -/
def PlainYear (t : Timestamp) : Prop := 0 ≤ t.year ∧ t.year ≤ 9999

instance (t : Timestamp) : Decidable t.PlainYear := inferInstanceAs (Decidable (_ ∧ _))

theorem naturalCompare_of_plainYear {s t : Timestamp} (hs : s.IsInstant) (ht : t.IsInstant)
    (hsyear : s.PlainYear) (htyear : t.PlainYear) :
    (Value.string s.millisText).naturalCompare (.string t.millisText) = s.compareMillis t := by
  rw [naturalCompare_millisText hs ht, compare_yearText_of_four hsyear htyear,
    ← compareMillis_eq_then]

end Timestamp

namespace Record

/-- The properties that tell an instant of a note. -/
def timeProperties : List (String × (Record → Timestamp)) :=
  [("file.created", created), ("created", created), ("file.modified", modified),
    ("modified", modified)]

/-- The record of a note as it was read from an export. -/
def Decoded (r : Record) : Prop := ∃ text n, Note.decode? text = some n ∧ r = ofNote n

theorem created_ofNote (n : Note) : (ofNote n).created = n.created := rfl

variable {name : String} {time : Record → Timestamp}

theorem property?_of_time (h : (name, time) ∈ timeProperties) (r : Record) :
    r.property? name = some (.string (time r).millisText) := by
  simp only [timeProperties, List.mem_cons, List.not_mem_nil, or_false, Prod.mk.injEq] at h
  rcases h with ⟨rfl, rfl⟩ | ⟨rfl, rfl⟩ | ⟨rfl, rfl⟩ | ⟨rfl, rfl⟩ <;> simp [property?]

theorem Decoded.isInstant {r : Record} (hr : r.Decoded) (h : (name, time) ∈ timeProperties) :
    (time r).IsInstant := by
  obtain ⟨text, n, hn, rfl⟩ := hr
  obtain ⟨hcreated, hmodified⟩ := Note.isInstant_of_decode? hn
  simp only [timeProperties, List.mem_cons, List.not_mem_nil, or_false, Prod.mk.injEq] at h
  rcases h with ⟨-, rfl⟩ | ⟨-, rfl⟩ | ⟨-, rfl⟩ | ⟨-, rfl⟩
  exacts [hcreated, hcreated, hmodified, hmodified]

end Record

namespace Query

open Record (timeProperties)

/-- The operators that go by the order of values, and what they ask of it. -/
def Operator.orderings : List (Operator × (Ordering → Bool)) :=
  [(.gt, (· == .gt)), (.lt, (· == .lt)), (.gtEq, (· != .lt)), (.ltEq, (· != .gt))]

theorem Condition.holds_of_orderings {c : Condition} {meets : Ordering → Bool}
    (h : (c.operator, meets) ∈ Operator.orderings) (v : Value) :
    c.holds (some v) = meets (v.naturalCompare c.value) := by
  simp only [Operator.orderings, List.mem_cons, List.not_mem_nil, or_false, Prod.mk.injEq] at h
  rcases h with ⟨hop, rfl⟩ | ⟨hop, rfl⟩ | ⟨hop, rfl⟩ | ⟨hop, rfl⟩ <;> simp only [holds, hop]

variable {name : String} {time : Record → Timestamp} {x : Index}

theorem sortable_time (hname : (name, time) ∈ timeProperties) (descending : Bool)
    (rs : List Record) : Order.Sortable ⟨name, descending⟩ rs := by
  have hvalues (r : Record) (v : Value) (hv : v ∈ r.property? name) :
      v = .string (time r).millisText := by
    rw [Record.property?_of_time hname] at hv
    exact (Option.some.inj hv).symm
  refine OfOneKind.sortable (.inr ?_) fun r _ v hv => ?_
  · refine List.forall_mem_map.mpr fun r _ v hv => ?_
    rw [hvalues r v hv]
    exact (time r).not_isNumeric_millisText
  · rw [hvalues r v hv]
    exact .string _

/-- Standing in front by a time is being not later, or not earlier downwards. -/
theorem compareMillis_of_allows (hname : (name, time) ∈ timeProperties) {descending : Bool}
    {r s : Record} (h : Order.Allows ⟨name, descending⟩ r s)
    (hr : (time r).IsInstant ∧ (time r).PlainYear) (hs : (time s).IsInstant ∧ (time s).PlainYear) :
    if descending then (time r).compareMillis (time s) ≠ .lt
    else (time r).compareMillis (time s) ≠ .gt := by
  rw [← Timestamp.naturalCompare_of_plainYear hr.1 hs.1 hr.2 hs.2]
  exact h.2 _ _ (Record.property?_of_time hname r) (Record.property?_of_time hname s)

/-- A query in order of a time finds what its limit leaves of the selected records in that order. -/
theorem pairwise_matched_time (hname : (name, time) ∈ timeProperties) {descending : Bool}
    {q : Query} (horder : q.order = some ⟨name, descending⟩) (x : Index) :
    ∃ found, q.matched x = some found ∧ found.Pairwise (Order.Allows ⟨name, descending⟩) := by
  have hsortable := sortable_time hname descending (selected x q)
  have hq : q.Sortable (selected x q) := by
    rw [Sortable, horder]
    rintro o ⟨⟩
    exact hsortable
  obtain ⟨sorted, hsorted⟩ := Option.ne_none_iff_exists'.mp fun h => not_sortable_of_arranged h hq
  refine ⟨q.limited sorted, matched_eq_some_iff.mpr ⟨sorted, hsorted, rfl⟩, ?_⟩
  have hordered := (arranges_of_arranged hsorted).ordered _ horder hsortable
  exact hordered.1.sublist (limited_sublist q sorted)

end Query

/-- A note of an export that was made at this time and not changed since, for the examples. -/
def Note.exportedAt (id time : String) : String :=
  "\x7b\"id\":\"" ++ id ++ "\",\"title\":\"\",\"created\":\"" ++ time ++
    "\",\"modified\":\"" ++ time ++ "\"\x7d"

/-- The text piece by piece, as which it is quickly read. -/
theorem Note.toList_exportedAt (id time : String) :
    (exportedAt id time).toList = "\x7b\"id\":\"".toList ++ id.toList ++
      "\",\"title\":\"\",\"created\":\"".toList ++ time.toList ++
      "\",\"modified\":\"".toList ++ time.toList ++ "\"\x7d".toList := by
  simp only [exportedAt, String.toList_append]

namespace Record

open Query (Condition Operator)
open Timestamp (yearText)

/-- Times of notes that were read are told as values that stand as the texts of their years, and
within a year as the instants, down to milliseconds. So a time that is not later is told as a value
that is not greater just if its year is not greater as a text: it never is greater than one in a
year of four digits, and it always is greater than one after the year 9999 if it is not itself
there. With years of four digits sorting by the property puts no time before an earlier one, or
after one if downwards, and comparing it with the text of an instant compares the two in time. -/
theorem time_order {name : String} {time : Record → Timestamp}
    (hname : (name, time) ∈ timeProperties) :
    (∀ r s : Record, r.Decoded → s.Decoded →
      ∃ v w, r.property? name = some v ∧ s.property? name = some w ∧
        v.naturalCompare w = (compare (yearText (time r).year) (yearText (time s).year)).then
          ((time r).compareMillis (time s)) ∧
        ((time r).compare (time s) ≠ .gt →
          (v.naturalCompare w ≠ .gt ↔
            compare (yearText (time r).year) (yearText (time s).year) ≠ .gt) ∧
          ((time s).PlainYear → v.naturalCompare w ≠ .gt) ∧
          ((time r).year ≤ 9999 → 9999 < (time s).year → v.naturalCompare w = .gt))) ∧
    (∀ (x : Index) (q : Query) (descending : Bool), q.order = some ⟨name, descending⟩ →
      (∀ r ∈ x.records.values, r.Decoded ∧ (time r).PlainYear) →
      ∃ found, q.matched x = some found ∧ found.Pairwise fun r s =>
        if descending then (time r).compareMillis (time s) ≠ .lt
        else (time r).compareMillis (time s) ≠ .gt) ∧
    ∀ (r : Record) (t : Timestamp), r.Decoded → t.IsInstant → (time r).PlainYear → t.PlainYear →
      ∀ operator meets, (operator, meets) ∈ Operator.orderings → ∀ negated,
        (⟨name, operator, .string t.millisText, negated⟩ : Condition).accepts r =
          (meets ((time r).compareMillis t) != negated) := by
  refine ⟨fun r s hr hs => ?_, fun x q descending horder hrecords => ?_,
    fun r t hr ht hryear htyear operator meets hmeets negated => ?_⟩
  · have hcompare := Timestamp.naturalCompare_millisText (hr.isInstant hname) (hs.isInstant hname)
    refine ⟨_, _, property?_of_time hname r, property?_of_time hname s, hcompare, fun hle => ?_⟩
    have hmillis := Timestamp.compareMillis_ne_gt hle
    have hyear := Timestamp.year_le_of_compare hle
    have hiff :
        (Value.string (time r).millisText).naturalCompare (.string (time s).millisText) ≠ .gt ↔
          compare (yearText (time r).year) (yearText (time s).year) ≠ .gt := by
      rw [hcompare, ne_eq, Ordering.then_eq_gt, or_iff_left fun h => hmillis h.2]
    refine ⟨hiff, fun hplain => hiff.mpr (Timestamp.compare_yearText_of_le hyear hplain),
      fun hfour hfive => ?_⟩
    rw [hcompare, Timestamp.compare_yearText_gt hfour hfive]
    rfl
  · obtain ⟨found, hfound, hpairwise⟩ := Query.pairwise_matched_time hname horder x
    have htime (r : Record) (hr : r ∈ found) : (time r).IsInstant ∧ (time r).PlainYear := by
      obtain ⟨hdecoded, hyear⟩ := hrecords r (Query.mem_records_of_mem_matched hfound hr)
      exact ⟨hdecoded.isInstant hname, hyear⟩
    exact ⟨found, hfound, hpairwise.imp_of_mem fun hr hs hallows =>
      Query.compareMillis_of_allows hname hallows (htime _ hr) (htime _ hs)⟩
  · rw [Condition.accepts, property?_of_time hname,
      Condition.holds_of_orderings (c := ⟨name, operator, .string t.millisText, negated⟩) hmeets,
      Timestamp.naturalCompare_of_plainYear (hr.isInstant hname) ht hryear htyear]

/-- The first note was made in a leap second, and the second, by a clock an hour ahead, in the
second before. -/
theorem time_order_leap_second :
    let noteAt (id : String) (seconds : Int) (nanos : Nat) : Note :=
      ⟨id, "", "", "", [], ⟨seconds, nanos⟩, ⟨seconds, nanos⟩⟩
    let m := noteAt "a" 1483228799 1500000000
    let n := noteAt "b" 1483228799 750000000
    let r := ofNote m
    let s := ofNote n
    let x := Index.ofNotes (((∅ : Notebook).add m).add n).notes
    Note.decode? (Note.exportedAt "a" "2016-12-31T23:59:60.5Z") = some m ∧
      Note.decode? (Note.exportedAt "b" "2017-01-01T00:59:59.75+01:00") = some n ∧
      s.created.compare r.created ≠ .gt ∧ r.created.PlainYear ∧ s.created.PlainYear ∧
      (∃ v w, s.property? "created" = some v ∧ r.property? "created" = some w ∧
        v.naturalCompare w ≠ .gt) ∧
      (∃ found,
        (⟨.list, [], [], [], some ⟨"created", false⟩, none⟩ : Query).matched x = some found ∧
        found.Pairwise fun r s => r.created.compareMillis s.created ≠ .gt) ∧
      (⟨"created", .lt, .string "2016-12-31T23:59:60.000Z", false⟩ : Condition).accepts s := by
  intro noteAt m n r s x
  have hm : Note.decode? (Note.exportedAt "a" "2016-12-31T23:59:60.5Z") = some m := by
    rw [Note.decode?, Json.parse?]
    simp only [Note.toList_exportedAt]
    decide +kernel
  have hn : Note.decode? (Note.exportedAt "b" "2017-01-01T00:59:59.75+01:00") = some n := by
    rw [Note.decode?, Json.parse?]
    simp only [Note.toList_exportedAt]
    decide +kernel
  have hname : ("created", created) ∈ timeProperties := by simp [timeProperties]
  obtain ⟨hpairs, hsorted, hcompared⟩ := time_order hname
  have hr : r.Decoded := ⟨_, m, hm, rfl⟩
  have hs : s.Decoded := ⟨_, n, hn, rfl⟩
  have hle : s.created.compare r.created ≠ .gt := by decide +kernel
  have hryear : r.created.PlainYear := by decide +kernel
  have hsyear : s.created.PlainYear := by decide +kernel
  have hrecords : ∀ q ∈ x.records.values, q.Decoded ∧ q.created.PlainYear := by
    have hvalues : x.records.values = [r, s] := by
      rw [Index.values_ofNotes]
      rfl
    rw [hvalues]
    simp only [List.forall_mem_cons, List.not_mem_nil, false_imp_iff, implies_true, and_true]
    exact ⟨⟨hr, hryear⟩, hs, hsyear⟩
  obtain ⟨v, w, hv, hw, -, hgood⟩ := hpairs s r hs hr
  have htext : (⟨1483228799, 1000000000⟩ : Timestamp).millisText = "2016-12-31T23:59:60.000Z" := by
    decide +kernel
  refine ⟨hm, hn, hle, hryear, hsyear, ⟨v, w, hv, hw, (hgood hle).2.1 hryear⟩,
    hsorted x _ false rfl hrecords, ?_⟩
  rw [← htext, hcompared s _ hs (by decide +kernel) hsyear (by decide +kernel) .lt (· == .lt)
    (by simp [Operator.orderings]) false]
  decide +kernel

/-- By a clock an hour behind, a note was made in the last second of the year 9999. -/
theorem time_order_past_9999 : ∃ m n : Note,
    Note.decode? (Note.exportedAt "a" "9999-12-31T23:59:59-01:00") = some m ∧
    Note.decode? (Note.exportedAt "b" "2024-01-01T00:00:00Z") = some n ∧
    n.created.compare m.created = .lt ∧
    (ofNote n).property? "created" = some (.string "2024-01-01T00:00:00.000Z") ∧
    (ofNote m).property? "created" = some (.string "+10000-01-01T00:59:59.000Z") ∧
    (Value.string "2024-01-01T00:00:00.000Z").naturalCompare
      (.string "+10000-01-01T00:59:59.000Z") = .gt ∧
    ((⟨.list, [], [], [], some ⟨"created", false⟩, none⟩ : Query).matched
      (Index.ofNotes (((∅ : Notebook).add m).add n).notes)).map (fun found => found.map Record.id) =
      some ["a", "b"] := by
  let noteAt (id : String) (seconds : Int) : Note :=
    ⟨id, "", "", "", [], ⟨seconds, 0⟩, ⟨seconds, 0⟩⟩
  have htext : (⟨1704067200, 0⟩ : Timestamp).millisText = "2024-01-01T00:00:00.000Z" ∧
      (⟨253402304399, 0⟩ : Timestamp).millisText = "+10000-01-01T00:59:59.000Z" := by
    decide +kernel
  have hname : ("created", created) ∈ timeProperties := by simp [timeProperties]
  refine ⟨noteAt "a" 253402304399, noteAt "b" 1704067200, ?_, ?_, by decide +kernel, ?_, ?_,
    by decide +kernel, by decide +kernel⟩
  · rw [Note.decode?, Json.parse?]
    simp only [Note.toList_exportedAt]
    decide +kernel
  · rw [Note.decode?, Json.parse?]
    simp only [Note.toList_exportedAt]
    decide +kernel
  · rw [← htext.1, property?_of_time hname, created_ofNote]
  · rw [← htext.2, property?_of_time hname, created_ofNote]

end Record

end NoteIndex
