import NoteIndex.Note.Encoded
import NoteIndex.Proofs.Contents

/-!
# What a fingerprint says about a note

The bytes that are hashed tell title and text together with a zero character in between, and no
more. Which of several such characters is the one between them they cannot tell: a title may hold
one, and so may a text. Two notes with the same bytes have the same title and the same text just if
their titles have equally many zero characters, and then what they give to the maps of an index is
the same. That different bytes have different hashes is not claimed: it is asked of the two at hand.
-/

namespace NoteIndex

namespace Text

theorem toList_bytes_from (b : ByteArray) (i : Nat) (r : List UInt8) :
    ByteArray.toList.loop b i r = r.reverse ++ b.data.toList.drop i := by
  fun_induction ByteArray.toList.loop b i r with
  | case1 i r hi ih =>
    have hget : b.data.toList.drop i = b.get! i :: b.data.toList.drop (i + 1) := by
      rw [List.drop_eq_getElem_cons (by simpa using hi)]
      simp [ByteArray.get!, hi]
    rw [ih, hget, List.reverse_cons, List.append_assoc, List.singleton_append]
  | case2 i r hi => rw [List.drop_of_length_le (by simpa using hi), List.append_nil]

theorem toList_bytes (b : ByteArray) : b.toList = b.data.toList := toList_bytes_from b 0 []

theorem encodeUtf8_append (s t : String) : encodeUtf8 (s ++ t) = encodeUtf8 s ++ encodeUtf8 t := by
  simp [encodeUtf8, String.toUTF8, toList_bytes]

/-- No two texts have the same bytes. -/
theorem encodeUtf8_inj {s t : String} : encodeUtf8 s = encodeUtf8 t ↔ s = t := by
  rw [encodeUtf8, encodeUtf8, toList_bytes, toList_bytes, Array.toList_inj]
  refine ⟨fun h => String.toByteArray_inj.mp (ByteArray.ext h), fun h => by rw [h]⟩

/-- A text with as many `c` before one `c` as another has before one of its own is cut at the same
place. -/
theorem cut_inj {c : Char} {a a' b b' : List Char} (h : a ++ c :: b = a' ++ c :: b')
    (hcount : a.count c = a'.count c) : a = a' ∧ b = b' := by
  rcases List.append_eq_append_iff.mp h with ⟨d, rfl, hd⟩ | ⟨d, rfl, hd⟩
  · cases d with
    | nil => exact ⟨(List.append_nil a).symm, (List.cons.inj hd).2⟩
    | cons e d =>
      obtain ⟨rfl, -⟩ := List.cons.inj hd
      simp at hcount
  · cases d with
    | nil => exact ⟨List.append_nil a', (List.cons.inj hd).2.symm⟩
    | cons e d =>
      obtain ⟨rfl, -⟩ := List.cons.inj hd
      simp at hcount

end Text

/-! ## Notes with the same bytes -/

namespace Note

/-- The zero characters of the title, which each could be the one at its end. -/
def titleZeros (n : Note) : Nat := n.title.toList.count '\x00'

/-- Title and text as they are hashed. -/
def hashedText (n : Note) : List Char := n.title.toList ++ '\x00' :: n.text

theorem fingerprintBytes_eq (n : Note) :
    n.fingerprintBytes = Text.encodeUtf8 (String.ofList n.hashedText) := by
  have hzero : Text.encodeUtf8 (String.ofList ['\x00']) = [0] := by
    rw [Text.encodeUtf8, Text.toList_bytes]
    decide
  have htext : n.hashedText = n.title.toList ++ (['\x00'] ++ n.text) := rfl
  rw [htext, String.ofList_append, String.ofList_toList, String.ofList_append,
    Text.encodeUtf8_append, Text.encodeUtf8_append, hzero]
  rfl

variable {m n : Note}

theorem fingerprintBytes_inj :
    m.fingerprintBytes = n.fingerprintBytes ↔ m.hashedText = n.hashedText := by
  rw [fingerprintBytes_eq, fingerprintBytes_eq, Text.encodeUtf8_inj, String.ofList_inj]

theorem title_and_text_of_bytes (h : m.fingerprintBytes = n.fingerprintBytes)
    (hzeros : m.titleZeros = n.titleZeros) : m.title = n.title ∧ m.text = n.text := by
  obtain ⟨htitle, htext⟩ := Text.cut_inj (fingerprintBytes_inj.mp h) hzeros
  exact ⟨String.toList_inj.mp htitle, htext⟩

end Note

/-! ## What notes give to an index -/

namespace Notebook

theorem eq_of_mem_add {b : Notebook} {n p : Note} (h : p ∈ (b.add n).notes) (hid : p.id = n.id) :
    p = n := by
  have hfind := Keyed.find?_key h
  rw [Keyed.find?_add, if_pos hid] at hfind
  exact (Option.some.inj hfind).symm

theorem find?_of_mem_add {b : Notebook} {n p : Note} (h : p ∈ (b.add n).notes) (hid : p.id ≠ n.id) :
    b.find? p.id = some p := by
  have hfind := Keyed.find?_key h
  rwa [Keyed.find?_add, if_neg hid] at hfind

/-- Two notes under one identifier with the same title and text, in the same company. -/
theorem SameTexts.add (b : Notebook) {m n : Note} (hid : m.id = n.id) (htitle : m.title = n.title)
    (htext : m.text = n.text) : (b.add m).SameTexts (b.add n) := by
  -- a note that is in both is the one that was added, or the one that was there before
  have hsame {γ : Type} (f : Note → γ) (hf : f m = f n) : ∀ p ∈ (b.add m).notes,
      ∀ q ∈ (b.add n).notes, p.id = q.id → f p = f q := by
    intro p hp q hq hpq
    by_cases h : p.id = m.id
    · rw [eq_of_mem_add hp h, eq_of_mem_add hq (hpq ▸ h.trans hid), hf]
    · have hp := find?_of_mem_add hp h
      have hq := find?_of_mem_add hq fun h' => h (hpq.trans (h'.trans hid.symm))
      rw [← hpq, hp] at hq
      rw [Option.some.inj hq]
  refine ⟨fun id => ?_, hsame Note.title htitle, hsame Note.text htext⟩
  change id ∈ (b.add m).keys ↔ id ∈ (b.add n).keys
  rw [Table.mem_keys_iff, Table.mem_keys_iff, Keyed.find?_add, Keyed.find?_add, hid]
  split <;> simp

end Notebook

namespace Note

/-- Two notes are hashed from the same bytes just if title, zero character and text come to the
same. They then have the same title and the same text just if their titles have as many zero
characters; and if they have, and the two are no collision, notes with one fingerprint have one
title key, the same tags and the same link keys, and either is as good as the other to the maps of
an index. -/
theorem fingerprint_determines (m n : Note) :
    (m.fingerprintBytes = n.fingerprintBytes ↔
      m.title.toList ++ '\x00' :: m.text = n.title.toList ++ '\x00' :: n.text) ∧
    (m.fingerprintBytes = n.fingerprintBytes →
      ((m.title = n.title ∧ m.text = n.text) ↔ m.titleZeros = n.titleZeros)) ∧
    ((Sha256.hex m.fingerprintBytes = Sha256.hex n.fingerprintBytes →
        m.fingerprintBytes = n.fingerprintBytes) →
      m.fingerprint = n.fingerprint → m.titleZeros = n.titleZeros →
      (Record.ofNote m).titleKey = (Record.ofNote n).titleKey ∧
      (Record.ofNote m).tags = (Record.ofNote n).tags ∧
      (Record.ofNote m).linkKeys = (Record.ofNote n).linkKeys ∧
      ∀ b : Notebook, (Index.ofNotes (b.add m).notes).snapshot =
        (Index.ofNotes (b.add { n with id := m.id }).notes).snapshot) := by
  refine ⟨fingerprintBytes_inj, fun h => ⟨fun hsame => ?_, title_and_text_of_bytes h⟩,
    fun hcollide h hzeros => ?_⟩
  · rw [titleZeros, titleZeros, hsame.1]
  · obtain ⟨htitle, htext⟩ := title_and_text_of_bytes (hcollide h) hzeros
    refine ⟨Record.titleKey_ofNote_congr htitle, Record.tags_ofNote_congr htext,
      Record.linkKeys_ofNote_congr htext, fun b => ?_⟩
    have hsame : (b.add m).SameTexts (b.add { n with id := m.id }) := .add b rfl htitle htext
    exact (Index.InStep.ofNotes _).knows.snapshot_eq (Index.InStep.ofNotes _).knows hsame

/-- A note in one piece and one of another identifier in blocks, with zero characters in title and
text. -/
theorem fingerprint_determines_blocks :
    let m : Note := ⟨"a", "Al\x00pha", "inbox", "#x\x00\n[[B]]", [], ⟨0, 0⟩, ⟨0, 0⟩⟩
    let n : Note := ⟨"b", "Al\x00pha", "", "",
      [.plain "p" .text "#x\x00", .plain "q" .text "[[B]]"], ⟨7, 0⟩, ⟨7, 0⟩⟩
    m.fingerprintBytes = n.fingerprintBytes ∧ m.fingerprint = n.fingerprint ∧
      m.titleZeros = n.titleZeros ∧ (m.title = n.title ∧ m.text = n.text) ∧
      (Record.ofNote m).tags = (Record.ofNote n).tags ∧
      ∀ b : Notebook, (Index.ofNotes (b.add m).notes).snapshot =
        (Index.ofNotes (b.add { n with id := m.id }).notes).snapshot := by
  intro m n
  obtain ⟨hiff, hsame, hgive⟩ := fingerprint_determines m n
  have hbytes : m.fingerprintBytes = n.fingerprintBytes := hiff.mpr (by decide)
  have hprint : m.fingerprint = n.fingerprint := congrArg Sha256.hex hbytes
  have hzeros : m.titleZeros = n.titleZeros := by decide
  obtain ⟨-, htags, -, hsnapshot⟩ := hgive (fun _ => hbytes) hprint hzeros
  exact ⟨hbytes, hprint, hzeros, (hsame hbytes).mpr hzeros, htags, hsnapshot⟩

/-- A zero character at the end of a text and one in a title: the two notes of an export are hashed
from the same bytes, and only one of them has a tag. -/
theorem fingerprint_shared_past_zero : ∃ m n : Note,
    decode? "\x7b\"id\":\"a\",\"title\":\"t\\u0000#a\",\"content\":\"\",
      \"created\":\"2024-01-01T00:00:00Z\",\"modified\":\"2024-01-01T00:00:00Z\"\x7d" = some m ∧
    decode? "\x7b\"id\":\"a\",\"title\":\"t\",\"content\":\"#a\\u0000\",
      \"created\":\"2024-01-01T00:00:00Z\",\"modified\":\"2024-01-01T00:00:00Z\"\x7d" = some n ∧
    m.fingerprintBytes = n.fingerprintBytes ∧ m.fingerprint = n.fingerprint ∧
    m.title ≠ n.title ∧ m.text ≠ n.text ∧
    (Record.ofNote m).tags.toList = [] ∧ (Record.ofNote n).tags.toList = ["a"] := by
  let at2024 : Timestamp := ⟨1704067200, 0⟩
  let m : Note := ⟨"a", "t\x00#a", "", "", [], at2024, at2024⟩
  let n : Note := ⟨"a", "t", "", "#a\x00", [], at2024, at2024⟩
  have hbytes : m.fingerprintBytes = n.fingerprintBytes := fingerprintBytes_inj.mpr (by decide)
  refine ⟨m, n, ?_, ?_, hbytes, congrArg Sha256.hex hbytes, by decide, by decide, by decide,
    by decide⟩
  -- a literal is quickly read as the list of its characters
  · change decode? (String.ofList _) = some m
    rw [decode?, Json.parse?, String.toList_ofList]
    decide
  · change decode? (String.ofList _) = some n
    rw [decode?, Json.parse?, String.toList_ofList]
    decide

end Note

end NoteIndex
