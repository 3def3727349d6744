import NoteIndex.Note.Basic
import NoteIndex.Sha256
import NoteIndex.Text.Utf8

/-!
# Fingerprints

A note's fingerprint is the hash of its title and its text with a zero byte between them. The title
takes part because links find notes by it.
-/

namespace NoteIndex.Note

/-- The bytes that are hashed. -/
def fingerprintBytes (n : Note) : List UInt8 :=
  Text.encodeUtf8 n.title ++ 0 :: Text.encodeUtf8 (String.ofList n.text)

def fingerprint (n : Note) : String := Sha256.hex n.fingerprintBytes

end NoteIndex.Note
