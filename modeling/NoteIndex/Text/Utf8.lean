/-!
# UTF-8

Bytes as text. `decode` reads the longest well-formed beginning of a byte string; the number of
bytes it accounts for is where reading would fail.
-/

namespace NoteIndex.Text

/-- A continuation byte holds six bits. -/
def isTail (b : UInt8) : Bool := 0x80 ≤ b && b ≤ 0xBF

def tailBits (b : UInt8) : Nat := b.toNat % 64

/-- The first character and the number of bytes it takes. -/
def decodeOne? : List UInt8 → Option (Char × Nat)
  | [] => none
  | a :: r =>
    if a ≤ 0x7F then some (Char.ofNat a.toNat, 1)
    else if 0xC2 ≤ a && a ≤ 0xDF then
      match r with
      | b :: _ => if isTail b then some (Char.ofNat (a.toNat % 32 * 64 + tailBits b), 2) else none
      | _ => none
    else if 0xE0 ≤ a && a ≤ 0xEF then
      match r with
      | b :: c :: _ =>
        let n := (a.toNat % 16 * 64 + tailBits b) * 64 + tailBits c
        if isTail b && isTail c && 0x800 ≤ n && !(0xD800 ≤ n && n ≤ 0xDFFF) then
          some (Char.ofNat n, 3)
        else none
      | _ => none
    else if 0xF0 ≤ a && a ≤ 0xF4 then
      match r with
      | b :: c :: d :: _ =>
        let n := ((a.toNat % 8 * 64 + tailBits b) * 64 + tailBits c) * 64 + tailBits d
        if isTail b && isTail c && isTail d && 0x10000 ≤ n && n ≤ 0x10FFFF then
          some (Char.ofNat n, 4)
        else none
      | _ => none
    else none

/-- Reads characters, skipping the `skip` bytes that belong to the one read last. The second part
of the answer is the offset of the first malformed byte. -/
def decodeFrom (skip offset : Nat) : List UInt8 → List Char × Option Nat
  | [] => ([], none)
  | b :: r =>
    match skip with
    | k + 1 => decodeFrom k (offset + 1) r
    | 0 =>
      match decodeOne? (b :: r) with
      | none => ([], some offset)
      | some (c, n) =>
        let rest := decodeFrom (n - 1) (offset + 1) r
        (c :: rest.1, rest.2)

/-- The text, or the offset of the first malformed byte. -/
def decodeUtf8 (bytes : List UInt8) : Except Nat (List Char) :=
  match decodeFrom 0 0 bytes with
  | (cs, none) => .ok cs
  | (_, some offset) => .error offset

def encodeUtf8 (s : String) : List UInt8 := s.toUTF8.toList

end NoteIndex.Text
