import NoteIndex.Number.Shortest

/-!
# Numbers as text

Two ways to write a number. Plain text never has an exponent; JSON text has one outside a middle
range of sizes. Both write integers below 10¹⁵ in size without a point, and otherwise the shortest
decimal that reads back; a draw between two of these goes up in plain text, to the even one in JSON.
-/

namespace NoteIndex.Number

def zeros (n : Nat) : String := String.ofList (List.replicate n '0')

def sign (negative : Bool) : String := if negative then "-" else ""

/-- A decimal written out in full. -/
def Decimal.positional (d : Decimal) : String :=
  let ds := Nat.repr d.digits
  let places := (-d.exponent).toNat
  if places = 0 then ds ++ zeros d.exponent.toNat
  else if places < ds.length then
    String.ofList (ds.toList.take (ds.length - places)) ++ "." ++
      String.ofList (ds.toList.drop (ds.length - places))
  else "0." ++ zeros (places - ds.length) ++ ds

/-- One digit before the point, and the power of ten with its sign after `e`. -/
def Decimal.scientific (d : Decimal) : String :=
  let ds := Nat.repr d.digits
  let power := d.exponent + ds.length - 1
  let rest := String.ofList (ds.toList.drop 1)
  String.ofList (ds.toList.take 1) ++ (if rest.isEmpty then "" else "." ++ rest) ++
    (if 0 ≤ power then "e+" else "e") ++ Int.repr power

def plainText (n : Number) : String :=
  match n.asShortInteger? with
  | some i => Int.repr i
  | none =>
    match n with
    | .finite negative units => sign negative ++ (shortest .up units).positional
    | .infinite negative => sign negative ++ "inf"
    | .notANumber => "NaN"

/-- JSON keeps positional notation for decimals whose point falls within `-5 < point ≤ 16`. -/
def jsonDecimal (d : Decimal) : String :=
  let point := d.exponent + (Nat.repr d.digits).length
  if 0 ≤ d.exponent ∧ point ≤ 16 then d.positional ++ ".0"
  else if -5 < point ∧ point ≤ 16 then d.positional
  else d.scientific

def jsonText (n : Number) : String :=
  match n.asShortInteger? with
  | some i => Int.repr i
  | none =>
    match n with
    | .finite negative units => sign negative ++ jsonDecimal (shortest .toEven units)
    | .infinite _ => "null"
    | .notANumber => "null"

end NoteIndex.Number
