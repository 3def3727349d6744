import NoteIndex.Number.Basic

/-!
# Shortest decimal text

The decimal numbers that read back as a given number fill an interval around it: they lie within
half the distance to its neighbours, the ends included when its last binary digit is even. The
shortest of them lies on the coarsest grid of powers of ten that meets the interval; where two
points of that grid do, the nearer one is taken. `Tie` settles a draw.
-/

namespace NoteIndex.Number

/-- The decimal `digits · 10 ^ exponent`. -/
structure Decimal where
  digits : Nat
  exponent : Int
  deriving DecidableEq, Repr

inductive Tie where
  | up
  | toEven
  deriving DecidableEq, Repr

/-- The multiple of `10 ^ exponent` that reads back as `units`, if there is one. -/
def onGrid? (tie : Tie) (units : Nat) (exponent : Int) : Option Decimal :=
  let scale := Nat.pow 10 (-exponent).toNat
  let point := unitsPerOne * Nat.pow 10 exponent.toNat
  let step := spacing units
  let value := units * scale
  let below := value / point
  let under := value - below * point
  let above := (below + 1) * point - value
  let closed : Bool := units / step % 2 == 0
  let lowerHalf := if units = Nat.pow 2 52 * step ∧ 1 < step then step else 2 * step
  let reaches (gap half : Nat) : Bool :=
    if closed then 4 * gap ≤ half * scale else 4 * gap < half * scale
  let takeBelow := reaches under lowerHalf && below != 0
  let takeAbove := reaches above (2 * step)
  if takeBelow && takeAbove then
    if under < above then some ⟨below, exponent⟩
    else if above < under then some ⟨below + 1, exponent⟩
    else match tie with
      | .up => some ⟨below + 1, exponent⟩
      | .toEven => some ⟨if below % 2 = 0 then below else below + 1, exponent⟩
  else if takeBelow then some ⟨below, exponent⟩
  else if takeAbove then some ⟨below + 1, exponent⟩
  else none

/-- Tries grids from `10 ^ exponent` downwards. -/
def searchGrids (tie : Tie) (units : Nat) : Nat → Int → Decimal
  | 0, exponent => ⟨units, exponent⟩
  | fuel + 1, exponent =>
    match onGrid? tie units exponent with
    | some d => d
    | none => searchGrids tie units fuel (exponent - 1)

/-- Positive numbers lie between 10⁻³²⁴ and 10³⁰⁹. -/
def shortest (tie : Tie) (units : Nat) : Decimal :=
  if units = 0 then ⟨0, 0⟩ else searchGrids tie units 640 309

end NoteIndex.Number
