import DataClassGen.Numeric.Binary64

/-!
# Shortest decimal texts of doubles

The text of a finite double has the fewest digits that read back as that double and, of those,
the ones nearest to it. The reals that round to the double form an interval, whose ends belong
to it when the double's mantissa is even. On the grid of the multiples of `10^k` it is enough
to look at the two neighbours of the double: if any multiple of `10^k` lies in the interval,
one of them does. The coarsest grid with a hit gives the digits.

Digits are written positionally, however many zeros that takes.
-/

namespace DataClassGen

/-- A decimal: `digits · 10^place`. -/
structure DecimalForm where
  /-- The digits, read as a natural number. -/
  digits : Nat
  /-- The place of the last digit. -/
  place : Int
  deriving DecidableEq, Repr

/-- The decimal digits of a natural number. -/
def decimalDigits (n : Nat) : List Char := Nat.toDigits 10 n

/-- A decimal written positionally, without a point if it is whole. -/
def DecimalForm.positional (d : DecimalForm) : String :=
  match d.place with
  | .ofNat n => String.ofList (decimalDigits (d.digits * Nat.pow 10 n))
  | .negSucc n =>
    let digits := decimalDigits d.digits
    let padded := List.replicate (n + 2 - digits.length) '0' ++ digits
    let whole := padded.length - (n + 1)
    String.ofList (padded.take whole ++ '.' :: padded.drop whole)

namespace Binary64

/-! ### The fewest digits -/

/-- Twice, and for a boundary four times, the magnitude and the two ends of its interval, in
units of `2^-1074`: `(below, value, above)`, all three times four. -/
def interval (x : Binary64) : Nat × Nat × Nat :=
  let unit := Nat.pow 2 x.scale
  let value := 4 * x.units
  let gap := if x.fraction == 0 && 1 < x.exponentField then unit else 2 * unit
  (value - gap, value, value + 2 * unit)

/-- The nearest multiple of `step / den` in the interval of `x`, as the multiple's count. -/
def multipleNear? (x : Binary64) (step den : Nat) : Option Nat :=
  let (below, value, above) := x.interval
  let inside (count : Nat) : Bool :=
    if x.mantissa % 2 == 0 then below * den ≤ count * step && count * step ≤ above * den
    else below * den < count * step && count * step < above * den
  let low := value * den / step
  let distanceLow := value * den - low * step
  let distanceHigh := (low + 1) * step - value * den
  match inside low && low != 0, inside (low + 1) with
  | true, true => if distanceLow < distanceHigh then some low else some (low + 1)
  | true, false => some low
  | false, true => some (low + 1)
  | false, false => none

/-- The size of the grid of the multiples of `10^place`, in the units of `interval`. -/
def gridStep (place : Int) : Nat × Nat :=
  match place with
  | .ofNat n => (4 * Nat.pow 2 1074 * Nat.pow 10 n, 1)
  | .negSucc n => (4 * Nat.pow 2 1074, Nat.pow 10 (n + 1))

/-- The first hit on the grids from `place` downwards, `attempts` of them at most. -/
def firstHit (x : Binary64) : Nat → Int → DecimalForm
  | 0, place => ⟨0, place⟩
  | attempts + 1, place =>
    let (step, den) := gridStep place
    match x.multipleNear? step den with
    | some digits => ⟨digits, place⟩
    | none => firstHit x attempts (place - 1)

/-- The fewest digits that read back as the magnitude of `x`. The search starts above every
double and ends below the least. -/
def shortest (x : Binary64) : DecimalForm :=
  if x.isZero then ⟨0, 0⟩ else x.firstHit 640 309

/-! ### The text -/

/-- The text of a finite double: a sign if it is negative, zero included, and its shortest
digits. -/
def text (x : Binary64) : String :=
  (if x.isNegative then "-" else "") ++ x.shortest.positional

/-- The text of a finite double, with `.0` after a whole number. -/
def textWithPoint (x : Binary64) : String :=
  match x.shortest.place with
  | .ofNat _ => x.text ++ ".0"
  | .negSucc _ => x.text

end Binary64

end DataClassGen
