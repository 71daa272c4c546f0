/-!
# Doubles

A double is its 64 bits: a sign, eleven bits of exponent and fifty-two of fraction. A finite
double stands for `± m · 2^e`. Results are found exactly, as a quotient of natural numbers, and
then rounded to the nearest double, a tie going to the even neighbour; so nothing here rests on
the machine's own arithmetic.

A decimal text is read the quick way: as many of its leading digits as fit into 64 bits are
rounded to a double, which is then multiplied or divided by a power of ten, with one rounding
each.
-/

namespace DataClassGen

/-- A double, as its bits. -/
structure Binary64 where
  /-- The sign, the exponent and the fraction, from the highest bit down. -/
  bits : UInt64
  deriving DecidableEq, Repr, Inhabited

namespace Binary64

/-! ### Parts -/

/-- The sign bit is set. -/
def isNegative (x : Binary64) : Bool := x.bits.toNat / Nat.pow 2 63 == 1

/-- The eleven bits of the exponent. -/
def exponentField (x : Binary64) : Nat := x.bits.toNat / Nat.pow 2 52 % Nat.pow 2 11

/-- The fifty-two bits of the fraction. -/
def fraction (x : Binary64) : Nat := x.bits.toNat % Nat.pow 2 52

/-- Neither infinite nor not a number. -/
def isFinite (x : Binary64) : Bool := x.exponentField != 2047

/-- Not a number. -/
def isNaN (x : Binary64) : Bool := x.exponentField == 2047 && x.fraction != 0

/-- Zero, of either sign. -/
def isZero (x : Binary64) : Bool := x.exponentField == 0 && x.fraction == 0

/-- The natural number `m` of the magnitude `m · 2^e` of a finite double. -/
def mantissa (x : Binary64) : Nat :=
  if x.exponentField == 0 then x.fraction else Nat.pow 2 52 + x.fraction

/-- How far the exponent `e` of the magnitude `m · 2^e` is above the least one, `-1074`. -/
def scale (x : Binary64) : Nat := x.exponentField - 1

/-- The double with the other sign. -/
def negate (x : Binary64) : Binary64 := ⟨x.bits ^^^ 0x8000000000000000⟩

/-- The infinity above all doubles. -/
def infinity : Binary64 := ⟨0x7FF0000000000000⟩

/-- A double that is not a number. -/
def nan : Binary64 := ⟨0x7FF8000000000000⟩

/-! ### Rounding -/

/-- `num / den` rounded to a natural number, a tie going to the even one. -/
def roundQuotient (num den : Nat) : Nat :=
  let quotient := num / den
  let twice := 2 * (num % den)
  if twice < den then quotient
  else if den < twice then quotient + 1
  else quotient + quotient % 2

/-- The exponent of the greatest power of two that is at most `num / den`, plus 1074; zero if
that power is less than `2^-1074`. -/
def binaryOrder (num den : Nat) : Nat :=
  let guess := num.log2 + 1074 - den.log2
  if num * Nat.pow 2 1074 < den * Nat.pow 2 guess then guess - 1 else guess

/-- The double nearest to `num / den`; infinity if that is too great for a double. Bits count
up through the exponents, so a fraction rounded up to the next power of two carries over into
the exponent by itself. -/
def ofQuotient (num den : Nat) : Binary64 :=
  if num = 0 then ⟨0⟩
  else
    let shift := binaryOrder num den - 52
    let rounded := roundQuotient (num * Nat.pow 2 1074) (den * Nat.pow 2 shift)
    ⟨UInt64.ofNat (min (shift * Nat.pow 2 52 + rounded) infinity.bits.toNat)⟩

/-- The double nearest to a natural number. -/
def ofNat (n : Nat) : Binary64 := ofQuotient n 1

/-- The magnitude of a finite double as a multiple of `2^-1074`. -/
def units (x : Binary64) : Nat := x.mantissa * Nat.pow 2 x.scale

/-- The product of two magnitudes. -/
def product (x y : Binary64) : Binary64 := ofQuotient (x.units * y.units) (Nat.pow 2 2148)

/-- The quotient of two magnitudes, the second not zero. -/
def quotient (x y : Binary64) : Binary64 := ofQuotient x.units y.units

/-! ### Decimal texts -/

/-- `10^n` as a double. -/
def powerOfTen (n : Nat) : Binary64 := ofNat (Nat.pow 10 n)

/-- `x` divided by `10^n`, by at most `10^308` in one step. -/
def scaledDown (x : Binary64) (n : Nat) : Binary64 :=
  if n ≤ 308 then x.quotient (powerOfTen n)
  else if x.isZero then x
  else scaledDown (x.quotient (powerOfTen 308)) (n - 308)
termination_by n

/-- `significand · 10^exponent`; nothing if that is too great for a double. -/
def ofScientific? (significand : Nat) (exponent : Int) : Option Binary64 :=
  let x := ofNat significand
  match exponent with
  | .negSucc n => some (x.scaledDown (n + 1))
  | .ofNat n =>
    if x.isZero then some x
    else if n ≤ 308 then
      let y := x.product (powerOfTen n)
      if y.isFinite then some y else none
    else none

end Binary64

end DataClassGen
