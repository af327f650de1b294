/-!
# Decimal — double-precision magnitudes

The non-negative finite numbers of the 64-bit binary format, each as a mantissa below `2 ^ 53`
times a power of two, with exact arithmetic on natural numbers underneath: an operation computes
its exact quotient first and rounds it once, to the nearest number of the format and, halfway
between two, to the one with the even mantissa.

Powers are written `Nat.pow`, so that they are the same ones whichever other powers are in scope.
-/

namespace BuildFleet.Decimal

/-- The magnitude `mantissa · 2 ^ exponent`. -/
structure Binary64 where
  mantissa : Nat
  exponent : Int
  deriving DecidableEq

/-- The quotient rounded to the nearest integer, a half to the even neighbour. -/
def roundHalfEven (num den : Nat) : Nat :=
  let below := num / den
  let twice := 2 * (num % den)
  if den < twice || (twice == den && below % 2 == 1) then below + 1 else below

namespace Binary64

/-- The least exponent, that of the subnormal numbers. -/
def minExponent : Int := -1074

/-- The greatest exponent of a finite number. -/
def maxExponent : Int := 971

def zero : Binary64 := ⟨0, minExponent⟩

def isZero (x : Binary64) : Bool :=
  x.mantissa == 0

/-- `num / (den · 2 ^ e)` as a fraction of natural numbers. -/
def scaled (num den : Nat) (e : Int) : Nat × Nat :=
  (num * Nat.pow 2 (-e).toNat, den * Nat.pow 2 e.toNat)

/-- The exponent at which the quotient of two positive numbers has a mantissa of 53 bits, or the
least one if it is too small for that. -/
def exponentOf (num den : Nat) : Int :=
  let low := (num.log2 : Int) - den.log2 - 53
  let (n, d) := scaled num den low
  max minExponent (if n / d < Nat.pow 2 53 then low else low + 1)

/-- The number nearest to `num / den`, unless that is too large to be finite. -/
def nearest? (num den : Nat) : Option Binary64 :=
  if num = 0 then
    some zero
  else
    let e := exponentOf num den
    let (n, d) := scaled num den e
    let m := roundHalfEven n d
    let x : Binary64 := if m = Nat.pow 2 53 then ⟨Nat.pow 2 52, e + 1⟩ else ⟨m, e⟩
    if x.exponent ≤ maxExponent then some x else none

/-- The number as a fraction of natural numbers. -/
def fraction (x : Binary64) : Nat × Nat :=
  (x.mantissa * Nat.pow 2 x.exponent.toNat, Nat.pow 2 (-x.exponent).toNat)

/-- The rounded product, unless it is infinite. -/
def mul? (x y : Binary64) : Option Binary64 :=
  let (a, b) := x.fraction
  let (c, d) := y.fraction
  nearest? (a * c) (b * d)

/-- The rounded quotient by a positive number, unless it is infinite. -/
def div? (x y : Binary64) : Option Binary64 :=
  let (a, b) := x.fraction
  let (c, d) := y.fraction
  nearest? (a * d) (b * c)

/-- The number nearest to a power of ten. -/
def powerOfTen (n : Nat) : Binary64 :=
  (nearest? (Nat.pow 10 n) 1).getD zero

/-- `x · 10 ^ e`, computed with one multiplication or division by the power of ten if that power
is finite.  A smaller power is reached by dividing by `10 ^ 308` first, as often as needed; of a
larger one only zero has a multiple. -/
def timesPowerOfTen? (x : Binary64) (e : Int) : Option Binary64 :=
  if e.natAbs ≤ 308 then
    if 0 ≤ e then x.mul? (powerOfTen e.natAbs) else x.div? (powerOfTen e.natAbs)
  else if x.isZero then
    some x
  else if 0 ≤ e then
    none
  else
    (x.div? (powerOfTen 308)).bind (timesPowerOfTen? · (e + 308))
termination_by e.natAbs

end Binary64

end BuildFleet.Decimal
