import BuildFleet.Decimal.Binary64

/-!
# Decimal — the shortest text of a number

A number is written with the fewest digits that are nearer to it than to any other number of the
format; of several such decimals the nearest one is taken, and of two equally near the one whose
last digit is even.

The numbers that round to `m · 2 ^ e` form an interval around it, which holds its ends exactly if
`m` is even.  The search walks through ever finer decimal grids, and on each looks at the two
neighbours of the number alone: if a point of the grid is in the interval, so is one of these.
-/

namespace BuildFleet.Decimal

/-- The number `digits · 10 ^ exponent`. -/
structure Scientific where
  digits : Nat
  exponent : Int
  deriving DecidableEq

namespace Binary64

/-- What rounds to a number, in quarters of the unit `2 ^ e` of its last mantissa bit. -/
structure Interval where
  low : Nat
  value : Nat
  high : Nat
  closed : Bool

/-- Half a unit reaches to either side, but only a quarter below a power of two, where the numbers
get denser. -/
def interval (x : Binary64) : Interval where
  low := 4 * x.mantissa - (if x.mantissa = Nat.pow 2 52 ∧ minExponent < x.exponent then 1 else 2)
  value := 4 * x.mantissa
  high := 4 * x.mantissa + 2
  closed := x.mantissa % 2 == 0

/-- The multiple of `10 ^ k` to write the number as, if one rounds to it. -/
def onGrid? (x : Binary64) (k : Int) : Option Nat :=
  let i := x.interval
  let quarter := x.exponent - 2
  let unit := Nat.pow 2 quarter.toNat * Nat.pow 10 (-k).toNat
  let step := Nat.pow 2 (-quarter).toNat * Nat.pow 10 k.toNat
  let below := i.value * unit / step
  let inside (c : Nat) : Bool :=
    if i.closed then i.low * unit ≤ c * step && c * step ≤ i.high * unit
    else i.low * unit < c * step && c * step < i.high * unit
  match inside below, inside (below + 1) with
  | false, false => none
  | true, false => some below
  | false, true => some (below + 1)
  | true, true =>
    let down := i.value * unit - below * step
    let up := (below + 1) * step - i.value * unit
    some (if down < up || (down == up && below % 2 == 0) then below else below + 1)

/-- The first hit on the grids `10 ^ k`, `10 ^ (k - 1)`, and so on. -/
def searchGrids (x : Binary64) : Nat → Int → Scientific
  | 0, k => ⟨((x.onGrid? k).getD 0), k⟩
  | steps + 1, k =>
    match x.onGrid? k with
    | some c => ⟨c, k⟩
    | none => searchGrids x steps (k - 1)

/-- A power of ten above every number with this leading bit: 30103 / 100000 is just above the
decimal logarithm of two. -/
def topGrid (x : Binary64) : Int :=
  (x.exponent + x.mantissa.log2 + 1) * 30103 / 100000 + 1

/-- The shortest decimal that rounds to a positive number.  Seventeen digits are always enough,
and the search starts at most two grids above the first digit. -/
def shortest (x : Binary64) : Scientific :=
  x.searchGrids 20 x.topGrid

end Binary64

/-- The decimal digits without the zeros at their end. -/
def trimmed (digits : Nat) : List Char :=
  ((Nat.toDigits 10 digits).reverse.dropWhile (· == '0')).reverse

/-- A sign and the digits of an exponent. -/
def exponentText (e : Int) : List Char :=
  (if e < 0 then '-' else '+') :: Nat.toDigits 10 e.natAbs

/-- Digits with the point after the first `point` of them: written out, with at least one digit on
either side of the point, from `0.00001` up to sixteen digits before it, and with an exponent
otherwise. -/
def placePoint (digits : List Char) (point : Int) : List Char :=
  if 0 < point ∧ point ≤ 16 then
    let whole := digits.take point.toNat
    let zeros := List.replicate (point.toNat - digits.length) '0'
    let rest := digits.drop point.toNat
    whole ++ zeros ++ '.' :: (if rest.isEmpty then ['0'] else rest)
  else if -5 < point ∧ point ≤ 0 then
    '0' :: '.' :: List.replicate (-point).toNat '0' ++ digits
  else
    match digits with
    | [] => ['0']
    | d :: [] => d :: 'e' :: exponentText (point - 1)
    | d :: rest => d :: '.' :: rest ++ 'e' :: exponentText (point - 1)

/-- The text of a number, with a minus in front if it is negative. -/
def Binary64.text (negative : Bool) (x : Binary64) : String :=
  let sign := if negative then ['-'] else []
  if x.isZero then
    String.ofList (sign ++ ['0', '.', '0'])
  else
    let s := x.shortest
    let point := (Nat.toDigits 10 s.digits).length + s.exponent
    String.ofList (sign ++ placePoint (trimmed s.digits) point)

end BuildFleet.Decimal
