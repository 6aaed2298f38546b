import BundleServer.Decimal.Binary64

/-!
# The shortest decimal that reads back

A double is written with the fewest significant digits that still lie in the interval of numbers rounding to
it; among decimals of that length the nearest is taken, and a tie goes to the even last digit. The search is
exact: a size of `n` steps is `n * 5 ^ 1074` units of 10^-1074, so every decimal in question is a whole number of
these units.

The layout is a separate decision: positional from 10^-5 up to below 10^16, with `.0` behind whole numbers,
else one digit in front of the point and a signed exponent.
-/

namespace BundleServer.Decimal

/-- The sizes in units of 10^-1074 between which a double's size is the nearest one, with the size itself. All
three are multiplied by four, since the ends lie at halves and quarters of a step. -/
structure Interval where
  low : Nat
  middle : Nat
  high : Nat
  /-- Do the ends round to this double too? -/
  closed : Bool
  deriving DecidableEq, Repr

/-- The interval of a size. Below a power of two the doubles lie twice as dense, so there the lower half is
narrower. -/
def Interval.ofSteps (steps : Nat) : Interval :=
  let shift := Binary64.excess steps
  let mantissa := steps / Nat.pow 2 shift
  let quarter := Nat.pow 2 shift * Nat.pow 5 1074
  let narrow := mantissa = Nat.pow 2 52 ∧ 0 < shift
  let middle := 4 * (steps * Nat.pow 5 1074)
  ⟨middle - (if narrow then quarter else 2 * quarter), middle, middle + 2 * quarter, mantissa % 2 = 0⟩

/-- Does a number of units, times four, lie in the interval? -/
def Interval.contains (interval : Interval) (x : Nat) : Bool :=
  if interval.closed then interval.low ≤ x && x ≤ interval.high
  else interval.low < x && x < interval.high

/-- The multiple of `grid` units that lies in the interval and is nearest to its middle, ties to even, given by
its factor. Only the two neighbours of the middle can be it. -/
def Interval.nearest? (interval : Interval) (grid : Nat) : Option Nat :=
  let below := interval.middle / (4 * grid)
  let above := below + 1
  let short := interval.middle - 4 * grid * below
  let beyond := 4 * grid * above - interval.middle
  match interval.contains (4 * grid * below), interval.contains (4 * grid * above) with
  | false, false => none
  | true, false => some below
  | false, true => some above
  | true, true =>
    if short < beyond then some below
    else if beyond < short then some above
    else if below % 2 = 0 then some below else some above

/-- Significant digits, and where the point stands: so many places behind the first digit's front. -/
structure Digits where
  digits : List Char
  point : Int
  deriving DecidableEq, Repr

/-- The digits of `factor` times 10^`zeros` units of 10^-1074, without zeros at the end. -/
def Digits.ofUnits (factor zeros : Nat) : Digits :=
  let all := Nat.toDigits 10 factor
  ⟨(all.reverse.dropWhile (· = '0')).reverse, (all.length + zeros : Int) - 1074⟩

/-- The shortest digits of a size other than zero. Seventeen digits always suffice. -/
def shortest (steps : Nat) : Digits :=
  let interval := Interval.ofSteps steps
  let length := (Nat.toDigits 10 (interval.middle / 4)).length
  let attempt (count : Nat) : Option Digits :=
    (interval.nearest? (Nat.pow 10 (length - count))).map fun factor => .ofUnits factor (length - count)
  ((List.range 17).findSome? fun i => attempt (i + 1)).getD (.ofUnits (interval.middle / 4) 0)

/-- Sizes whose point stands within these places are written positionally. -/
def isPositional (point : Int) : Bool := -5 < point && point ≤ 16

/-- A row of zeros. -/
def zeros (count : Int) : List Char := List.replicate count.toNat '0'

/-- The digits with the point, or with an exponent. -/
def Digits.layout (d : Digits) : List Char :=
  if isPositional d.point then
    if d.point ≤ 0 then '0' :: '.' :: zeros (-d.point) ++ d.digits
    else if d.digits.length ≤ d.point then d.digits ++ zeros (d.point - d.digits.length) ++ ['.', '0']
    else d.digits.take d.point.toNat ++ '.' :: d.digits.drop d.point.toNat
  else
    let exponent := d.point - 1
    let fraction := match d.digits.drop 1 with
      | [] => []
      | rest => '.' :: rest
    d.digits.take 1 ++ fraction ++
      'e' :: (if exponent < 0 then '-' else '+') :: Nat.toDigits 10 exponent.natAbs

/-- A double as text. -/
def write (x : Binary64) : List Char :=
  let size := if x.steps = 0 then ['0', '.', '0'] else (shortest x.steps).layout
  if x.negative then '-' :: size else size

end BundleServer.Decimal
