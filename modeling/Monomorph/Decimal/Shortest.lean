import Monomorph.Decimal.Binary

/-!
# Shortest Decimals

The decimal by which a double-precision number is shown: the fewest digits
that still read back as the same number and, among those, the nearest to it.

Every real number between the midpoints to the two neighbours reads back as
the number itself, and the midpoints do so when its mantissa is even. On the
grid of decimals with a given count of digits only the two points around the
number need a look: if any point of the grid lies in that interval, one of
those two does.

## Main definitions

* `Shortest`: Digits and the power of ten of the last of them.
* `Binary.shortest`: The shortest decimal of a number.
* `Shortest.render`: Its text, positional or with an exponent.
-/

namespace Monomorph

namespace Decimal

/-- A decimal `digits * 10 ^ exponent`. -/
structure Shortest where
  digits : Nat
  exponent : Int
deriving DecidableEq

/-- How many decimal digits a number has, one for zero. -/
def digitCount (n : Nat) : Nat :=
  (Nat.toDigits 10 n).length

/-- The exponent of the leading decimal digit of `num / den`, for a quotient
    that is not zero. -/
def leadingExponent (num den : Nat) : Int :=
  if den ≤ num then (digitCount (num / den) : Int) - 1
  else -(digitCount ((den + num - 1) / num - 1) : Int)

/-- The numbers that read back as one double-precision number, in quarters of
    its last place: the number itself, the ends, and whether the ends belong. -/
structure Interval where
  low : Nat
  value : Nat
  high : Nat
  closed : Bool

/-- The numbers that read back as `x`. The neighbour below is nearer by half
    when `x` is a power of two, for the exponent changes there. -/
def Binary.interval (x : Binary) : Interval where
  low :=
    if x.mantissa = Nat.pow 2 52 ∧ Binary.minExponent < x.exponent then 4 * x.mantissa - 1
    else 4 * x.mantissa - 2
  value := 4 * x.mantissa
  high := 4 * x.mantissa + 2
  closed := x.mantissa % 2 = 0

/-- Whether `point` lies in the interval, both measured in the same unit, of
    which a quarter of the last place has `scale`. -/
def Interval.holds (interval : Interval) (scale point : Nat) : Bool :=
  if interval.closed then
    interval.low * scale ≤ point && point ≤ interval.high * scale
  else
    interval.low * scale < point && point < interval.high * scale

/-- The decimal with `count` digits that reads back as `x` and is nearest to
    it, if there is one. -/
def Binary.onGrid (x : Binary) (count : Nat) : Option Shortest :=
  let (num, den) := Binary.shiftDown x.mantissa 1 (-x.exponent)
  let exponent := leadingExponent num den - (count : Int) + 1
  -- One quarter of the last place is `2 ^ (x.exponent - 2)`, and one step of the
  -- grid is `10 ^ exponent`; both become natural numbers in a common unit.
  let (quarter, denominator) := Binary.shiftDown 1 4 (-x.exponent)
  let scale := quarter * (if exponent < 0 then Nat.pow 10 (-exponent).toNat else 1)
  let step := denominator * (if exponent < 0 then 1 else Nat.pow 10 exponent.toNat)
  let interval := x.interval
  let below := interval.value * scale / step
  let above := below + 1
  let belowHolds := interval.holds scale (below * step)
  let aboveHolds := interval.holds scale (above * step)
  let distanceBelow := interval.value * scale - below * step
  let distanceAbove := above * step - interval.value * scale
  if belowHolds && aboveHolds then
    if distanceBelow < distanceAbove ∨ (distanceBelow = distanceAbove ∧ below % 2 = 0)
    then some ⟨below, exponent⟩ else some ⟨above, exponent⟩
  else if belowHolds then some ⟨below, exponent⟩
  else if aboveHolds then some ⟨above, exponent⟩
  else none

/-- The shortest decimal that reads back as `x`. Seventeen digits are always
    enough, so the search ends with an answer. -/
def Binary.shortest (x : Binary) : Shortest :=
  if x.mantissa = 0 then ⟨0, 0⟩
  else ((List.range 17).findSome? fun n => x.onGrid (n + 1)).getD ⟨0, 0⟩

/-- How decimals are laid out: those whose leading digit has an exponent in the
    given range are positional with at least one digit after the point; all
    others have one digit before the point and a signed exponent. -/
structure Layout where
  least : Int
  greatest : Int

/-- Positional from `0.00001` up to, and without, `10 ^ 16`. -/
def Layout.standard : Layout := ⟨-5, 15⟩

/-- The digits without the zeros at their end, and how many those were. -/
def stripZeros (digits : List Char) : List Char × Nat :=
  let kept := (digits.reverse.dropWhile (· == '0')).reverse
  (kept, digits.length - kept.length)

/-- The text of a decimal under a layout. -/
def Shortest.render (layout : Layout) (d : Shortest) : String :=
  if d.digits = 0 then "0.0"
  else
    let (digits, zeros) := stripZeros (Nat.toDigits 10 d.digits)
    let exponent := d.exponent + (zeros : Int)
    let leading := exponent + (digits.length : Int) - 1
    if layout.least ≤ leading ∧ leading ≤ layout.greatest then
      if 0 ≤ exponent then
        String.ofList (digits ++ List.replicate exponent.toNat '0' ++ ['.', '0'])
      else if 0 ≤ leading then
        let whole := (leading + 1).toNat
        String.ofList (digits.take whole ++ '.' :: digits.drop whole)
      else
        String.ofList ('0' :: '.' :: List.replicate (-leading - 1).toNat '0' ++ digits)
    else
      let sign := if leading < 0 then '-' else '+'
      let fraction := if digits.length = 1 then [] else '.' :: digits.drop 1
      String.ofList
        (digits.take 1 ++ fraction ++ 'e' :: sign :: Nat.toDigits 10 leading.natAbs)

end Decimal

end Monomorph
