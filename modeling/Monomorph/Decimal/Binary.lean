/-!
# Double-Precision Numbers

A number of a document that is no small integer is kept in double precision.
This module holds such numbers exactly, as a mantissa and a power of two, and
rounds a quotient of natural numbers to the nearest of them, so that what is
said about a number in a message does not hang on the arithmetic of a machine.

Only magnitudes are kept here. A sign is the business of whoever has one.

## Main definitions

* `Binary`: A double-precision magnitude, `mantissa * 2 ^ exponent`.
* `Binary.nearest`: The magnitude nearest to a quotient, a tie going to the
  even mantissa, or nothing if it is too large.
* `Binary.mul`, `Binary.div`: Product and quotient, rounded.
-/

namespace Monomorph

namespace Decimal

/-- A double-precision magnitude, `mantissa * 2 ^ exponent`. The mantissa has
    at most 53 bits, and 53 of them unless the exponent is the least one. -/
structure Binary where
  mantissa : Nat
  exponent : Int
deriving DecidableEq

/-- The quotient rounded to the nearest natural number, a tie going to the even
    neighbour. -/
def roundDiv (num den : Nat) : Nat :=
  let quotient := num / den
  let rest := 2 * (num % den)
  if rest < den then quotient
  else if den < rest then quotient + 1
  else if quotient % 2 = 0 then quotient
  else quotient + 1

namespace Binary

/-- The least exponent of a double-precision number. -/
def minExponent : Int := -1074

/-- The greatest exponent of a double-precision number. -/
def maxExponent : Int := 971

/-- Zero. -/
def zero : Binary := ⟨0, minExponent⟩

/-- The quotient divided by a power of two, again as a quotient. -/
def shiftDown (num den : Nat) (exponent : Int) : Nat × Nat :=
  if 0 ≤ exponent then (num, den * Nat.pow 2 exponent.toNat)
  else (num * Nat.pow 2 (-exponent).toNat, den)

/-- The exponent at which the quotient has a mantissa of 53 bits, or the least
    one. The logarithms settle it up to one, and the quotient at the guess
    settles the rest. -/
def exponentFor (num den : Nat) : Int :=
  let guess : Int := (Nat.log2 num : Int) - (Nat.log2 den : Int) - 52
  let (scaled, unit) := shiftDown num den guess
  max minExponent (if scaled / unit < Nat.pow 2 52 then guess - 1 else guess)

/-- The double-precision magnitude nearest to `num / den`, a tie going to the
    even mantissa, or nothing if the quotient lies beyond the greatest one. -/
def nearest (num den : Nat) : Option Binary :=
  if num = 0 then some zero
  else
    let exponent := exponentFor num den
    let (scaled, unit) := shiftDown num den exponent
    let rounded := roundDiv scaled unit
    -- Rounding up may carry into a 54th bit.
    let carried : Binary :=
      if rounded = Nat.pow 2 53 then ⟨Nat.pow 2 52, exponent + 1⟩ else ⟨rounded, exponent⟩
    if maxExponent < carried.exponent then none else some carried

/-- The value as a quotient of natural numbers. -/
def quotient (x : Binary) : Nat × Nat :=
  shiftDown x.mantissa 1 (-x.exponent)

/-- The product, rounded, or nothing if it is too large. -/
def mul (x y : Binary) : Option Binary :=
  nearest (x.quotient.1 * y.quotient.1) (x.quotient.2 * y.quotient.2)

/-- The quotient, rounded, or nothing if it is too large. -/
def div (x y : Binary) : Option Binary :=
  nearest (x.quotient.1 * y.quotient.2) (x.quotient.2 * y.quotient.1)

end Binary

end Decimal

end Monomorph
