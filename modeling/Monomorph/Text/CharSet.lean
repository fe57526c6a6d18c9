/-!
# Sets of Characters

A character class of a standard is a finite union of intervals of code points.
This module fixes how such a class is written down, one ascending list of
closed intervals, and how membership in it is decided, so that each class is a
table and nothing else.

## Main definitions

* `CharSet`: A class of characters as an ascending list of closed intervals.
* `CharSet.contains`: Membership of a character.
-/

namespace Monomorph

namespace Text

/-- A class of characters, given by closed intervals of code points in
    ascending order. -/
structure CharSet where
  ranges : List (Nat × Nat)

namespace CharSet

/-- Whether some interval of an ascending list holds the code point. The search
    stops at the first interval that starts beyond it. -/
def search (code : Nat) : List (Nat × Nat) → Bool
  | [] => false
  | (lo, hi) :: rest =>
    if code < lo then false
    else if code ≤ hi then true
    else search code rest

/-- Whether the character belongs to the class. -/
def contains (set : CharSet) (c : Char) : Bool :=
  search c.toNat set.ranges

end CharSet

end Text

end Monomorph
