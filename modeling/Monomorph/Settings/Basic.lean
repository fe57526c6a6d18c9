/-!
# Settings

The limits under which a program is analysed, and the size from which work is
worth sharing between workers. Sharing changes nothing about the result; only
the limits do.

## Main definitions

* `Settings`: The limits and the knobs of sharing.
* `Settings.Fault`: Why settings are refused.
* `Settings.validate`: Passes settings whose limits make sense.
* `Settings.shares`: Whether a batch is large enough to be shared.
-/

namespace Monomorph

/-- The limits of an analysis: how many hops an instance may be away from a
    seed, how deep type arguments may be nested and how many passes may be made;
    and whether and from which size on work is shared. -/
structure Settings where
  maxDepth : Nat := 64
  maxTypeNesting : Nat := 32
  maxPasses : Nat := 4
  parallel : Bool := true
  parallelThreshold : Nat := 64
deriving DecidableEq, Repr

namespace Settings

/-- The settings for work that is not shared. -/
def sequential : Settings :=
  { parallel := false }

/-- The deepest nesting of type arguments that any settings may allow. -/
def nestingCeiling : Nat := 256

/-- Why settings are refused: a limit out of bounds, or a variable of the
    environment that holds no number. -/
inductive Fault where
  | depthTooSmall
  | nestingTooSmall
  | nestingTooLarge
  | passesTooSmall
  | notNatural (key : String) (value : String)
deriving DecidableEq, Repr

/-- The wording of a fault. -/
def Fault.message : Fault → String
  | depthTooSmall => "max_depth must be at least 1"
  | nestingTooSmall => "max_type_nesting must be at least 1"
  | nestingTooLarge => s!"max_type_nesting must be at most {nestingCeiling}"
  | passesTooSmall => "max_passes must be at least 1"
  | notNatural key value => s!"{key} must be a non-negative integer, got `{value}`"

/-- The first limit that is out of bounds, if there is one. -/
def fault? (s : Settings) : Option Fault :=
  if s.maxDepth = 0 then some .depthTooSmall
  else if s.maxTypeNesting = 0 then some .nestingTooSmall
  else if nestingCeiling < s.maxTypeNesting then some .nestingTooLarge
  else if s.maxPasses = 0 then some .passesTooSmall
  else none

/-- Passes settings whose limits are within bounds. -/
def validate (s : Settings) : Except Fault Settings :=
  match s.fault? with
  | none => .ok s
  | some fault => .error fault

/-- Whether a batch of this size is shared between workers. A batch of nothing
    never is. -/
def shares (s : Settings) (size : Nat) : Bool :=
  s.parallel && decide (max s.parallelThreshold 1 ≤ size)

end Settings

end Monomorph
