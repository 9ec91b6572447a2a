/-!
# Rests

Whoever is told to rest does so for as long as it is told, but for thirty years
at most.  A deadline has no such limit.
-/

namespace Clearing

/-- The longest rest in milliseconds: thirty years of 365 days. -/
def longestRest : Nat := 946080000000

/-- How long a rest lasts that was meant to last some time. -/
def restMillis (asked : Nat) : Nat :=
  min asked longestRest

example : longestRest = 30 * 365 * 24 * 60 * 60 * 1000 := rfl

end Clearing
