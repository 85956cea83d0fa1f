/-!
# Sets of characters

A large class of characters is kept as the increasing list of code points at which membership
changes: the class holds a character when an odd number of changes lie at or below it. A position
is found by bisection.
-/

namespace FormatFuzz.Text

/-- A set of characters, as the code points where membership changes, in increasing order. -/
structure CharSet where
  flips : Array Nat

namespace CharSet

/-- How many entries of a sorted array, of those from `low` to `high`, are at most `n`, added to
`low`. -/
def rank (entries : Array Nat) (n low high : Nat) : Nat :=
  if h : low < high then
    let mid := (low + high) / 2
    if entries.getD mid 0 ≤ n then rank entries n (mid + 1) high else rank entries n low mid
  else low
termination_by high - low
decreasing_by all_goals omega

def contains (s : CharSet) (c : Char) : Bool := rank s.flips c.toNat 0 s.flips.size % 2 = 1

end CharSet

end FormatFuzz.Text
