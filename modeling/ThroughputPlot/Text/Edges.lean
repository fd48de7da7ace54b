/-!
# Sets of characters by their edges

A set of characters is given by the code points, in increasing order, at which it begins
and ends in turn.  A character lies in the set when an odd number of edges does not lie
after it.
-/

namespace ThroughputPlot.Text

/-- Whether a character lies in the set with the given edges. -/
def liesWithin (edges : List Nat) (c : Char) : Bool :=
  (edges.takeWhile (· ≤ c.toNat)).length % 2 = 1

end ThroughputPlot.Text
