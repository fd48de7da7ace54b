/-!
# Powers of two and of ten

The bounds of machine numbers are powers of two, and decimal places are powers of ten.
-/

namespace ThroughputPlot

def powerOfTwo (n : Nat) : Nat := Nat.pow 2 n

def powerOfTen (n : Nat) : Nat := Nat.pow 10 n

end ThroughputPlot
