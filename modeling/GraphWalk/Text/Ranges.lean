/-!
# Ranges of characters

Character classes of Unicode are given as lists of closed ranges of scalar values, in rising
order.
-/

namespace GraphWalk.Text

abbrev Ranges := List (Nat × Nat)

def Ranges.contain (ranges : Ranges) (c : Char) : Bool :=
  ranges.any fun r => r.1 ≤ c.toNat ∧ c.toNat ≤ r.2

end GraphWalk.Text
