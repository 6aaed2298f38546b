/-!
# Sets of code points as ranges

A character property is carried as a list of closed ranges of code points, ascending and apart. The tables
themselves stand in modules named for their property.
-/

namespace BundleServer.Text

/-- Closed ranges of code points. -/
abbrev Ranges := List (Nat × Nat)

/-- Does the code point of `c` lie in one of the ranges? -/
def Ranges.contains (ranges : Ranges) (c : Char) : Bool :=
  ranges.any fun (low, high) => low ≤ c.toNat && c.toNat ≤ high

end BundleServer.Text
