/-!
# Ranges of characters

A property of characters is a list of inclusive ranges of code points.
-/

namespace Peg

abbrev Ranges := List (Nat × Nat)

def Ranges.contains (ranges : Ranges) (c : Char) : Bool :=
  ranges.any fun (lo, hi) => lo ≤ c.toNat && c.toNat ≤ hi

end Peg
