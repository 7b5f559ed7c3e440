import Std.Data.TreeMap

/-!
# Lists of names

Sets of names are given as lists in the order of their characters, without repetitions.
-/

namespace Peg

/-- The names of a list in order, each one once. -/
def sortNames (names : List String) : List String :=
  (Std.TreeMap.unitOfList names compare).keys

theorem mem_sortNames {names : List String} {n : String} : n ∈ sortNames names ↔ n ∈ names := by
  simp [sortNames]

end Peg
