import Peg.Builtin
import Peg.Proofs.Arena.Slots

/-!
# The arena with the builtin rules

The builtin rules are built behind all that the arena holds before.
-/

namespace Peg.Builtin

open Building

def names : List String :=
  ["Dot", "EOI", "WHITESPACE", "XID_IDENTIFIER"]

def nodes (n : Nat) : List Node :=
  [.any, .any, .notAhead (n + 1), .charClass .whiteSpace, .zeroOrMore (n + 3),
    .charClass .xidStart, .oneOf "_", .charClass .xidContinue, .choice [n + 5, n + 6],
    .zeroOrMore (n + 7), .sequence [n + 8, n + 9]]

theorem forward_notMem_nodes (n : Nat) : Node.forward ∉ nodes n := by
  simp [nodes]

theorem init_eq (a : Arena) : init a = (.ofList [("Dot", a.size), ("EOI", a.size + 2),
    ("WHITESPACE", a.size + 4), ("XID_IDENTIFIER", a.size + 10)], a.pushAll (nodes a.size)) := by
  simp only [init, any, charClass, oneOf, Building.star, notAhead, seq, choice, alloc, bind, StateT.bind,
    nodes, Arena.pushAll, Arena.push, Arena.size, Array.size_push]
  rfl

theorem mem_init {a : Arena} {n : String} : n ∈ (init a).1 ↔ n ∈ names := by
  rw [init_eq, Std.TreeMap.mem_ofList, List.contains_iff_mem]
  rfl

theorem slot_init {a : Arena} {i : Handle} (hi : i < a.size) :
    (init a).2.slots[i]? = a.slots[i]? := by
  rw [init_eq]
  exact Arena.slot_pushAll hi

theorem size_init (a : Arena) : (init a).2.size = a.size + 11 := by
  rw [init_eq]
  exact Arena.size_pushAll a _

theorem node?_init (a : Arena) (i : Nat) : (init a).2.node? (a.size + i) = (nodes a.size)[i]? := by
  rw [init_eq]
  exact a.node?_pushAll _ i

end Peg.Builtin
