import Peg.Regex.Footprint.Basic

/-!
# The size of an automaton for a choice between texts

Texts share their beginnings, as far as that does not change which of them is preferred.
-/

namespace Peg.Footprint

/-- The groups of edges of a node, and the one that further edges go to. A text that ends at the
node closes a group, since it is preferred to what comes later. -/
inductive Trie
  | node (closed : List (List (Nat × Trie))) (current : List (Nat × Trie))

namespace Trie

def isLeaf : Trie → Bool
  | node closed current => closed.all (·.isEmpty) && current.isEmpty

def insert : List Nat → Trie → Trie
  | [], node closed current =>
    if (node closed current).isLeaf && !closed.isEmpty then node closed current
    else node (current :: closed) []
  | b :: bs, node closed current =>
    if current.any (·.1 == b) then
      node closed (current.map fun (c, t) => if c == b then (c, insert bs t) else (c, t))
    else node closed (current ++ [(b, insert bs (node [] []))])

def ofTexts (texts : List (List Nat)) : Trie :=
  texts.foldl (fun t bs => t.insert bs) (node [] [])

mutual

/-- A state leads to the groups and, between two of them, to the end. -/
def grow : Trie → Footprint → Footprint
  | node closed current, f =>
    if (node closed current).isLeaf then f
    else growGroup current (growGroups closed ((f.addStates 1).addWays closed.length))

def growGroups : List (List (Nat × Trie)) → Footprint → Footprint
  | [], f => f
  | edges :: groups, f => growGroups groups (growGroup edges f)

/-- A group is a state; a single edge needs no list. -/
def growGroup : List (Nat × Trie) → Footprint → Footprint
  | [], f => f
  | [(_, t)], f => t.grow ((f.addStates 1).addWays 1)
  | e :: edges, f =>
    growTargets (e :: edges) (((f.addStates 1).addWays 1).addEdges (edges.length + 1))

def growTargets : List (Nat × Trie) → Footprint → Footprint
  | [], f => f
  | (_, t) :: edges, f => growTargets edges (t.grow f)

end

end Trie

/-- The end is a state of its own. -/
def addTexts (texts : List (List Nat)) (f : Footprint) : Footprint :=
  (Trie.ofTexts texts).grow (f.addStates 1)

end Peg.Footprint
