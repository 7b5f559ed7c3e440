import Peg.Regex.ByteRanges
import Peg.Regex.Footprint.Basic

/-!
# The size of an automaton for a set of characters

Forwards, the sequences of byte ranges share what they begin with, and all states with the same
edges are one. Backwards, they share what leads to the end.
-/

namespace Peg.Footprint

/-- A state that may still get edges: those it has, the last one first, with the states they lead
to, and the bytes of one whose target is still open. -/
structure OpenState where
  edges : List (List Nat)
  last : Option (Nat × Nat)

/-- The open edge leads to `target`. -/
def OpenState.close (target : Nat) (n : OpenState) : OpenState :=
  match n.last with
  | some (lo, hi) => ⟨[lo, hi, target] :: n.edges, none⟩
  | none => n

/-- The first state of a path that leads to `target`, when no more edges are to come. -/
def closePath (target : Nat) : List OpenState → Growth → Nat × Growth
  | [], g => (target, g)
  | n :: ns, g =>
    let (next, g) := closePath target ns g
    let n := n.close next
    g.state n.edges.reverse.flatten n.edges.length

/-- Adds a sequence to those before it, the last of which is the path. What the two begin with in
common stays open, and the rest of the path is closed. -/
def addSequence (target : Nat) :
    List OpenState → List (Nat × Nat) → Growth → List OpenState × Growth
  | n :: ns, r :: rs, g =>
    if n.last = some r then
      let (ns, g) := addSequence target ns rs g
      (n :: ns, g)
    else
      let (next, g) := closePath target ns g
      ({ n.close next with last := some r } :: rs.map (⟨[], some ·⟩), g)
  | ns, _, g => (ns, g)

/-- The sequences come in order, so that a state which is closed gets no more edges. -/
def addSetForwards (s : CharSet) (f : Footprint) : Footprint :=
  let target := f.states
  let (path, g) := s.byteRanges.foldl
    (fun (path, g) seq => addSequence target path seq g)
    ([⟨[], none⟩], (⟨f.addStates 1, .empty 10000⟩ : Growth))
  (closePath target path g).2.footprint

/-- Every sequence is a way from the first state. -/
def addSetBackwards (s : CharSet) (f : Footprint) : Footprint :=
  let target := f.states + 1
  let g := s.byteRanges.foldl
    (fun g seq =>
      let (_, g) := seq.foldl (fun (next, g) (lo, hi) => g.state [next, lo, hi] 0) (target, g)
      { g with footprint := g.footprint.addWays 1 })
    (⟨f.addStates 2, .empty 1000⟩ : Growth)
  g.footprint

/-- The characters of ASCII need one state with a list of edges, and one that they lead to. -/
def addSet (backwards : Bool) (s : CharSet) (f : Footprint) : Footprint :=
  if f.isOver then f
  else if s.all fun (_, hi) => hi ≤ 0x7F then (f.addStates 2).addEdges s.length
  else if backwards then f.addSetBackwards s
  else f.addSetForwards s

end Peg.Footprint
