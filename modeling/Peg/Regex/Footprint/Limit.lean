import Peg.Regex.Border
import Peg.Regex.Footprint.Sets
import Peg.Regex.Footprint.Texts

/-!
# The limit on the size of a regular expression

An expression stands for two automata that read bytes, one forwards and one backwards. It is refused
if one of them would take more than ten mebibytes.
-/

namespace Peg

namespace Re

/-- The bytes of a text, in the order in which they are read. -/
def bytesOf (backwards : Bool) (cs : List Char) : List Nat :=
  let bytes := cs.flatMap fun c => CharSet.encode c.toNat
  if backwards then bytes.reverse else bytes

/-- The texts, if there is nothing else. -/
def texts? (rs : List Re) : Option (List (List Char)) :=
  rs.mapM fun
    | text cs => some cs
    | _ => none

mutual

/-- Adds the states for an expression. Groups that capture need two of their own, but only
forwards. -/
def grow (backwards : Bool) : Re → Footprint → Footprint
  | empty, f | look _, f => f.addStates 1
  | text cs, f => f.addStates (bytesOf backwards cs).length
  | set s, f => f.addSet backwards s
  | rep 0 (some 1) _ r, f =>
    ((r.grow backwards (f.addStates 1)).addStates 1).addWays 2
  | rep 0 none _ r, f =>
    if r.minBytes.getD 0 = 0 then ((r.grow backwards f).addStates 3).addWays 4
    else (r.grow backwards (f.addStates 1)).addWays 2
  | rep (min + 1) none _ r, f =>
    ((f.addCopies (r.grow backwards) (min + 1)).addStates 1).addWays 2
  | rep min (some more) _ r, f =>
    let f := if min = 0 then f.addStates 1 else f.addCopies (r.grow backwards) min
    let orOn (f : Footprint) := r.grow backwards ((f.addStates 1).addWays 2)
    if more = 0 then f else (f.addStates 1).addCopies orOn more
  | group _ r, f =>
    if backwards then r.grow backwards f else (r.grow backwards (f.addStates 1)).addStates 1
  | seq rs, f => if backwards then growReversed rs f else growAll rs f
  | alt rs, f =>
    match texts? rs with
    | some ts => f.addTexts (ts.map (bytesOf backwards))
    | none => growBranches backwards 0 rs f

def growAll : List Re → Footprint → Footprint
  | [], f => f
  | r :: rs, f => growAll rs (r.grow false f)

def growReversed : List Re → Footprint → Footprint
  | [], f => f
  | r :: rs, f => r.grow true (growReversed rs f)

/-- The states where branches part and meet come behind the second branch. -/
def growBranches (backwards : Bool) : (n : Nat) → List Re → Footprint → Footprint
  | n, [], f => f.addWays n
  | n, r :: rs, f =>
    let f := r.grow backwards f
    growBranches backwards (n + 1) rs (if n = 1 then f.addStates 2 else f)

end

/-- The states with which a search looks for the beginning of a match, unless there is only one
place for it. -/
def lead (fixed : Bool) : Footprint :=
  if fixed then ⟨1, 0⟩ else ((Footprint.addStates 3 ⟨0, 0⟩).addEdges 1).addWays 2

/-- Forwards, the bounds of the match are recorded; in the last state there is a match. -/
def footprint (backwards : Bool) (r : Re) : Footprint :=
  if backwards then (r.grow true (lead (r.endsWith .textEnd))).addStates 1
  else (r.grow false ((lead (r.beginsWith .textStart)).addStates 1)).addStates 2

def fits (r : Re) : Bool :=
  !(r.footprint false).isOver && !(r.footprint true).isOver

end Re

end Peg
