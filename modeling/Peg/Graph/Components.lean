import Std.Data.TreeMap

/-!
# Strongly connected components

The components of a directed graph between names, by a depth-first walk. A component is given when
the walk leaves it, so that all it points to outside of itself was given before.
-/

namespace Peg

/-- The successors of each vertex; a vertex without an entry has none. -/
abbrev Graph := Std.TreeMap String (List String)

def Graph.successors (g : Graph) (v : String) : List String :=
  g.getD v []

/-- When a vertex was discovered, the earliest discovery known to be in reach of it, and whether it
is still without a component. -/
structure Mark where
  index : Nat
  low : Nat
  pending : Bool
  deriving DecidableEq

/-- A vertex that the walk is at or came through, and the successors it has not looked at. -/
structure Frame where
  vertex : String
  ahead : List String
  deriving DecidableEq

structure Walk where
  marks : Std.TreeMap String Mark
  /-- The vertices without a component, the last discovered first. -/
  pending : List String
  path : List Frame
  /-- The components so far, the last one first, each with the vertices in the order in which they
  were taken. -/
  found : List (List String)

namespace Walk

def init : Walk :=
  ⟨∅, [], [], []⟩

def discover (w : Walk) (g : Graph) (v : String) : Walk :=
  { w with
    marks := w.marks.insert v ⟨w.marks.size, w.marks.size, true⟩
    pending := v :: w.pending
    path := ⟨v, g.successors v⟩ :: w.path }

/-- The vertex `v` reaches one that was discovered as number `index`. -/
def lower (w : Walk) (v : String) (index : Nat) : Walk :=
  { w with marks := w.marks.modify v fun m => { m with low := min m.low index } }

/-- Takes vertices from the front up to `v`. Gives those that were taken, and the rest. -/
def takeThrough (v : String) : List String → List String × List String
  | [] => ([], [])
  | u :: us =>
    if u = v then ([u], us)
    else
      let (taken, rest) := takeThrough v us
      (u :: taken, rest)

/-- The pending vertices down to `v` are a component. -/
def close (w : Walk) (v : String) : Walk :=
  let (members, pending) := takeThrough v w.pending
  { w with
    marks := members.foldl (fun marks u => marks.modify u ({ · with pending := false })) w.marks
    pending
    found := members :: w.found }

/-- Looks at one edge of the vertex that the walk is at, or leaves it when there is none left. -/
def step (g : Graph) (w : Walk) : Walk :=
  match w.path with
  | [] => w
  | ⟨v, u :: ahead⟩ :: path =>
    let w := { w with path := ⟨v, ahead⟩ :: path }
    match w.marks[u]? with
    | none => w.discover g u
    | some m => if m.pending then w.lower v m.index else w
  | ⟨v, []⟩ :: path =>
    let w := { w with path }
    match w.marks[v]? with
    | none => w
    | some m =>
      let w := if m.low = m.index then w.close v else w
      match path with
      | [] => w
      | parent :: _ => w.lower parent.vertex m.low

/-- Takes steps until the walk is back where it started, at most `n`. -/
def run (g : Graph) : (n : Nat) → Walk → Walk
  | 0, w => w
  | n + 1, w => if w.path.isEmpty then w else run g n (w.step g)

end Walk

namespace Graph

/-- A walk looks at each edge once and leaves each vertex once. -/
def stepBound (g : Graph) : Nat :=
  2 * g.values.flatten.length + 1

/-- Walks from `root`, unless the walk has been there. -/
def walkFrom (g : Graph) (w : Walk) (root : String) : Walk :=
  if w.marks.contains root then w else (w.discover g root).run g g.stepBound

def walk (g : Graph) (roots : List String) : Walk :=
  roots.foldl g.walkFrom .init

/-- The components of all that can be reached from `roots`, dependencies first, each in the order of
names. -/
def components (g : Graph) (roots : List String) : List (List String) :=
  ((g.walk roots).found.map fun c => c.mergeSort).reverse

end Graph

end Peg
