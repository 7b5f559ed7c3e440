/-!
# The size of an automaton

The automaton of an expression is never built: only its size is computed, from the number of its
states and the lengths of the lists of edges that some of them hold. States with the same edges are
made once, as long as they are remembered.
-/

namespace Peg

structure Footprint where
  states : Nat
  listBytes : Nat

namespace Footprint

def limit : Nat :=
  10 * (1 <<< 20)

def bytes (f : Footprint) : Nat :=
  32 * f.states + f.listBytes

def isOver (f : Footprint) : Bool :=
  f.bytes > limit

def addStates (n : Nat) (f : Footprint) : Footprint :=
  { f with states := f.states + n }

/-- Edges that take a byte. -/
def addEdges (n : Nat) (f : Footprint) : Footprint :=
  { f with listBytes := f.listBytes + 8 * n }

/-- Edges that take nothing. -/
def addWays (n : Nat) (f : Footprint) : Footprint :=
  { f with listBytes := f.listBytes + 4 * n }

/-- What `grow` adds, `n` times, but no more once the limit is passed. -/
def addCopies (grow : Footprint → Footprint) : Nat → Footprint → Footprint
  | 0, f => f
  | n + 1, f => if f.isOver then f else addCopies grow n (grow f)

/-! ## States that are shared

What has been made is remembered in a table of fixed size. Keys whose hash values fall on the same
place displace each other, so that a state can be made again. -/

/-- For each place the key that came last, and the state that was made for it. -/
abbrev Recent := Array (Option (List Nat × Nat))

def Recent.empty (places : Nat) : Recent :=
  Array.replicate places none

/-- The FNV-1a hash of the numbers of a key. -/
def hashKey (key : List Nat) : UInt64 :=
  key.foldl (fun h n => (h ^^^ n.toUInt64) * 1099511628211) 14695981039346656037

def Recent.place (m : Recent) (key : List Nat) : Nat :=
  (hashKey key).toNat % m.size

/-- An automaton in the making. -/
structure Growth where
  footprint : Footprint
  recent : Recent

/-- The state for `key`, which is made with a list of edges of the given length unless it is
remembered. -/
def Growth.state (key : List Nat) (edges : Nat) : Growth → Nat × Growth
  | ⟨f, recent⟩ =>
    let place := recent.place key
    let made := (recent[place]?.join.filter fun (k, _) => k = key).map (·.2)
    match made with
    | some id => (id, ⟨f, recent⟩)
    | none =>
      let f' := (f.addStates 1).addEdges edges
      (f.states, ⟨f', recent.setIfInBounds place (some (key, f.states))⟩)

end Footprint

end Peg
