import Peg.Regex.Pattern
import Peg.Text.Class

/-!
# The arena of expressions

An expression is known by its handle, its place in the arena in order of allocation. Composite
nodes refer to their parts by handle, so that two equal expressions built apart stay apart.
-/

namespace Peg

abbrev Handle := Nat

inductive Node
  | any
  | oneOf (chars : String)
  | noneOf (chars : String)
  | literal (text : String)
  | charRange (lo hi : Char)
  | charClass (cls : CharClass)
  | pattern (p : Pattern)
  | sequence (items : List Handle)
  | choice (items : List Handle)
  | zeroOrMore (item : Handle)
  | oneOrMore (item : Handle)
  | ahead (item : Handle)
  | notAhead (item : Handle)
  | rule (name : String)
  | aliasOf (target : Handle)
  | forward

namespace Node

def isForward : Node → Bool
  | forward => true
  | _ => false

@[simp] theorem isForward_iff {node : Node} : node.isForward ↔ node = forward := by
  cases node <;> simp [isForward]

end Node

/-- A node, and whether it took the place of a forward declaration. -/
structure Slot where
  node : Node
  promoted : Bool

structure Arena where
  slots : Array Slot

instance : EmptyCollection Arena := ⟨⟨#[]⟩⟩

/-- Why an expression cannot be built. -/
inductive GrammarError
  | rangeFirst
  | rangeLast
  | rangeOrder (lo hi : Char)
  | notForward (h : Handle)
  | alreadyImplemented (h : Handle)
  | badPattern (text : String)
  deriving DecidableEq, Repr

def GrammarError.message : GrammarError → String
  | rangeFirst => "range: first element of range must be a single character."
  | rangeLast => "range: last element of range must be a single character."
  | rangeOrder _ _ => "range: last must be less than or equal to first."
  | notForward h => s!"expression #{h} is not a forward declaration"
  | alreadyImplemented h => s!"forward declaration #{h} has already been implemented"
  | badPattern text => s!"invalid pattern: {text}"

namespace Arena

def size (a : Arena) : Nat :=
  a.slots.size

def node? (a : Arena) (h : Handle) : Option Node :=
  (a.slots[h]?).map (·.node)

def isForward (a : Arena) (h : Handle) : Bool :=
  (a.node? h).any Node.isForward

def push (a : Arena) (node : Node) : Handle × Arena :=
  (a.size, ⟨a.slots.push ⟨node, false⟩⟩)

/-! ## Promotion -/

/-- Puts `node` into the place of the forward declaration `fwd`, which keeps its handle. -/
def promote (a : Arena) (fwd : Handle) (node : Node) : Except GrammarError Arena :=
  match a.slots[fwd]? with
  | none => .error (.notForward fwd)
  | some slot =>
    if slot.promoted then .error (.alreadyImplemented fwd)
    else if slot.node.isForward then .ok ⟨a.slots.setIfInBounds fwd ⟨node, true⟩⟩
    else .error (.notForward fwd)

/-- What `fwd` becomes when it is to mean `e`: the content of `e`, or a reference to `e` as long
as that has no content itself. -/
def contentOf (a : Arena) (e : Handle) : Node :=
  match a.node? e with
  | none | some .forward => .aliasOf e
  | some node => node

def implement (a : Arena) (fwd e : Handle) : Except GrammarError Arena :=
  a.promote fwd (a.contentOf e)

/-- Like `implement`, but what is attached to `target` itself takes part in a match of `fwd`. -/
def makeAlias (a : Arena) (fwd target : Handle) : Except GrammarError Arena :=
  a.promote fwd (.aliasOf target)

end Arena

end Peg
