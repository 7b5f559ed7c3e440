import Peg.Bnf.Basic

/-!
# Reductions

While a rule is read, finished parts wait on a stack until what they are part of is complete.
-/

namespace Peg.Bnf

inductive Item
  | body (b : Body)
  | definition (name : String) (d : Definition)
  deriving DecidableEq

inductive ReductionFault
  | emptyStack
  | unexpectedDefinition
  | noName
  deriving DecidableEq, Repr

def ReductionFault.message : ReductionFault → String
  | emptyStack => "no nodes on the stack"
  | unexpectedDefinition => "unexpected definition on the stack"
  | noName => "rule does not start with a name"

/-- The stack with its top first, the mode of the rule, and the first fault. -/
structure Reductions where
  stack : List Item
  mode : Mode
  fault : Option ReductionFault
  deriving DecidableEq

namespace Reductions

def init : Reductions :=
  ⟨[], .loose, none⟩

def push (st : Reductions) (b : Body) : Reductions :=
  { st with stack := .body b :: st.stack }

def fail (st : Reductions) (fault : ReductionFault) : Reductions :=
  { st with fault := st.fault.or (some fault) }

def pop (st : Reductions) : Option Body × Reductions :=
  match st.stack with
  | .body b :: stack => (some b, { st with stack })
  | .definition .. :: _ => (none, st.fail .unexpectedDefinition)
  | [] => (none, st.fail .emptyStack)

/-- The two topmost bodies, the older one first. -/
def popTwo (st : Reductions) : Option (Body × Body) × Reductions :=
  let (newer, st) := st.pop
  let (older, st) := st.pop
  match older, newer with
  | some older, some newer => (some (older, newer), st)
  | _, _ => (none, st)

def wrap (st : Reductions) (f : Body → Body) : Reductions :=
  match st.pop with
  | (some b, st) => st.push (f b)
  | (none, st) => st

/-- Adds a member to a sequence, or begins one. -/
def conjoin : Body → Body → Body
  | .conj bs, b => .conj (bs ++ [b])
  | a, b => .conj [a, b]

/-- Adds a member to a list of alternatives, or begins one. -/
def disjoin : Body → Body → Body
  | .disj bs, b => .disj (bs ++ [b])
  | a, b => .disj [a, b]

def join (st : Reductions) (f : Body → Body → Body) : Reductions :=
  match st.popTwo with
  | (some (older, newer), st) => st.push (f older newer)
  | (none, st) => st

def define (st : Reductions) : Reductions :=
  match st.popTwo with
  | (some (.name n, body), st) =>
    { st with stack := .definition n ⟨body, st.mode⟩ :: st.stack }
  | (some _, st) => st.fail .noName
  | (none, st) => st

end Reductions

end Peg.Bnf
