import Peg.Regex.Border

/-!
# Programs for regular expressions

A regular expression becomes a list of instructions that refer to each other by position. What
follows an expression is put down before it, so that its position is known.
-/

namespace Peg

/-- Takes a character, checks a condition, tries two ways, or ends a match. -/
inductive Instr
  | step (s : CharSet) (next : Nat)
  | look (l : Look) (next : Nat)
  | split (preferred other : Nat)
  | done
  deriving DecidableEq

structure Program where
  code : Array Instr
  entry : Nat
  /-- Whether matches can only begin where the text does. -/
  anchored : Bool
  deriving DecidableEq

/-- The instructions put down so far, and where the last expression among them begins. -/
structure Fragment where
  code : Array Instr
  entry : Nat

namespace Fragment

def push : Fragment → Instr → Fragment
  | ⟨code, _⟩, i =>
    let entry := code.size
    ⟨code.push i, entry⟩

/-- Takes a member of `s` before `k`. -/
def take (s : CharSet) : Fragment → Fragment
  | ⟨code, next⟩ => push ⟨code, next⟩ (.step s next)

/-- Tries first what is preferred: to go on at `again`, if greedy. -/
def fork (greedy : Bool) (again stop : Nat) : Instr :=
  if greedy then .split again stop else .split stop again

/-- A loop before `k`: where it decides whether to go on, and where `body`, which leads back there,
begins. -/
def loop (greedy : Bool) (body : Fragment → Fragment) : Fragment → Nat × Fragment
  | ⟨code, stop⟩ =>
    let again := code.size
    let ⟨code, entry⟩ := body ⟨code.push .done, again⟩
    (again, ⟨code.setIfInBounds again (fork greedy entry stop), entry⟩)

/-- `body` once or more. -/
def plus (greedy : Bool) (body : Fragment → Fragment) (k : Fragment) : Fragment :=
  (loop greedy body k).2

/-- `body` any number of times. If it can match the empty text, the decision to begin is apart from
the decision to go on: otherwise the loop would be left too early. -/
def star (greedy mayBeEmpty : Bool) (body : Fragment → Fragment) : Fragment → Fragment
  | ⟨code, stop⟩ =>
    let (again, ⟨code, entry⟩) := loop greedy body ⟨code, stop⟩
    if mayBeEmpty then push ⟨code, entry⟩ (fork greedy entry stop) else ⟨code, again⟩

/-- `body` before `k`, or straight on at `stop`. -/
def optional (greedy : Bool) (body : Fragment → Fragment) (stop : Nat) (k : Fragment) : Fragment :=
  let ⟨code, entry⟩ := body k
  push ⟨code, entry⟩ (fork greedy entry stop)

end Fragment

namespace Re

mutual

/-- Puts down the expression before `k`. -/
def emit : Re → Fragment → Fragment
  | empty, k => k
  | text cs, k => cs.foldr (fun c k => k.take (.single c)) k
  | set s, k => k.take s
  | look l, ⟨code, next⟩ => .push ⟨code, next⟩ (.look l next)
  | rep min (some more) greedy r, ⟨code, next⟩ =>
    Nat.repeat r.emit min (Nat.repeat (.optional greedy r.emit next) more ⟨code, next⟩)
  | rep 0 none greedy r, k => .star greedy (r.minBytes.getD 0 == 0) r.emit k
  | rep (min + 1) none greedy r, k => Nat.repeat r.emit min (.plus greedy r.emit k)
  | group _ r, k => r.emit k
  | seq rs, k => emitAll rs k
  | alt rs, k => emitBranches rs k

def emitAll : List Re → Fragment → Fragment
  | [], k => k
  | [r], k => r.emit k
  | r :: rs, k => r.emit (emitAll rs k)

/-- Puts down branches that all go on where `k` begins. -/
def emitBranches : List Re → Fragment → Fragment
  | [], k => k.take []
  | [r], k => r.emit k
  | r :: rs, ⟨code, next⟩ =>
    let ⟨code, others⟩ := emitBranches rs ⟨code, next⟩
    let ⟨code, first⟩ := r.emit ⟨code, next⟩
    .push ⟨code, first⟩ (.split first others)

end

def program (r : Re) : Program :=
  let f := r.emit ⟨#[.done], 0⟩
  ⟨f.code, f.entry, r.beginsWith .textStart⟩

end Re

end Peg
