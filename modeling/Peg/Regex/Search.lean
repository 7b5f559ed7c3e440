import Peg.Regex.Program

/-!
# Searching with a program

A search runs all ways to match at once, in order of preference, one character after the other.
-/

namespace Peg

/-- One way to match so far: where it stands in the program, and where in the text it began. -/
structure Thread where
  pc : Nat
  start : Nat
  deriving DecidableEq

/-- The ways to match at one position, the least preferred first. The instructions that were visited
on the way bear the number of the round. -/
structure Wave where
  threads : List Thread
  seen : Array Nat
  round : Nat

def Wave.start (p : Program) : Wave :=
  ⟨[], Array.replicate p.code.size 0, 1⟩

def Wave.next : Wave → Wave
  | ⟨_, seen, round⟩ => ⟨[], seen, round + 1⟩

namespace Program

/-- Adds the ways to go on from the instructions `pcs`, the preferred ones first, that none before
has taken. `n` bounds the number of steps. -/
def follow (p : Program) (before after : Option Char) (start : Nat) :
    (n : Nat) → List Nat → Wave → Wave
  | 0, _, w => w
  | _, [], w => w
  | n + 1, pc :: pcs, ⟨threads, seen, round⟩ =>
    if seen.getD pc 0 = round then follow p before after start n pcs ⟨threads, seen, round⟩
    else
      let seen := seen.setIfInBounds pc round
      match p.code[pc]? with
      | none => follow p before after start n pcs ⟨threads, seen, round⟩
      | some (.look l next) =>
        let pcs := if l.holds before after then next :: pcs else pcs
        follow p before after start n pcs ⟨threads, seen, round⟩
      | some (.split preferred other) =>
        follow p before after start n (preferred :: other :: pcs) ⟨threads, seen, round⟩
      | some (.step ..) | some .done =>
        follow p before after start n pcs ⟨⟨pc, start⟩ :: threads, seen, round⟩

/-- Every instruction is visited once and leads to two others at most. -/
def enter (p : Program) (before after : Option Char) (start pc : Nat) (w : Wave) : Wave :=
  p.follow before after start (2 * p.code.size + 1) [pc] w

def isDone (p : Program) (t : Thread) : Bool :=
  match p.code[t.pc]? with
  | some .done => true
  | _ => false

/-- Takes the character `c`, which `after` follows. -/
def stepAll (p : Program) (c : Char) (after : Option Char) (threads : List Thread) (w : Wave) :
    Wave :=
  threads.foldl (fun (w : Wave) (t : Thread) =>
    match p.code[t.pc]? with
    | some (.step s next) => if s.contains c then p.enter (some c) after t.start next w else w
    | _ => w) w.next

/-- As long as there is no match, one may begin at position `i`. -/
def mayBegin (p : Program) (i : Nat) (best : Option (Nat × Nat)) : Bool :=
  best.isNone && (i == 0 || !p.anchored)

/-- Goes on with `w` at position `i`, behind the character `before`. What is preferred to a match
that ends here may still lead to a better one. -/
def searchFrom (p : Program) (i : Nat) (before : Option Char) (w : Wave)
    (best : Option (Nat × Nat)) (text : List Char) : Option (Nat × Nat) :=
  let w := if p.mayBegin i best then p.enter before text.head? i p.entry w else w
  let threads := w.threads.reverse
  let best := ((threads.find? p.isDone).map fun t => (t.start, i)).or best
  match text with
  | [] => best
  | c :: rest =>
    let threads := threads.takeWhile (!p.isDone ·)
    if threads.isEmpty && !p.mayBegin (i + 1) best then best
    else searchFrom p (i + 1) (some c) (p.stepAll c rest.head? threads w) best rest

/-- Where the leftmost match in `text` starts and stops, in characters; of those that start there,
the preferred one. -/
def search (p : Program) (text : List Char) : Option (Nat × Nat) :=
  p.searchFrom 0 none (.start p) none text

end Program

end Peg
