import Peg.Bnf.Compile
import Peg.Regex.Engine

/-!
# Sessions

A session is a grammar under construction together with what its actions have recorded: events,
and a stack of numbers to calculate with.
-/

namespace Peg

/-- What actions change. -/
structure Tally where
  events : Array (String × String)
  stack : List Int64
  log : Array Message

namespace Tally

def init : Tally :=
  ⟨#[], [], #[]⟩

def note (t : Tally) (m : Message) : Tally :=
  { t with log := t.log.push m }

def push (t : Tally) (n : Int64) : Tally :=
  { t with stack := n :: t.stack }

/-- The topmost number, or zero. -/
def pop (t : Tally) : Int64 × Tally :=
  (t.stack.headD 0, { t with stack := t.stack.tail })

def apply (t : Tally) (op : Int64 → Int64 → Int64) : Tally :=
  let (right, t) := t.pop
  let (left, t) := t.pop
  t.push (op left right)

end Tally

/-! ## Numbers -/

def digits? (ds : List Char) : Option Nat :=
  if ds.isEmpty || !ds.all Char.isDigit then none
  else some (ds.foldl (fun n d => n * 10 + (d.toNat - '0'.toNat)) 0)

/-- A decimal number with or without a sign. -/
def int? : List Char → Option Int
  | '-' :: ds => (digits? ds).map fun n => -n
  | '+' :: ds => (digits? ds).map fun n => n
  | ds => (digits? ds).map fun n => n

/-- The number of 64 bits that `text` stands for, or zero. -/
def numberOf (text : String) : Int64 :=
  match int? text.toList with
  | some n => if Int64.minValue.toInt ≤ n ∧ n ≤ Int64.maxValue.toInt then Int64.ofInt n else 0
  | none => 0

/-! ## Effects -/

inductive Effect
  | event (tag : String)
  | num
  | add
  | sub
  | mul
  deriving DecidableEq, Repr

def Effect.act : Effect → Action Tally
  | event tag, text, t => { t with events := t.events.push (tag, text) }
  | num, text, t => t.push (numberOf text)
  | add, _, t => t.apply (· + ·)
  | sub, _, t => t.apply (· - ·)
  | mul, _, t => t.apply (· * ·)

/-- An action that reports itself before it takes effect. -/
def Effect.reporting (e : Effect) (m : String → Message) : Action Tally :=
  fun text t => e.act text (t.note (m text))

/-! ## Steps -/

structure Session where
  grammar : Grammar Tally
  tally : Tally
  log : Array Message

namespace Session

def init : Session :=
  ⟨.empty, .init, #[]⟩

def report (s : Session) (m : Message) : Session :=
  { s with log := s.log.push m }

def build {α : Type} (s : Session) (b : Building α) : α × Session :=
  let (x, grammar) := s.grammar.build b
  (x, { s with grammar })

/-- Gives `fwd` its content, and reports it. -/
def promote (s : Session) (f : Arena → Except GrammarError Arena) (fwd : Handle) :
    Except GrammarError Session :=
  match f s.grammar.arena with
  | .ok arena =>
    .ok ({ s with grammar := { s.grammar with arena } }.report
      (.promoted fwd ((arena.node? fwd).getD .forward)))
  | .error e => .error e

def define (s : Session) (name : String) (h : Handle) : Session :=
  { s with grammar := s.grammar.define name h }

def on (s : Session) (h : Handle) (e : Effect) : Session :=
  { s with grammar.actions := s.grammar.actions.on h (e.reporting (.fired h)) }

def onRule (s : Session) (name : String) (e : Effect) : Session :=
  { s with grammar.actions := s.grammar.actions.onRule name (e.reporting (.firedRule name)) }

/-- Adds the builtin rules among `names`, or all of them. -/
def addBuiltins (s : Session) (names : Option (List String)) : RuleTable × Session :=
  let (table, s) := s.build Builtin.init
  let table := match names with
    | some names => Builtin.among table names
    | none => table
  (table, { s with grammar.rules := s.grammar.rules ∪ table })

/-- Compiles in the session's arena; if that succeeds, the rules are those of the new table. -/
def compile {ε : Type} (s : Session) (x : ExceptT ε (StateM Bnf.Workshop) RuleTable) :
    Except ε RuleTable × Session :=
  let (result, w) := x ⟨s.grammar.arena, s.log⟩
  let rules := match result with
    | .ok table => table
    | .error _ => s.grammar.rules
  (result, { s with grammar := { s.grammar with arena := w.arena, rules }, log := w.log })

/-- Parses `text`, from where the last parse has left the tally or from an empty one. -/
def parse (s : Session) (h : Handle) (text : String) (keep : Bool) : Outcome × Session :=
  let start := if keep then s.tally else .init
  let (outcome, t) := s.grammar.parse h text { start with log := #[] }
  (outcome, { s with tally := t, log := s.log ++ t.log })

end Session

end Peg
