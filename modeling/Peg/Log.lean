import Peg.Arena.Show
import Peg.Bnf.Render

/-!
# Messages

What is reported while rules are read, analysed and realized, and while actions fire.
-/

namespace Peg

inductive Level
  | warn
  | debug
  | trace
  deriving DecidableEq, Repr

namespace Level

def rank : Level → Nat
  | warn => 0
  | debug => 1
  | trace => 2

/-- Whether a log that is kept at this level holds messages of the level `l`. -/
def admits (level l : Level) : Bool :=
  l.rank ≤ level.rank

def name : Level → String
  | warn => "WARN"
  | debug => "DEBUG"
  | trace => "TRACE"

end Level

inductive Message
  | replaces (name : String)
  | read (line : Nat) (name : String) (d : Bnf.Definition)
  | analysed (definitions components : Nat)
  | realized (component : List String)
  | promoted (fwd : Handle) (node : Node)
  | fired (h : Handle) (text : String)
  | firedRule (name text : String)

namespace Message

def level : Message → Level
  | replaces _ => .warn
  | read .. | analysed .. | realized _ => .debug
  | promoted .. | fired .. | firedRule .. => .trace

def text : Message → String
  | replaces name => s!"definition of <{name}> replaces the predefined rule"
  | read line name d => s!"line {line}: <{name}> {d.render}"
  | analysed n m => s!"{n} definitions, {m} strongly connected components"
  | realized component =>
    "realized component [" ++ ", ".intercalate (component.map visibleString) ++ "]"
  | promoted fwd node => s!"implement #{fwd} as {node.show}"
  | fired h text => s!"action #{h} on {visibleString text}"
  | firedRule name text => s!"rule action <{name}> on {visibleString text}"

/-- The line of a log. -/
def line (m : Message) : String :=
  m.level.name ++ " " ++ m.text

end Message

/-- A value with the messages on the way to it. -/
structure Logged (α : Type) where
  value : α
  log : List Message

def Logged.after {α : Type} (x : Logged α) (earlier : List Message) : Logged α :=
  { x with log := earlier ++ x.log }

end Peg
