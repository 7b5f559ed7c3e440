import Peg.Bnf.Realize
import Peg.Builtin

/-!
# Compiling a source

From the text of a grammar to its rule table.
-/

namespace Peg.Bnf

inductive BuildError
  | read (e : ReadError)
  | compile (e : CompileError)
  deriving DecidableEq

def BuildError.message : BuildError → String
  | read e => e.message
  | compile e => e.message

/-- Like `Making`, with the errors of reading besides. -/
abbrev Compiling := ExceptT BuildError (StateM Workshop)

/-- Takes over what has been read or has failed to be, with its messages. -/
def ofLogged {α : Type} (x : Logged (Except ReadError α)) : Compiling α :=
  ExceptT.mk fun w => (x.value.mapError .read, { w with log := w.log ++ x.log.toArray })

def analyse (defs : Definitions) (options : Options) : Making RuleSet := do
  let rs ← ExceptT.mk (pure (RuleSet.ofDefinitions defs options))
  report rs.summary
  return rs

/-- Analyses and realizes the rules. -/
def make (defs : Definitions) (options : Options) (predefined : RuleTable) : Making RuleTable := do
  (← analyse defs options).realize predefined

/-- Reads and makes the rules of a source, without the builtin ones. -/
def makeRules (source : String) (options : Options) (predefined : RuleTable) :
    Compiling RuleTable := do
  let defs ← ofLogged (readAll source)
  ExceptT.adapt .compile (make defs options predefined)

/-- Reads, analyses and realizes the rules of a source. Names that it leaves undefined are looked up
in `predefined` first and then among the builtin rules. -/
def buildRules (source : String) (options : Options) (predefined : RuleTable) :
    Compiling RuleTable := do
  let defs ← ofLogged (readAll source)
  ExceptT.adapt .compile do
    let rs ← analyse defs options
    let builtins ← building (ExceptT.lift Builtin.init)
    rs.realize (Builtin.among builtins rs.missing ∪ predefined)

end Peg.Bnf
