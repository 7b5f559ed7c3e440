import Peg.Bnf.Source
import Peg.Graph.Components
import Peg.Text.Names

/-!
# Sets of rules

A set of rules is analysed before expressions are made of it: which rules need which, which need
each other, and which names are needed but not defined.
-/

namespace Peg.Bnf

/-- What loose rules have between the members of a sequence: nothing, like strict ones, or the
white-space rule before each member. -/
inductive Spacing
  | literal
  | interleave
  deriving DecidableEq, Repr

structure Options where
  whiteSpace : Option String
  spacing : Spacing
  deriving DecidableEq, Repr

/-- Why a set of rules cannot be compiled. -/
inductive CompileError
  | whiteSpaceUndefined (name : String)
  | whiteSpaceNotStrict (name : String)
  | undefinedName (rule name : String)
  | unpredefined (name : String)
  | grammar (e : GrammarError)
  deriving DecidableEq, Repr

def CompileError.message : CompileError → String
  | whiteSpaceUndefined name => s!"whitespace rule <{name}> is not defined"
  | whiteSpaceNotStrict name => s!"whitespace rule <{name}> must be strict (:==)"
  | undefinedName rule name => s!"rule <{rule}> refers to undefined name <{name}>"
  | unpredefined name => s!"<{name}> is neither defined nor predefined"
  | grammar e => e.message

/-! ## Dependencies -/

mutual

/-- The names in a body, from left to right. -/
def Body.names : Body → List String
  | .name n => [n]
  | .lit _ => []
  | .opt b | .plus b => b.names
  | .conj bs | .disj bs => namesOf bs

def namesOf : List Body → List String
  | [] => []
  | b :: bs => b.names ++ namesOf bs

end

/-- The rules that a rule needs; a loose one also needs the white-space rule. -/
def Definition.dependencies (d : Definition) (whiteSpace : Option String) : List String :=
  sortNames (match d.mode with
    | .strict => d.body.names
    | .loose => d.body.names ++ whiteSpace.toList)

def dependencies (defs : Definitions) (whiteSpace : Option String) : Graph :=
  defs.map fun _ d => d.dependencies whiteSpace

/-- The white-space rule must be there, and must not be loose, since it would be put into itself. -/
def checkWhiteSpace (defs : Definitions) : Option String → Except CompileError Unit
  | none => .ok ()
  | some name =>
    match defs[name]? with
    | none => .error (.whiteSpaceUndefined name)
    | some d => if d.mode = .strict then .ok () else .error (.whiteSpaceNotStrict name)

/-! ## Analysis -/

structure RuleSet where
  definitions : Definitions
  options : Options
  dependencies : Graph
  /-- Rules that need each other, after all others that they need. -/
  components : List (List String)

namespace RuleSet

def ofDefinitions (defs : Definitions) (options : Options) : Except CompileError RuleSet := do
  checkWhiteSpace defs options.whiteSpace
  let graph := Bnf.dependencies defs options.whiteSpace
  return ⟨defs, options, graph, graph.components defs.keys⟩

/-- The names that are needed but not defined, in order. -/
def missing (rs : RuleSet) : List String :=
  (sortNames rs.dependencies.values.flatten).filter fun n => !rs.definitions.contains n

def summary (rs : RuleSet) : Message :=
  .analysed rs.definitions.size rs.components.length

end RuleSet

end Peg.Bnf
