import Peg.Arena.Build
import Peg.Bnf.RuleSet

/-!
# Expressions for rules

Components are realized in the order of dependency. The rules of a component may refer to each
other, so that all are declared before the first of them gets its content. A rule whose body is a
single name stands for the named rule itself, with its actions.
-/

namespace Peg.Bnf

open Building

/-! ## Bodies -/

section
variable (rs : RuleSet) (table : RuleTable) (rule : String) (mode : Mode)

def lookUp (name : String) : ExceptT CompileError Building Handle :=
  match table[name]? with
  | some h => pure h
  | none => throw (.undefinedName rule name)

/-- The rule that comes before each member of a sequence, if there is one. -/
def spacer : ExceptT CompileError Building (Option Handle) :=
  match mode, rs.options.spacing, rs.options.whiteSpace with
  | .loose, .interleave, some name => some <$> lookUp table rule name
  | _, _, _ => pure none

def interleave : Option Handle → List Handle → List Handle
  | none, items => items
  | some ws, items => items.flatMap ([ws, ·])

mutual

/-- The expression for a body in the rule `rule`. Parts are built before what they are part of. -/
def express : Body → ExceptT CompileError Building Handle
  | .lit text => literal text
  | .name n => lookUp table rule n
  | .opt b => do opt (← express b)
  | .plus b => do plus (← express b)
  | .disj bs => do choice (← expressAll bs)
  | .conj bs => do
    let ws ← spacer rs table rule mode
    seq (interleave ws (← expressAll bs))

def expressAll : List Body → ExceptT CompileError Building (List Handle)
  | [] => pure []
  | b :: bs => do
    let h ← express b
    return h :: (← expressAll bs)

end

end

/-! ## Realization -/

/-- What realization changes: the arena, and the messages so far. -/
structure Workshop where
  arena : Arena
  log : Array Message

abbrev Making := ExceptT CompileError (StateM Workshop)

def report (m : Message) : Making Unit :=
  modify fun w => { w with log := w.log.push m }

/-- Builds in the arena of the workshop. -/
def building {α : Type} (b : ExceptT CompileError Building α) : Making α :=
  ExceptT.mk fun w =>
    let (x, arena) := b w.arena
    (x, { w with arena })

/-- Gives `fwd` its content. -/
def promote (f : Arena → Except GrammarError Arena) (fwd : Handle) : Making Unit := do
  building (ExceptT.adapt .grammar (update f))
  report (.promoted fwd (((← get).arena.node? fwd).getD .forward))

/-- A rule that is declared but has no content yet. -/
structure Pending where
  name : String
  definition : Definition
  fwd : Handle

namespace RuleSet

variable (rs : RuleSet)

/-- Declares the rules of a component. A name without a definition must be in the table. -/
def declare (table : RuleTable) : List String → Making (RuleTable × List Pending)
  | [] => pure (table, [])
  | name :: names =>
    match rs.definitions[name]? with
    | some d => do
      if table.contains name then report (.replaces name)
      let fwd ← building forward
      let (table, pending) ← declare (table.insert name fwd) names
      return (table, ⟨name, d, fwd⟩ :: pending)
    | none => do
      unless table.contains name do throw (.unpredefined name)
      declare table names

/-- Gives a declared rule its content. -/
def define (table : RuleTable) (p : Pending) : Making Unit := do
  let e ← building (express rs table p.name p.definition.mode p.definition.body)
  match p.definition.body with
  | .name _ => promote (·.makeAlias p.fwd e) p.fwd
  | _ => promote (·.implement p.fwd e) p.fwd

def defineAll (table : RuleTable) : List Pending → Making Unit
  | [] => pure ()
  | p :: ps => do
    define rs table p
    defineAll table ps

def realizeComponents (table : RuleTable) : List (List String) → Making RuleTable
  | [] => pure table
  | names :: components => do
    let (table, pending) ← declare rs table names
    defineAll rs table pending
    report (.realized names)
    realizeComponents table components

/-- Builds one expression for each rule and adds it to the table of predefined ones, which must
hold all that is missing. What was built before a failure stays. -/
def realize (predefined : RuleTable) : Making RuleTable :=
  realizeComponents rs predefined rs.components

end RuleSet

end Peg.Bnf
