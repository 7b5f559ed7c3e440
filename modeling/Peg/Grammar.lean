import Peg.Arena.Build
import Std.Data.TreeMap

/-!
# Grammars

A grammar is an arena with named rules, and with actions that fire while a text is matched. An
action takes the matched text and the caller's state. Node actions belong to a handle, rule actions
to every reference to a rule by its name.
-/

namespace Peg

universe u

abbrev RuleTable := Std.TreeMap String Handle

abbrev Action (σ : Type u) := String → σ → σ

structure Actions (σ : Type u) where
  node : Handle → Option (Action σ)
  rule : String → Option (Action σ)

namespace Actions

variable {σ : Type u}

def none : Actions σ :=
  ⟨fun _ => .none, fun _ => .none⟩

/-- Attaches `act` to the node `h`, in place of what was attached to it. -/
def on (acts : Actions σ) (h : Handle) (act : Action σ) : Actions σ :=
  { acts with node := fun k => if k = h then some act else acts.node k }

/-- Attaches `act` to the references to the rule `name`. -/
def onRule (acts : Actions σ) (name : String) (act : Action σ) : Actions σ :=
  { acts with rule := fun k => if k = name then some act else acts.rule k }

end Actions

structure Grammar (σ : Type u) where
  arena : Arena
  rules : RuleTable
  actions : Actions σ

namespace Grammar

variable {σ : Type u}

def empty : Grammar σ :=
  ⟨∅, ∅, .none⟩

def define (g : Grammar σ) (name : String) (h : Handle) : Grammar σ :=
  { g with rules := g.rules.insert name h }

def rule? (g : Grammar σ) (name : String) : Option Handle :=
  g.rules[name]?

/-- Builds further expressions in the grammar's arena. -/
def build {α : Type} (g : Grammar σ) (b : Building α) : α × Grammar σ :=
  let (x, arena) := b g.arena
  (x, { g with arena })

end Grammar

end Peg
