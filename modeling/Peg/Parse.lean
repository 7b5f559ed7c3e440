import Peg.Cursor
import Peg.Grammar

/-!
# Matching

Expressions are matched by the rules of parsing expression grammars: choices are ordered,
repetitions take all they can get, and predicates look ahead without moving. A choice, repetition
or predicate returns to where it began when it fails; a sequence fails where its failing part does.

`eval` follows the arena, which may be cyclic, to a given depth. An evaluation that is deeper than
all pairs of a handle and a position would come back to one of them, and so never end.
-/

namespace Peg

universe u

/-- A mistake in the grammar that was met on the way. -/
inductive Fault
  | unresolvedForward (h : Handle)
  | noSuchRule (name : String)
  deriving DecidableEq, Repr

def Fault.message : Fault → String
  | unresolvedForward h => s!"unresolved forward declaration #{h}"
  | noSuchRule name => s!"no such rule '{name}'"

/-- How an evaluation ends, and where. -/
inductive Outcome
  | matched (c : Cursor)
  | failed (c : Cursor)
  | fault (e : Fault)
  | exhausted
  deriving DecidableEq, Repr

section
variable {σ : Type u}

/-! ## Composites

`ev` evaluates a part. -/

section
variable (ev : Handle → Cursor → σ → Outcome × σ)

def allOf : List Handle → Cursor → σ → Outcome × σ
  | [], c, s => (.matched c, s)
  | h :: hs, c, s =>
    match ev h c s with
    | (.matched c, s) => allOf hs c s
    | r => r

def firstOf : List Handle → Cursor → σ → Outcome × σ
  | [], c, s => (.failed c, s)
  | h :: hs, c, s =>
    match ev h c s with
    | (.failed _, s) => firstOf hs c s
    | r => r

/-- Passes over `h` up to the first one that fails or takes nothing. `enough` says whether the
passes so far suffice for a match. Every pass that is not the last takes one of the characters
ahead, so that there are at most as many of them. -/
def many (h : Handle) : (ahead : List Char) → (enough : Bool) → Cursor → σ → Outcome × σ
  | ahead, enough, c, s =>
    match ev h c s with
    | (.failed _, s) => (if enough then .matched c else .failed c, s)
    | (.matched d, s) =>
      if d.offset = c.offset then (.matched d, s)
      else
        match ahead with
        | [] => (.exhausted, s)
        | _ :: ahead => many h ahead true d s
    | r => r

end

/-- The outcome of a look ahead from `c`. -/
def Outcome.lookAhead (c : Cursor) : Outcome → Outcome
  | matched _ => matched c
  | failed _ => failed c
  | o => o

def Outcome.negate (c : Cursor) : Outcome → Outcome
  | matched _ => failed c
  | failed _ => matched c
  | o => o

/-- Fires an action on the text from `c` to the end of a match. -/
def fire (act : Option (Action σ)) (quiet : Bool) (c : Cursor) : Outcome × σ → Outcome × σ
  | (.matched d, s) =>
    match act, quiet with
    | some act, false => (.matched d, act (c.textTo d) s)
    | _, _ => (.matched d, s)
  | r => r

/-! ## Terminals -/

/-- Takes one character that `p` accepts. -/
def Cursor.takeIf (c : Cursor) (p : Char → Bool) : Outcome :=
  match c.rest with
  | [] => .failed c
  | ch :: _ => if p ch then .matched (c.advance 1) else .failed c

def Cursor.takeText (c : Cursor) (text : List Char) : Outcome :=
  if text.isPrefixOf c.rest then .matched (c.advance text.length) else .failed c

/-- Moves behind the pattern's match in the rest of the text. -/
def Cursor.takePattern (c : Cursor) (p : Pattern) : Outcome :=
  match p.search c.rest with
  | some (_, stop) => .matched (c.advance stop)
  | none => .failed c

/-! ## Evaluation -/

/-- Evaluates `node`, whose parts `ev` evaluates, quietly or not. -/
def evalNode (g : Grammar σ) (ev : Bool → Handle → Cursor → σ → Outcome × σ) (quiet : Bool)
    (h : Handle) (node : Node) (c : Cursor) (s : σ) : Outcome × σ :=
  match node with
  | .any => (c.takeIf fun _ => true, s)
  | .oneOf chars => (c.takeIf fun ch => chars.toList.contains ch, s)
  | .noneOf chars => (c.takeIf fun ch => !chars.toList.contains ch, s)
  | .literal text => (c.takeText text.toList, s)
  | .charRange lo hi => (c.takeIf fun ch => lo ≤ ch && ch ≤ hi, s)
  | .charClass cls => (c.takeIf cls.contains, s)
  | .pattern p => (c.takePattern p, s)
  | .sequence items => allOf (ev quiet) items c s
  | .choice items => firstOf (ev quiet) items c s
  | .zeroOrMore item => many (ev quiet) item c.rest true c s
  | .oneOrMore item => many (ev quiet) item c.rest false c s
  | .ahead item => (ev true item c s).map (·.lookAhead c) id
  | .notAhead item => (ev true item c s).map (·.negate c) id
  | .rule name =>
    match g.rule? name with
    | none => (.fault (.noSuchRule name), s)
    | some target => fire (g.actions.rule name) quiet c (ev quiet target c s)
  | .aliasOf target => ev quiet target c s
  | .forward => (.fault (.unresolvedForward h), s)

/-- Evaluates the expression `h` at `c` to a depth of `n`. Actions fire unless it is done quietly,
as all is within a predicate. -/
def eval (g : Grammar σ) : (n : Nat) → (quiet : Bool) → Handle → Cursor → σ → Outcome × σ
  | 0, _, _, _, s => (.exhausted, s)
  | n + 1, quiet, h, c, s =>
    match g.arena.node? h with
    | none => (.fault (.unresolvedForward h), s)
    | some node => fire (g.actions.node h) quiet c (evalNode g (eval g n) quiet h node c s)

/-! ## Parses -/

/-- The depth that an evaluation on `text` reaches only if it never ends. -/
def Grammar.depth (g : Grammar σ) (text : String) : Nat :=
  g.arena.size * (text.length + 1) + 1

/-- Matches `h` against the beginning of `text`. -/
def Grammar.parse (g : Grammar σ) (h : Handle) (text : String) (s : σ) : Outcome × σ :=
  eval g (g.depth text) false h (.atStart text) s

/-- How many bytes of the text a parse took, if it matched. -/
def Outcome.consumed? : Outcome → Option Nat
  | matched c => some c.offset
  | _ => none

def Outcome.isMatch (o : Outcome) : Bool :=
  o.consumed?.isSome

/-- Whether a parse took all of `text`. -/
def Outcome.isMatchOf (o : Outcome) (text : String) : Bool :=
  o.consumed? == some text.utf8ByteSize

end

end Peg
