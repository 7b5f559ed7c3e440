import Peg.Arena.Build
import Peg.Bnf.Reductions
import Peg.Bnf.Render
import Peg.Parse

/-!
# Reading a rule

The notation of rules is itself described by a grammar, whose actions build the definition. What
failed alternatives have left on the stack is not taken back, so that a rule counts as read only if
the definition is all that remains.
-/

namespace Peg.Bnf

open Building

/-- The expressions of the notation that actions or others refer to. -/
structure Phrases where
  nameBody : Handle
  strict : Handle
  loose : Handle
  bare : Handle
  quoted : Handle
  graphic : Handle
  optional : Handle
  ellipsis : Handle
  repeating : Handle
  alternative : Handle
  expression : Handle
  declaration : Handle
  deriving DecidableEq

/-- A sequence with `ws` before each item. -/
def spaced (ws : Handle) (items : List Handle) : Building Handle :=
  seq (items.flatMap ([ws, ·]))

def Phrases.build : ExceptT GrammarError Building Phrases := do
  let eol ← seq [← opt (← oneOf "\r"), ← oneOf "\n"]
  let eof ← notAhead (← any)
  let wsChar ← oneOf " \t\r\n\x0c\x0b"
  -- white space never crosses a blank line, which ends the rule
  let ws ← star (← seq [← notAhead (← seq [eol, eol]), wsChar])
  let nameChar ← choice [← charRange 'a' 'z', ← charRange 'A' 'Z', ← charRange '0' '9',
    ← oneOf " -_:=/."]
  let nameBody ← plus nameChar
  let name ← seq [← oneOf "<", nameBody, ← oneOf ">"]
  let strict ← literal Mode.strict.sign
  let loose ← literal Mode.loose.sign
  let assigns ← choice [strict, loose]
  let bare ← plus (← seq [← notAhead (← oneOf " "), nameChar])
  let escape ← seq [← oneOf "\\", ← oneOf "\\\"rntvf"]
  let quoted ← seq [← oneOf "\"", ← star (← choice [escape, ← noneOf "\"\\"]), ← oneOf "\""]
  let graphic ← plus (← seq [← notAhead wsChar, ← any])
  let expression ← forward
  let optional ← spaced ws [← oneOf "[", expression, ← oneOf "]"]
  let braces ← spaced ws [← oneOf "\x7b", expression, ← oneOf "\x7d"]
  let primary ← choice [name, quoted, bare, optional, braces]
  let ellipsis ← literal "..."
  let postfixed ← seq [primary, ← opt ellipsis]
  let repeating ← spaced ws [postfixed]
  let sequence ← spaced ws [postfixed, ← star repeating]
  let alternative ← spaced ws [← oneOf "|", sequence]
  implement expression (← spaced ws [sequence, ← star alternative])
  let stop ← choice [← seq [eol, eol], eof]
  let declaration ← spaced ws [name, assigns, ← choice [expression, graphic], stop]
  return ⟨nameBody, strict, loose, bare, quoted, graphic, optional, ellipsis, repeating,
    alternative, expression, declaration⟩

def Phrases.actions (p : Phrases) : Actions Reductions :=
  Actions.none
    |>.on p.nameBody (fun text st => st.push (.name text))
    |>.on p.strict (fun _ st => { st with mode := .strict })
    |>.on p.loose (fun _ st => { st with mode := .loose })
    |>.on p.bare (fun text st => st.push (.lit text))
    |>.on p.quoted (fun text st => st.push (.lit (String.ofList (unquote text.toList))))
    |>.on p.graphic (fun text st => st.push (.lit text))
    |>.on p.optional (fun _ st => st.wrap .opt)
    |>.on p.ellipsis (fun _ st => st.wrap .plus)
    |>.on p.repeating (fun _ st => st.join Reductions.conjoin)
    |>.on p.alternative (fun _ st => st.join Reductions.disjoin)
    |>.on p.declaration (fun _ st => st.define)

structure Reader where
  grammar : Grammar Reductions
  phrases : Phrases

@[irreducible] def reader : Except GrammarError Reader :=
  match Phrases.build ∅ with
  | (.ok phrases, arena) => .ok ⟨⟨arena, ∅, phrases.actions⟩, phrases⟩
  | (.error e, _) => .error e

/-- Why rules cannot be read. -/
inductive ReadError
  | unreadable (line : Nat) (text : String)
  | duplicateRule (name : String)
  | reduction (fault : ReductionFault)
  | parse (fault : Fault)
  | grammar (e : GrammarError)
  | unending
  deriving DecidableEq, Repr

def ReadError.message : ReadError → String
  | unreadable line text => s!"line {line}: cannot parse rule: {text}"
  | duplicateRule name => s!"duplicate rule <{name}>"
  | reduction fault => s!"internal error reducing rule: {fault.message}"
  | parse fault => fault.message
  | grammar e => e.message
  | unending => "the rule is never read to its end"

/-- What the reductions of a rule come to, if the notation matched. -/
def Reductions.result? (st : Reductions) : Option (String × Definition) :=
  match st.stack with
  | [.definition name d] => some (name, d)
  | _ => none

/-- Reads one rule, which a blank line or the end of `text` terminates. Only white space may
follow. -/
def Reader.read (r : Reader) (text : String) : Except ReadError (String × Definition) :=
  let unreadable := .error (.unreadable 1 (String.ofList (trim text.toList)))
  match r.grammar.parse r.phrases.declaration text .init with
  | (.fault e, _) => .error (.parse e)
  | (.exhausted, _) => .error .unending
  | (outcome, st) =>
    match st.fault with
    | some fault => .error (.reduction fault)
    | none =>
      match outcome, st.result? with
      | .matched c, some result => if c.rest.all isWhiteSpace then .ok result else unreadable
      | _, _ => unreadable

def readRule (text : String) : Except ReadError (String × Definition) :=
  match reader with
  | .ok r => r.read text
  | .error e => .error (.grammar e)

/-- What is read back from the text of a rule for `name`. -/
def Definition.reread (d : Definition) (name : String) : Except ReadError (String × Definition) :=
  readRule (d.renderAs name)

/-- Whether a rule reads back as it is. -/
def Definition.isStable (d : Definition) (name : String) : Bool :=
  match d.reread name with
  | .ok (_, d') => d' = d
  | .error _ => false

end Peg.Bnf
