import Peg.Proofs.Engine.Yields

/-!
# Trees of evaluations

The rules of parsing expression grammars, without cursors, depths and states: what an expression
makes of a text follows from what its parts make of it. An `Evaluation` is a tree of these rules, and
its events are the matches on which actions may fire.
-/

namespace Peg

universe u

/-- What comes of an expression on a text: it takes so many bytes from the front, or refuses, or a
mistake in the grammar was met. -/
inductive Result
  | took (bytes : Nat)
  | refused
  | fault (e : Fault)
  deriving DecidableEq, Repr

namespace Result

/-- The result on a whole text from the one behind its first `k` bytes. -/
def behind (k : Nat) : Result → Result
  | took n => took (k + n)
  | r => r

def lookAhead : Result → Result
  | took _ => took 0
  | r => r

def negate : Result → Result
  | took _ => refused
  | refused => took 0
  | fault e => fault e

end Result

def Outcome.result? : Outcome → Option Result
  | matched c => some (.took c.offset)
  | failed _ => some .refused
  | fault e => some (.fault e)
  | exhausted => none

theorem Outcome.exists_result {o : Outcome} (ho : o ≠ .exhausted) : ∃ r, o.result? = some r := by
  cases o with
  | exhausted => exact absurd rfl ho
  | _ => exact ⟨_, rfl⟩

/-! ## Terminals -/

def Node.isTerminal : Node → Bool
  | any | oneOf _ | noneOf _ | literal _ | charRange _ _ | charClass _ | pattern _ => true
  | _ => false

/-- The terminal takes `u` from the front of `u ++ t`. A pattern takes everything up to the end of
the match that is found: where the match starts is ignored. -/
inductive Node.Takes : Node → (u t : List Char) → Prop
  | any {ch : Char} {t : List Char} : Takes .any [ch] t
  | oneOf {chars : String} {ch : Char} {t : List Char} (h : ch ∈ chars.toList) :
    Takes (.oneOf chars) [ch] t
  | noneOf {chars : String} {ch : Char} {t : List Char} (h : ch ∉ chars.toList) :
    Takes (.noneOf chars) [ch] t
  | literal {text : String} {t : List Char} : Takes (.literal text) text.toList t
  | charRange {lo hi ch : Char} {t : List Char} (hlo : lo ≤ ch) (hhi : ch ≤ hi) :
    Takes (.charRange lo hi) [ch] t
  | charClass {cls : CharClass} {ch : Char} {t : List Char} (h : cls.contains ch) :
    Takes (.charClass cls) [ch] t
  | pattern {p : Pattern} {t : List Char} {start stop : Nat} (h : p.search t = some (start, stop)) :
    Takes (.pattern p) (t.take stop) (t.drop stop)

/-! ## Rules -/

/-- What is evaluated: an expression, the node that it stands for, the parts of a sequence or of a
choice that are left, or the further passes of a repetition. `enough` says whether the passes so far
suffice for a match. -/
inductive Subject
  | expr (h : Handle)
  | node (node : Node)
  | all (hs : List Handle)
  | first (hs : List Handle)
  | again (h : Handle) (enough : Bool)

inductive Evaluation (a : Arena) (rules : RuleTable) : Subject → List Char → Result → Type
  | expr (h : Handle) {node : Node} {t : List Char} {r : Result} (hn : a.node? h = some node)
    (e : Evaluation a rules (.node node) t r) : Evaluation a rules (.expr h) t r
  | unresolved {h : Handle} {t : List Char} (hn : ∀ node, a.node? h = some node → node = .forward) :
    Evaluation a rules (.expr h) t (.fault (.unresolvedForward h))
  | terminal {node : Node} {u t : List Char} (h : node.Takes u t) :
    Evaluation a rules (.node node) (u ++ t) (.took (byteLength u))
  | refusal {node : Node} {t : List Char} (hn : node.isTerminal)
    (h : ∀ u t', t = u ++ t' → ¬node.Takes u t') : Evaluation a rules (.node node) t .refused
  | sequence {items : List Handle} {t : List Char} {r : Result}
    (e : Evaluation a rules (.all items) t r) : Evaluation a rules (.node (.sequence items)) t r
  | choice {items : List Handle} {t : List Char} {r : Result}
    (e : Evaluation a rules (.first items) t r) : Evaluation a rules (.node (.choice items)) t r
  | zeroOrMore {item : Handle} {t : List Char} {r : Result}
    (e : Evaluation a rules (.again item true) t r) :
    Evaluation a rules (.node (.zeroOrMore item)) t r
  | oneOrMore {item : Handle} {t : List Char} {r : Result}
    (e : Evaluation a rules (.again item false) t r) :
    Evaluation a rules (.node (.oneOrMore item)) t r
  | ahead {item : Handle} {t : List Char} {r : Result} (e : Evaluation a rules (.expr item) t r) :
    Evaluation a rules (.node (.ahead item)) t r.lookAhead
  | notAhead {item : Handle} {t : List Char} {r : Result} (e : Evaluation a rules (.expr item) t r) :
    Evaluation a rules (.node (.notAhead item)) t r.negate
  | rule (name : String) {target : Handle} {t : List Char} {r : Result}
    (hr : rules[name]? = some target) (e : Evaluation a rules (.expr target) t r) :
    Evaluation a rules (.node (.rule name)) t r
  | noRule {name : String} {t : List Char} (hr : rules[name]? = none) :
    Evaluation a rules (.node (.rule name)) t (.fault (.noSuchRule name))
  | aliasOf {target : Handle} {t : List Char} {r : Result}
    (e : Evaluation a rules (.expr target) t r) : Evaluation a rules (.node (.aliasOf target)) t r
  | allNil {t : List Char} : Evaluation a rules (.all []) t (.took 0)
  | allCons {h : Handle} {hs : List Handle} {u t : List Char} {r : Result}
    (e : Evaluation a rules (.expr h) (u ++ t) (.took (byteLength u)))
    (es : Evaluation a rules (.all hs) t r) :
    Evaluation a rules (.all (h :: hs)) (u ++ t) (r.behind (byteLength u))
  | allStop {h : Handle} {hs : List Handle} {t : List Char} {r : Result}
    (e : Evaluation a rules (.expr h) t r) (hr : ∀ n, r ≠ .took n) :
    Evaluation a rules (.all (h :: hs)) t r
  | firstNil {t : List Char} : Evaluation a rules (.first []) t .refused
  | firstHead {h : Handle} {hs : List Handle} {t : List Char} {r : Result}
    (e : Evaluation a rules (.expr h) t r) (hr : r ≠ .refused) :
    Evaluation a rules (.first (h :: hs)) t r
  | firstCons {h : Handle} {hs : List Handle} {t : List Char} {r : Result}
    (e : Evaluation a rules (.expr h) t .refused) (es : Evaluation a rules (.first hs) t r) :
    Evaluation a rules (.first (h :: hs)) t r
  | againStop {h : Handle} {enough : Bool} {t : List Char}
    (e : Evaluation a rules (.expr h) t .refused) :
    Evaluation a rules (.again h enough) t (if enough then .took 0 else .refused)
  | againFault {h : Handle} {enough : Bool} {t : List Char} {f : Fault}
    (e : Evaluation a rules (.expr h) t (.fault f)) :
    Evaluation a rules (.again h enough) t (.fault f)
  | againIdle {h : Handle} {enough : Bool} {t : List Char}
    (e : Evaluation a rules (.expr h) t (.took 0)) :
    Evaluation a rules (.again h enough) t (.took 0)
  | againStep {h : Handle} {enough : Bool} {u t : List Char} {r : Result}
    (e : Evaluation a rules (.expr h) (u ++ t) (.took (byteLength u))) (hu : u ≠ [])
    (es : Evaluation a rules (.again h true) t r) :
    Evaluation a rules (.again h enough) (u ++ t) (r.behind (byteLength u))

/-! ## Events -/

/-- A match that an action may be attached to: of an expression, or of a rule by its name. -/
inductive Event
  | expr (h : Handle) (text : String)
  | rule (name text : String)
  deriving DecidableEq, Repr

def Event.text : Event → String
  | expr _ text | rule _ text => text

/-- The event of a match at the front of `t`, and none of anything else. -/
def Result.events (t : List Char) (event : String → Event) : Result → List Event
  | took n => [event (String.ofList (takeBytes n t))]
  | _ => []

/-- The matches outside of predicates, each behind those of its parts. -/
def Evaluation.events {a : Arena} {rules : RuleTable} {x : Subject} {t : List Char} {r : Result} :
    Evaluation a rules x t r → List Event
  | .expr h _ e => e.events ++ r.events t (.expr h)
  | .rule name _ e => e.events ++ r.events t (.rule name)
  | .ahead _ | .notAhead _ => []
  | .unresolved _ | .terminal _ | .refusal _ _ | .noRule _ | .allNil | .firstNil => []
  | .sequence e | .choice e | .zeroOrMore e | .oneOrMore e | .aliasOf e => e.events
  | .allStop e _ | .firstHead e _ | .againStop e | .againFault e | .againIdle e => e.events
  | .allCons e es | .firstCons e es | .againStep e _ es => e.events ++ es.events

namespace Actions

variable {σ : Type u} (acts : Actions σ)

def for? : Event → Option (Action σ)
  | .expr h _ => acts.node h
  | .rule name _ => acts.rule name

def attends (e : Event) : Bool :=
  (acts.for? e).isSome

def apply (s : σ) (e : Event) : σ :=
  (acts.for? e).elim s fun act => act e.text s

theorem apply_of_not_attends {s : σ} {e : Event} (h : ¬acts.attends e) : acts.apply s e = s := by
  have he : acts.for? e = .none := by simpa [attends] using h
  simp [apply, he]

theorem foldl_filter_attends (s : σ) (es : List Event) :
    (es.filter acts.attends).foldl acts.apply s = es.foldl acts.apply s := by
  induction es generalizing s with
  | nil => rfl
  | cons e es ih =>
    by_cases he : acts.attends e
    · simp [he, ih]
    · simp [he, ih, acts.apply_of_not_attends he]

/-- The state that the events leave; when an evaluation is quiet there are none. -/
def after (quiet : Bool) (s : σ) (es : List Event) : σ :=
  if quiet then s else es.foldl acts.apply s

@[simp] theorem after_nil (quiet : Bool) (s : σ) : acts.after quiet s [] = s := by
  cases quiet <;> rfl

theorem after_append (quiet : Bool) (s : σ) (es es' : List Event) :
    acts.after quiet s (es ++ es') = acts.after quiet (acts.after quiet s es) es' := by
  cases quiet <;> simp [after]

/-- Actions for all that there may be, which write down what they see. -/
def recorder : Actions (List Event) where
  node h := some fun text es => es ++ [.expr h text]
  rule name := some fun text es => es ++ [.rule name text]

theorem recorder_apply (es : List Event) (e : Event) : recorder.apply es e = es ++ [e] := by
  cases e <;> rfl

theorem foldl_recorder (es es' : List Event) : es'.foldl recorder.apply es = es ++ es' := by
  induction es' generalizing es with
  | nil => simp
  | cons e es' ih => simp [ih, recorder_apply]

end Actions

end Peg
