import Peg.Proofs.Arena.Operations
import Peg.Proofs.Engine.Adequacy
import Peg.Regex.Engine

/-!
# Predicates

A predicate tells what comes of an expression, and nothing else: it takes nothing, and no action
within it has an effect, however deep it lies in repetitions, rules and further predicates.
-/

namespace Peg

universe u

section
variable {σ : Type u} (g : Grammar σ)

theorem fire_quiet (act : Option (Action σ)) (c : Cursor) (r : Outcome × σ) :
    fire act true c r = r := by
  obtain ⟨o, s⟩ := r
  cases o with
  | matched d => cases act <;> rfl
  | _ => rfl

/-- What is evaluated quietly leaves the state alone. -/
theorem eval_quiet_state (n : Nat) (h : Handle) (c : Cursor) (s : σ) :
    (eval g n true h c s).2 = s := by
  have key : InStep (fun _ => False) (fun t _ => t = s) (eval g n true h c s)
      (eval g.silent n true h c ()) := by
    induction n generalizing h c with
    | zero => exact .inr ⟨rfl, rfl⟩
    | succ n ih =>
      have hfire (act : Option (Action σ)) (act' : Option (Action Unit)) (c : Cursor)
          (r : Outcome × σ) (r' : Outcome × Unit)
          (hrr : InStep (fun _ => False) (fun t _ => t = s) r r') :
          InStep (fun _ => False) (fun t _ => t = s) (fire act true c r) (fire act' true c r') := by
        rw [fire_quiet, fire_quiet]
        exact hrr
      have hev : GoInStep (fun _ => False) (fun t _ => t = s) (fun _ => True) (eval g n true)
          (eval g.silent n true) :=
        ⟨eval_liesFrom g n true, fun h c t _ _ ht => ht ▸ ih h c⟩
      rw [eval, eval, show g.silent.arena = g.arena from rfl]
      cases g.arena.node? h with
      | none => exact .inr ⟨rfl, rfl⟩
      | some node =>
        apply hfire
        refine evalNode_inStep (fun _ ho => False.elim ho) (fun _ _ _ _ => trivial) ?_
          (fun name c r r' _ _ => hfire _ _ c r r') hev hev h node c s () trivial rfl
        exact fun name => .inl rfl
  exact (key.resolve_left id).2

end

/-! ## Answers -/

section
variable {σ : Type u}

/-- What a predicate comes to, when its expression comes to `o`: a fault is passed on, and a match and
a failure are answered by `yes` and `no`. All that may happen to the state is that the action of the
predicate itself takes the empty text. -/
structure Answers (o yes no : Outcome) (act : Option (Action σ)) (s : σ) (r : Outcome × σ) : Prop where
  fault : ∀ f, o = .fault f → r.1 = .fault f
  matched : ∀ d, o = .matched d → r.1 = yes
  failed : ∀ d, o = .failed d → r.1 = no
  state : r.2 = s ∨ ∃ f, act = some f ∧ r.2 = f "" s

theorem textTo_self (c : Cursor) : c.textTo c = "" := by
  simp [Cursor.textTo, takeBytes]

/-- Firing on an outcome that took nothing. -/
theorem fire_state {act : Option (Action σ)} {quiet : Bool} {c : Cursor} {o : Outcome} {s : σ}
    (ho : ∀ d, o = .matched d → d = c) :
    (fire act quiet c (o, s)).2 = s ∨ ∃ f, act = some f ∧ (fire act quiet c (o, s)).2 = f "" s := by
  cases o with
  | matched d =>
    obtain rfl := ho d rfl
    cases act with
    | none => exact .inl rfl
    | some f =>
      cases quiet with
      | true => exact .inl rfl
      | false => exact .inr ⟨f, rfl, by rw [fire, textTo_self]⟩
  | _ => exact .inl rfl

theorem Outcome.lookAhead_matched {c d : Cursor} {o : Outcome} (h : o.lookAhead c = .matched d) :
    d = c := by
  cases o with
  | matched e => exact (Outcome.matched.inj h).symm
  | _ => cases h

theorem Outcome.negate_matched {c d : Cursor} {o : Outcome} (h : o.negate c = .matched d) :
    d = c := by
  cases o with
  | failed e => exact (Outcome.matched.inj h).symm
  | _ => cases h

/-- It is enough to look at the outcome before the action of the predicate is called. -/
theorem answers_fire {o p yes no : Outcome} {act : Option (Action σ)} {quiet : Bool} {c : Cursor} {s : σ}
    (hfault : ∀ f, o = .fault f → p = .fault f) (hmatched : ∀ d, o = .matched d → p = yes)
    (hfailed : ∀ d, o = .failed d → p = no) (hstays : ∀ d, p = .matched d → d = c) :
    Answers o yes no act s (fire act quiet c (p, s)) := by
  have hp : (fire act quiet c (p, s)).1 = p := fire_outcome act quiet c (p, s)
  refine ⟨?_, ?_, ?_, fire_state hstays⟩
  · intro f ho
    exact hp.trans (hfault f ho)
  · intro d ho
    exact hp.trans (hmatched d ho)
  · intro d ho
    exact hp.trans (hfailed d ho)

theorem answers_lookAhead (act : Option (Action σ)) (quiet : Bool) (c : Cursor) (o : Outcome) (s : σ) :
    Answers o (.matched c) (.failed c) act s (fire act quiet c (o.lookAhead c, s)) := by
  apply answers_fire
  · rintro f rfl
    rfl
  · rintro d rfl
    rfl
  · rintro d rfl
    rfl
  · exact fun d => Outcome.lookAhead_matched

theorem answers_negate (act : Option (Action σ)) (quiet : Bool) (c : Cursor) (o : Outcome) (s : σ) :
    Answers o (.failed c) (.matched c) act s (fire act quiet c (o.negate c, s)) := by
  apply answers_fire
  · rintro f rfl
    rfl
  · rintro d rfl
    rfl
  · rintro d rfl
    rfl
  · exact fun d => Outcome.negate_matched

theorem Answers.ne_exhausted {o yes no : Outcome} {act : Option (Action σ)} {s : σ} {r : Outcome × σ}
    (h : Answers o yes no act s r) (ho : o ≠ .exhausted) (hyes : yes ≠ .exhausted)
    (hno : no ≠ .exhausted) : r.1 ≠ .exhausted := by
  cases o with
  | matched d => rwa [h.matched d rfl]
  | failed d => rwa [h.failed d rfl]
  | fault f =>
    rw [h.fault f rfl]
    exact nofun
  | exhausted => exact absurd rfl ho

variable (g : Grammar σ) {p e : Handle} (n : Nat) (quiet : Bool) (c : Cursor) (s s' : σ)

/-- An expression comes to the same in a predicate as anywhere, and leaves no trace in the state. -/
theorem eval_in_predicate : eval g n true e c s = ((eval g n quiet e c s').1, s) :=
  Prod.ext (eval_outcome g g rfl rfl n true quiet e c s s') (eval_quiet_state g n e c s)

theorem eval_ahead (hp : g.arena.node? p = some (.ahead e)) :
    Answers (eval g n quiet e c s').1 (.matched c) (.failed c) (g.actions.node p) s
      (eval g (n + 1) quiet p c s) := by
  rw [eval, hp]
  dsimp only [evalNode]
  rw [eval_in_predicate g n quiet c s s']
  exact answers_lookAhead _ _ _ _ _

theorem eval_notAhead (hp : g.arena.node? p = some (.notAhead e)) :
    Answers (eval g n quiet e c s').1 (.failed c) (.matched c) (g.actions.node p) s
      (eval g (n + 1) quiet p c s) := by
  rw [eval, hp]
  dsimp only [evalNode]
  rw [eval_in_predicate g n quiet c s s']
  exact answers_negate _ _ _ _ _

/-- A parse goes deep enough for a predicate if it does so for the expression in it. -/
theorem parse_answers {g : Grammar σ} {text : String} {s : σ} {yes no : Outcome}
    (hend : (g.parse e text s).1 ≠ .exhausted) (hyes : yes ≠ .exhausted) (hno : no ≠ .exhausted)
    (h : Answers (g.parse e text s).1 yes no (g.actions.node p) s
      (eval g (g.depth text + 1) false p (.atStart text) s)) :
    Answers (g.parse e text s).1 yes no (g.actions.node p) s (g.parse p text s) := by
  have hdepth : g.parse p text s = eval g (g.depth text + 1) false p (.atStart text) s :=
    eval_depth g (h.ne_exhausted hend hyes hno)
  rwa [hdepth]

/-- Predicates take nothing and are each other's opposite: where an expression matches the one answers
with a match and the other one with a failure, and the other way round where it fails. Both pass on
its faults. What is evaluated in them leaves the state as it is. This holds of whole parses, and of
predicates at any place in them. -/
theorem predicates_answer (e : Handle) :
    (∀ (n : Nat) (h : Handle) (c : Cursor) (s : σ), (eval g n true h c s).2 = s) ∧
      (∀ p, g.arena.node? p = some (.ahead e) →
        (∀ (text : String) (s : σ), (g.parse e text s).1 ≠ .exhausted →
          Answers (g.parse e text s).1 (.matched ⟨0, text.toList⟩) (.failed ⟨0, text.toList⟩)
            (g.actions.node p) s (g.parse p text s)) ∧
        ∀ (n : Nat) (quiet : Bool) (c : Cursor) (s s' : σ),
          Answers (eval g n quiet e c s').1 (.matched c) (.failed c) (g.actions.node p) s
            (eval g (n + 1) quiet p c s)) ∧
      ∀ q, g.arena.node? q = some (.notAhead e) →
        (∀ (text : String) (s : σ), (g.parse e text s).1 ≠ .exhausted →
          Answers (g.parse e text s).1 (.failed ⟨0, text.toList⟩) (.matched ⟨0, text.toList⟩)
            (g.actions.node q) s (g.parse q text s)) ∧
        ∀ (n : Nat) (quiet : Bool) (c : Cursor) (s s' : σ),
          Answers (eval g n quiet e c s').1 (.failed c) (.matched c) (g.actions.node q) s
            (eval g (n + 1) quiet q c s) := by
  refine ⟨eval_quiet_state g, fun p hp => ⟨?_, ?_⟩, fun q hq => ⟨?_, ?_⟩⟩
  · intro text s hend
    exact parse_answers hend nofun nofun (eval_ahead g _ false _ s s hp)
  · intro n quiet c s s'
    exact eval_ahead g n quiet c s s' hp
  · intro text s hend
    exact parse_answers hend nofun nofun (eval_notAhead g _ false _ s s hq)
  · intro n quiet c s s'
    exact eval_notAhead g n quiet c s s' hq

end

/-- A word with no mark behind it, and the predicates on that. All but these two have actions. -/
def lookout : Grammar (List Event) where
  arena := Operation.runAll [.oneOf "ab", .plus 0, .rule "word", .literal "!", .notAhead 3,
    .seq [2, 4], .ahead 5, .notAhead 5] ∅
  rules := Std.TreeMap.empty.insert "word" 1
  actions := { Actions.recorder with node := fun h => if h < 6 then Actions.recorder.node h else none }

theorem predicates_answer_lookout :
    lookout.arena.node? 6 = some (.ahead 5) ∧ lookout.arena.node? 7 = some (.notAhead 5) ∧
      lookout.parse 5 "ab" [] = (.matched ⟨2, []⟩, [.expr 0 "a", .expr 0 "b", .expr 1 "ab",
        .rule "word" "ab", .expr 2 "ab", .expr 4 "", .expr 5 "ab"]) ∧
      lookout.parse 6 "ab" [] = (.matched ⟨0, "ab".toList⟩, []) ∧
      lookout.parse 7 "ab" [] = (.failed ⟨0, "ab".toList⟩, []) := by
  have hp : lookout.arena.node? 6 = some (.ahead 5) := by rfl
  have hq : lookout.arena.node? 7 = some (.notAhead 5) := by rfl
  have he : lookout.parse 5 "ab" [] = (.matched ⟨2, []⟩, [.expr 0 "a", .expr 0 "b", .expr 1 "ab",
      .rule "word" "ab", .expr 2 "ab", .expr 4 "", .expr 5 "ab"]) := by
    decide +kernel
  obtain ⟨-, hahead, hnot⟩ := predicates_answer lookout 5
  have hend : (lookout.parse 5 "ab" []).1 ≠ .exhausted := by
    rw [he]
    exact nofun
  have h₆ := (hahead 6 hp).1 "ab" [] hend
  have h₇ := (hnot 7 hq).1 "ab" [] hend
  have hmatch : (lookout.parse 5 "ab" []).1 = .matched ⟨2, []⟩ := congrArg Prod.fst he
  refine ⟨hp, hq, he, Prod.ext (h₆.matched _ hmatch) ?_, Prod.ext (h₇.matched _ hmatch) ?_⟩
  · exact h₆.state.resolve_right fun ⟨f, hf, _⟩ => nomatch hf
  · exact h₇.state.resolve_right fun ⟨f, hf, _⟩ => nomatch hf

end Peg
