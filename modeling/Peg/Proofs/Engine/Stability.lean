import Peg.Proofs.Arena.Operations
import Peg.Proofs.Engine.Adequacy
import Peg.Regex.Engine

/-!
# Results that stay

A parse that ends in a match or in a failure has met no forward declaration and no missing rule,
however deep in choices, repetitions and predicates. So it ends alike when the grammar grows:
expressions are built, forward declarations are promoted, and new names are given rules.
-/

namespace Peg

universe u

variable {σ : Type u} {g g' : Grammar σ}

theorem Grammar.rule?_define (g : Grammar σ) (name : String) (h : Handle) (name' : String) :
    (g.define name h).rule? name' = if name = name' then some h else g.rule? name' := by
  simp only [rule?, define, Std.TreeMap.getElem?_insert, Std.LawfulEqCmp.compare_eq_iff_eq]

section
variable [RegexLibrary]

/-- What the grammar may become while no rule is replaced and no action is attached. -/
inductive Grammar.Later (g : Grammar σ) : Grammar σ → Prop
  | refl : Later g g
  | operate {g' : Grammar σ} (hl : Later g g') (op : Operation) :
    Later g { g' with arena := (op.run g'.arena).2 }
  | define {g' : Grammar σ} (hl : Later g g') (name : String) (h : Handle)
    (hn : g'.rule? name = none) : Later g (g'.define name h)

namespace Grammar

namespace Later

theorem actions_eq (hl : g.Later g') : g'.actions = g.actions := by
  induction hl with
  | refl => rfl
  | operate _ op ih => exact ih
  | define _ name h hn ih => exact ih

theorem grows (hl : g.Later g') : g.arena.Grows g'.arena := by
  induction hl with
  | refl => exact .refl _
  | operate _ op ih => exact ih.trans (op.run_changes _).evolves.grows
  | define _ name h hn ih => exact ih

theorem rule?_eq (hl : g.Later g') {name : String} {target : Handle}
    (hr : g.rule? name = some target) : g'.rule? name = some target := by
  induction hl with
  | refl => exact hr
  | operate _ op ih => exact ih
  | @define g' _ name' h hn ih =>
    rw [rule?_define, if_neg, ih]
    rintro rfl
    rw [ih] at hn
    cases hn

end Later

end Grammar

/-- At every depth, unless the first evaluation stops short of a match or a failure. -/
theorem eval_later_inStep (hl : g.Later g') (n : Nat) (quiet : Bool) (h : Handle) (c : Cursor)
    (s : σ) : InStep Outcome.Stops Eq (eval g n quiet h c s) (eval g' n quiet h c s) := by
  induction n generalizing quiet h c s with
  | zero => exact .inl trivial
  | succ n ih =>
    have hev (q : Bool) : GoInStep Outcome.Stops Eq (fun _ => True) (eval g n q) (eval g' n q) :=
      ⟨eval_liesFrom g n q, fun h c s _ _ hs => hs ▸ ih q h c s⟩
    have hrule (name : String) : g.rule? name = g'.rule? name ∨
        g.rule? name = none ∧ (Outcome.fault (.noSuchRule name)).Stops := by
      -- a name that was missing may have any rule by now: to meet it was a fault
      cases hr : g.rule? name with
      | none => exact .inr ⟨rfl, trivial⟩
      | some target => exact .inl (hl.rule?_eq hr).symm
    rw [eval, eval]
    cases hn : g.arena.node? h with
    | none => exact .inl trivial
    | some node =>
      by_cases hf : node = .forward
      · subst hf
        exact .inl trivial
      · rw [hl.grows h node hn hf]
        dsimp only
        rw [hl.actions_eq]
        apply fire_inStep_eq
        refine evalNode_inStep (fun _ ho => ho) (fun _ _ _ _ => trivial) hrule ?_ (hev quiet)
          (hev true) h node c s s trivial rfl
        rw [hl.actions_eq]
        exact fun name c r r' _ _ => fire_inStep_eq _ quiet c r r'

/-- Neither a match nor a failure changes any more, nor the state that it leaves. -/
theorem Grammar.Later.parse_eq (hl : g.Later g') {h : Handle} {text : String} {s s' : σ}
    {o : Outcome} (hp : g.parse h text s = (o, s')) (ho : ¬o.Stops) :
    g'.parse h text s = (o, s') := by
  rcases eval_later_inStep hl (g.depth text) false h (.atStart text) s with hs | ⟨hfst, hsnd⟩
  · have hfst : (g.parse h text s).1.Stops := hs
    rw [hp] at hfst
    exact absurd hfst ho
  · have heq : eval g' (g.depth text) false h (.atStart text) s = (o, s') :=
      (Prod.ext hfst hsnd).symm.trans hp
    -- the arena has grown, and with it the depth that the parse goes to
    refine (eval_depth g' (n := g.depth text) ?_).trans heq
    rw [heq]
    rintro rfl
    exact ho trivial

end

theorem Outcome.not_stops_of_consumed? {o : Outcome} {n : Nat} (h : o.consumed? = some n) :
    ¬o.Stops := by
  cases o with
  | matched c => exact id
  | failed c => exact id
  | fault e => cases h
  | exhausted => cases h

/-- Two letters, of which only one is known so far. -/
def sketch : Grammar (List Event) where
  arena := Operation.runAll
    [.literal "a", .forward, .rule "more", .choice [0, 1, 2], .ahead 3, .seq [4, 3, 3]] ∅
  rules := ∅
  actions := .recorder

theorem Grammar.Later.parse_eq_sketch :
    ∃ g, sketch.Later g ∧ g.arena.node? 1 = some (.literal "b") ∧ g.rule? "more" = some 0 ∧
      (sketch.parse 5 "ab" []).1 = .fault (.unresolvedForward 1) ∧
      (sketch.parse 5 "aab" []).1.consumed? = some 2 ∧
      g.parse 5 "aab" [] = sketch.parse 5 "aab" [] := by
  have hl : sketch.Later _ := .define (.operate (.operate (.operate .refl (.literal "b"))
    (.implement 1 6)) (.implement 1 0)) "more" 0 (by decide +kernel)
  have hmatch : (sketch.parse 5 "aab" []).1.consumed? = some 2 := by decide +kernel
  refine ⟨_, hl, rfl, by decide +kernel, by decide +kernel, hmatch, ?_⟩
  exact hl.parse_eq rfl (Outcome.not_stops_of_consumed? hmatch)

end Peg
