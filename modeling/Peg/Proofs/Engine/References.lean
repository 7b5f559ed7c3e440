import Peg.Proofs.Arena.Slots
import Peg.Proofs.Engine.Adequacy

/-!
# References between expressions

An expression refers to its parts and, if it names a rule, to the one that stands in the table. What
happens in an evaluation happens among the expressions that its subject leads to: its events, and
the fault that it may end with.
-/

namespace Peg

universe u

section
variable (a : Arena) (rules : RuleTable)

def Refers (i j : Handle) : Prop :=
  a.HasPart i j ∨ ∃ name, a.node? i = some (.rule name) ∧ rules[name]? = some j

def Leads (i j : Handle) : Prop :=
  Relation.ReflTransGen (Refers a rules) i j

/-- Nothing in `S` refers to anything else. -/
def Arena.Closed (S : Handle → Prop) : Prop :=
  ∀ i j, S i → Refers a rules i j → S j

end

section
variable (a : Arena) (S : Handle → Prop)

def Subject.Among : Subject → Prop
  | .expr h | .again h _ => S h
  | .node content => ∃ k, S k ∧ a.node? k = some content
  | .all hs | .first hs => ∀ k ∈ hs, S k

def Event.Among : Event → Prop
  | .expr h _ => S h
  | .rule name _ => ∃ k, S k ∧ a.node? k = some (.rule name)

def Fault.Among : Fault → Prop
  | .unresolvedForward h => S h ∧ ∀ node, a.node? h = some node → node = .forward
  | .noSuchRule name => ∃ k, S k ∧ a.node? k = some (.rule name)

end

section
variable {a : Arena} {rules : RuleTable} {S : Handle → Prop} {x : Subject} {t : List Char} {r : Result}

theorem Subject.Among.part (hS : a.Closed rules S) {node : Node} (hx : (Subject.node node).Among a S)
    {k : Handle} (hk : k ∈ node.parts) : S k := by
  obtain ⟨h, hh, hn⟩ := hx
  exact hS h k hh (.inl ⟨node, hn, hk⟩)

theorem Subject.Among.target (hS : a.Closed rules S) {name : String}
    (hx : (Subject.node (.rule name)).Among a S) {k : Handle} (hr : rules[name]? = some k) : S k := by
  obtain ⟨h, hh, hn⟩ := hx
  exact hS h k hh (.inr ⟨name, hn, hr⟩)

theorem Result.mem_events {event : String → Event} {ev : Event} (h : ev ∈ r.events t event) :
    ∃ text, ev = event text := by
  cases r with
  | took n => exact ⟨_, List.mem_singleton.mp h⟩
  | refused => cases h
  | fault e => cases h

theorem Result.behind_eq_fault {k : Nat} {f : Fault} (h : r.behind k = .fault f) : r = .fault f := by
  cases r <;> first | exact h | cases h

theorem Result.lookAhead_eq_fault {f : Fault} (h : r.lookAhead = .fault f) : r = .fault f := by
  cases r <;> first | exact h | cases h

theorem Result.negate_eq_fault {f : Fault} (h : r.negate = .fault f) : r = .fault f := by
  cases r <;> first | exact h | cases h

/-- Nothing happens outside of a closed set of expressions. -/
theorem Evaluation.among (hS : a.Closed rules S) (e : Evaluation a rules x t r) (hx : x.Among a S) :
    (∀ ev ∈ e.events, ev.Among a S) ∧ ∀ f, r = .fault f → f.Among a S := by
  induction e with
  | @expr h node t r hn e ih =>
    obtain ⟨hev, hf⟩ := ih ⟨h, hx, hn⟩
    refine ⟨fun ev hmem => ?_, hf⟩
    rcases List.mem_append.mp hmem with hmem | hmem
    · exact hev ev hmem
    · obtain ⟨text, rfl⟩ := Result.mem_events hmem
      exact hx
  | @rule name target t r hr e ih =>
    obtain ⟨hev, hf⟩ := ih (hx.target hS hr)
    refine ⟨fun ev hmem => ?_, hf⟩
    rcases List.mem_append.mp hmem with hmem | hmem
    · exact hev ev hmem
    · obtain ⟨text, rfl⟩ := Result.mem_events hmem
      exact hx
  | unresolved hn =>
    refine ⟨nofun, fun f hf => ?_⟩
    obtain rfl := Result.fault.inj hf
    exact ⟨hx, hn⟩
  | noRule hr =>
    refine ⟨nofun, fun f hf => ?_⟩
    obtain rfl := Result.fault.inj hf
    exact hx
  | terminal h => exact ⟨nofun, nofun⟩
  | refusal hn h => exact ⟨nofun, nofun⟩
  | allNil => exact ⟨nofun, nofun⟩
  | firstNil => exact ⟨nofun, nofun⟩
  | ahead e ih =>
    refine ⟨nofun, fun f hf => ?_⟩
    exact (ih (hx.part hS (List.mem_singleton_self _))).2 f (Result.lookAhead_eq_fault hf)
  | notAhead e ih =>
    refine ⟨nofun, fun f hf => ?_⟩
    exact (ih (hx.part hS (List.mem_singleton_self _))).2 f (Result.negate_eq_fault hf)
  | sequence e ih => exact ih fun k hk => hx.part hS hk
  | choice e ih => exact ih fun k hk => hx.part hS hk
  | zeroOrMore e ih => exact ih (hx.part hS (List.mem_singleton_self _))
  | oneOrMore e ih => exact ih (hx.part hS (List.mem_singleton_self _))
  | aliasOf e ih => exact ih (hx.part hS (List.mem_singleton_self _))
  | allCons e es ih ihs =>
    obtain ⟨hev, -⟩ := ih (hx _ List.mem_cons_self)
    obtain ⟨hevs, hfs⟩ := ihs fun k hk => hx k (List.mem_cons_of_mem _ hk)
    exact ⟨List.forall_mem_append.mpr ⟨hev, hevs⟩, fun f hf => hfs f (Result.behind_eq_fault hf)⟩
  | firstCons e es ih ihs =>
    obtain ⟨hev, -⟩ := ih (hx _ List.mem_cons_self)
    obtain ⟨hevs, hfs⟩ := ihs fun k hk => hx k (List.mem_cons_of_mem _ hk)
    exact ⟨List.forall_mem_append.mpr ⟨hev, hevs⟩, hfs⟩
  | againStep e hu es ih ihs =>
    obtain ⟨hev, -⟩ := ih hx
    obtain ⟨hevs, hfs⟩ := ihs hx
    exact ⟨List.forall_mem_append.mpr ⟨hev, hevs⟩, fun f hf => hfs f (Result.behind_eq_fault hf)⟩
  | allStop e hr ih => exact ih (hx _ List.mem_cons_self)
  | firstHead e hr ih => exact ih (hx _ List.mem_cons_self)
  | @againStop h enough t e ih =>
    refine ⟨(ih hx).1, fun f hf => ?_⟩
    cases enough <;> cases hf
  | againFault e ih => exact ih hx
  | againIdle e ih => exact ⟨(ih hx).1, nofun⟩

/-- Where no actions are attached, the state is left alone. -/
theorem Yields.untouched {σ : Type u} {g : Grammar σ} (hS : g.arena.Closed g.rules S)
    (hnode : ∀ k, S k → g.actions.node k = none) (hrule : ∀ name, g.actions.rule name = none)
    {h : Handle} (hh : S h) {s s' : σ} {v : Verdict} (hy : Yields g false h t s v s') : s' = s := by
  rw [← String.toList_ofList (l := t)] at hy
  obtain ⟨o, hp, ho⟩ := parse_iff_yields.mp hy
  obtain ⟨r, hr⟩ : ∃ r, o.result? = some r := by
    apply Outcome.exists_result
    rintro rfl
    cases ho
  obtain ⟨e⟩ := exists_evaluation (by rw [hp]; exact hr)
  have hstate : s' = e.events.foldl g.actions.apply s := by
    rw [← e.parse_state g.actions s, hp]
  have hnone : e.events.filter g.actions.attends = [] := by
    refine List.filter_eq_nil_iff.mpr fun ev hev => ?_
    have hamong := (e.among hS hh).1 ev hev
    cases ev with
    | expr k _ => simp [Actions.attends, Actions.for?, hnode k hamong]
    | rule name _ => simp [Actions.attends, Actions.for?, hrule name]
  rw [hstate, ← g.actions.foldl_filter_attends, hnone]
  rfl

end

end Peg
