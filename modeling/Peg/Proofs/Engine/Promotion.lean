import Peg.Proofs.Arena.Operations
import Peg.Proofs.Engine.Adequacy
import Peg.Regex.Engine

/-!
# Promoted expressions

A forward declaration refers to what was promoted to it, or it has a copy of the content. Neither
changes any more, so that the two expressions match alike from then on. The trees of evaluations of
both are those of the content, with an event of each expression behind.
-/

namespace Peg

universe u

section
variable {a : Arena} {rules : RuleTable} {fwd e : Handle} {node : Node} {t : List Char} {r : Result}

namespace Evaluation

theorem exists_node (hn : a.node? e = some node) (hf : node ≠ .forward)
    (tree : Evaluation a rules (.expr e) t r) :
    ∃ tree' : Evaluation a rules (.node node) t r,
      tree.events = tree'.events ++ r.events t (.expr e) := by
  cases tree with
  | expr _ hn' tree' =>
    obtain rfl := Option.some.inj (hn'.symm.trans hn)
    exact ⟨tree', rfl⟩
  | unresolved hn' => exact absurd (hn' node hn) hf

theorem exists_target (tree : Evaluation a rules (.node (.aliasOf e)) t r) :
    ∃ tree' : Evaluation a rules (.expr e) t r, tree.events = tree'.events := by
  cases tree with
  | aliasOf tree' => exact ⟨tree', rfl⟩
  | terminal h => cases h
  | refusal hn _ => cases hn

end Evaluation

/-- `fwd` matches what `e` does: it refers to `e`, or both have the same content. -/
inductive Arena.Follows (a : Arena) (fwd e : Handle) : Prop
  | byAlias (hn : a.node? fwd = some (.aliasOf e))
  | byCopy {node : Node} (hf : node ≠ .forward) (hfwd : a.node? fwd = some node)
    (he : a.node? e = some node)

namespace Arena.Follows

theorem grows (h : a.Follows fwd e) {a' : Arena} (hg : a.Grows a') : a'.Follows fwd e := by
  cases h with
  | byAlias hn => exact .byAlias (hg fwd _ hn nofun)
  | byCopy hf hfwd he => exact .byCopy hf (hg fwd _ hfwd hf) (hg e _ he hf)

theorem exists_tree (h : a.Follows fwd e) (tree : Evaluation a rules (.expr fwd) t r) :
    Nonempty (Evaluation a rules (.expr e) t r) := by
  cases h with
  | byAlias hn =>
    obtain ⟨tree', -⟩ := tree.exists_node hn nofun
    obtain ⟨tree'', -⟩ := tree'.exists_target
    exact ⟨tree''⟩
  | byCopy hf hfwd he =>
    obtain ⟨tree', -⟩ := tree.exists_node hfwd hf
    exact ⟨.expr e he tree'⟩

/-- Whatever `e` comes to, `fwd` comes to by the same events, up to those of the two themselves. -/
theorem exists_tree_events (h : a.Follows fwd e) (tree : Evaluation a rules (.expr e) t r) :
    ∃ (tree' : Evaluation a rules (.expr fwd) t r) (es : List Event),
      tree'.events = es ++ r.events t (.expr fwd) ∧
        (tree.events = es ∨
          a.node? fwd ≠ some (.aliasOf e) ∧ tree.events = es ++ r.events t (.expr e)) := by
  by_cases hn : a.node? fwd = some (.aliasOf e)
  · exact ⟨.expr fwd hn (.aliasOf tree), tree.events, rfl, .inl rfl⟩
  · cases h with
    | byAlias hn' => exact absurd hn' hn
    | byCopy hf hfwd he =>
      obtain ⟨tree', hev⟩ := tree.exists_node he hf
      exact ⟨.expr fwd hfwd tree', tree'.events, rfl, .inr ⟨hn, hev⟩⟩

end Arena.Follows

theorem Actions.foldl_events {σ : Type u} (acts : Actions σ) (ha : acts.node e = Option.none)
    (t : List Char) (r : Result) (s : σ) : (r.events t (.expr e)).foldl acts.apply s = s := by
  cases r with
  | took n => simp [Result.events, Actions.apply, Actions.for?, ha]
  | refused => rfl
  | fault f => rfl

end

/-! ## Parses -/

section
variable {σ : Type u} {g : Grammar σ} {fwd e : Handle}

theorem Arena.Follows.parse_result (h : g.arena.Follows fwd e) (text : String) (s : σ) :
    (g.parse fwd text s).1.result? = (g.parse e text s).1.result? := by
  apply Option.ext
  intro r
  constructor
  · intro hr
    obtain ⟨tree⟩ := exists_evaluation hr
    obtain ⟨tree'⟩ := h.exists_tree tree
    exact tree'.parse_result g.actions s
  · intro hr
    obtain ⟨tree⟩ := exists_evaluation hr
    obtain ⟨tree', -⟩ := h.exists_tree_events tree
    exact tree'.parse_result g.actions s

theorem Arena.Follows.parse_state (h : g.arena.Follows fwd e) (hfwd : g.actions.node fwd = none)
    (he : g.arena.node? fwd = some (.aliasOf e) ∨ g.actions.node e = none) {text : String} {s : σ}
    (hend : (g.parse e text s).1 ≠ .exhausted) :
    (g.parse fwd text s).2 = (g.parse e text s).2 := by
  obtain ⟨r, hr⟩ := Outcome.exists_result hend
  obtain ⟨tree⟩ := exists_evaluation hr
  obtain ⟨tree', es, hev', hev⟩ := h.exists_tree_events tree
  have hstate : (g.parse fwd text s).2 = es.foldl g.actions.apply s := by
    rw [tree'.parse_state g.actions s, hev', List.foldl_append, g.actions.foldl_events hfwd]
  rw [hstate, tree.parse_state g.actions s]
  rcases hev with hev | ⟨hn, hev⟩
  · rw [hev]
  · rw [hev, List.foldl_append, g.actions.foldl_events (he.resolve_left hn)]

end

/-! ## Operations -/

namespace Operation

open Arena Building

variable {op : Operation} {fwd e : Handle} {a : Arena}

theorem follows_of_run [RegexLibrary] (hop : op = implement fwd e ∨ op = makeAlias fwd e)
    {r : Option Handle} (hr : (op.run a).1 = .ok r) : (op.run a).2.Follows fwd e ∧
      (op = makeAlias fwd e → (op.run a).2.node? fwd = some (.aliasOf e)) := by
  rcases hop with rfl | rfl
  · have hp : a.promote fwd (a.contentOf e) = .ok _ := map_update_eq_ok hr
    have hfwd := (promote_eq hp).2 fwd
    rw [if_pos rfl] at hfwd
    refine ⟨?_, nofun⟩
    rcases a.contentOf_cases e with hc | ⟨hf, he⟩
    · rw [hc] at hfwd
      exact .byAlias hfwd
    · exact .byCopy hf hfwd (promote_grows hp e _ he hf)
  · have hp : a.promote fwd (.aliasOf e) = .ok _ := map_update_eq_ok hr
    have hfwd := (promote_eq hp).2 fwd
    rw [if_pos rfl] at hfwd
    exact ⟨.byAlias hfwd, fun _ => hfwd⟩

/-- What is promoted matches what it was promoted to, whatever becomes of that later on. -/
theorem parse_promoted [RegexLibrary] (hop : op = implement fwd e ∨ op = makeAlias fwd e)
    {r : Option Handle} (hr : (op.run a).1 = .ok r) {later : List Operation} {σ : Type u} {g : Grammar σ}
    (hg : g.arena = runAll later (op.run a).2) (text : String) (s : σ) :
    (g.parse fwd text s).1.result? = (g.parse e text s).1.result? ∧
      ((g.parse e text s).1 ≠ .exhausted → g.actions.node fwd = none →
        op = makeAlias fwd e ∨ g.actions.node e = none →
        (g.parse fwd text s).2 = (g.parse e text s).2) := by
  have hgrows : (op.run a).2.Grows g.arena := hg ▸ (runAll_evolves later _).grows
  obtain ⟨hfollows, halias⟩ := follows_of_run hop hr
  have h := hfollows.grows hgrows
  refine ⟨h.parse_result text s, fun hend hfwd he => h.parse_state hfwd ?_ hend⟩
  exact he.imp_left fun hop => hgrows fwd _ (halias hop) nofun

def placeholders : Arena :=
  runAll [.forward, .forward, .forward, .literal "a", .literal ","] ∅

/-- The first placeholder refers to the second one, which refers to the third one in turn. Each gets
its content after it has been referred to. -/
def listing : Grammar (List Event) where
  arena := runAll
    [.implement 1 2, .implement 1 0, .seq [4, 0], .opt 5, .seq [3, 7], .implement 2 8]
    ((implement 0 1).run placeholders).2
  rules := ∅
  actions := Actions.none.on 3 fun text es => es ++ [.expr 3 text]

theorem parse_promoted_listing :
    (listing.parse 0 "a,a,a;" []).1.result? = some (.took 5) ∧
      (listing.parse 1 "a,a,a;" []).1.result? = some (.took 5) ∧
      (listing.parse 0 "a,a,a;" []).2 = [.expr 3 "a", .expr 3 "a", .expr 3 "a"] := by
  have hend : (listing.parse 1 "a,a,a;" []).1.result? = some (.took 5) := by decide +kernel
  have hevents : (listing.parse 1 "a,a,a;" []).2 = [.expr 3 "a", .expr 3 "a", .expr 3 "a"] := by
    decide +kernel
  have hr : ((implement 0 1).run placeholders).1 = .ok none := by decide +kernel
  have hg : listing.arena = _ := rfl
  obtain ⟨hresult, hstate⟩ := parse_promoted (.inl rfl) hr hg "a,a,a;" []
  refine ⟨hresult.trans hend, hend, (hstate ?_ rfl (.inr rfl)).trans hevents⟩
  intro ho
  rw [ho] at hend
  cases hend

end Operation

end Peg
