import Peg.Proofs.Arena.Slots
import Peg.Proofs.Engine.Evaluation

/-!
# Parses and trees of evaluations

A parse comes to a result when there is a tree with that result, and it leaves the state that the
actions for the events of the tree leave. One direction is by induction on the depth of the
evaluation, the other one by induction on the tree.
-/

namespace Peg

universe u v

/-! ## Verdicts in bytes -/

/-- The verdict on `t`, as a number of bytes. -/
inductive Verdict.InBytes (t : List Char) : Verdict → Result → Prop
  | took {u rest : List Char} (h : t = u ++ rest) : InBytes t (.took rest) (.took (byteLength u))
  | refused : InBytes t .refused .refused
  | fault (e : Fault) : InBytes t (.fault e) (.fault e)

theorem byteLength_cancel {u u' rest rest' : List Char} (h : u ++ rest = u' ++ rest')
    (hl : byteLength u = byteLength u') : u = u' ∧ rest = rest' := by
  have hu : u = u' := by
    rw [← takeBytes_append u rest, h, hl, takeBytes_append]
  exact ⟨hu, List.append_cancel_left (hu ▸ h)⟩

namespace Verdict.InBytes

variable {t u : List Char} {w w' : Verdict} {r r' : Result}

theorem result_unique (h : w.InBytes t r) (h' : w.InBytes t r') : r = r' := by
  cases h with
  | took h =>
    cases h' with
    | took h' => rw [List.append_cancel_right (h.symm.trans h')]
  | refused => cases h'; rfl
  | fault e => cases h'; rfl

theorem eq_took (h : w.InBytes (u ++ t) (.took (byteLength u))) : w = .took t := by
  generalize hr : Result.took (byteLength u) = r at h
  cases h with
  | took h => rw [(byteLength_cancel h (Result.took.inj hr)).2]
  | refused => cases hr
  | fault e => cases hr

theorem eq_took_self (h : w.InBytes t (.took 0)) : w = .took t :=
  eq_took (u := []) h

theorem verdict_unique (h : w.InBytes t r) (h' : w'.InBytes t r) : w = w' := by
  cases h with
  | took h =>
    subst h
    exact h'.eq_took.symm
  | refused => cases h'; rfl
  | fault e => cases h'; rfl

theorem took_self : (Verdict.took t).InBytes t (.took 0) :=
  .took (List.nil_append t).symm

theorem behind (h : w.InBytes t r) : w.InBytes (u ++ t) (r.behind (byteLength u)) := by
  cases h with
  | took h =>
    rw [Result.behind, ← byteLength_append, h, ← List.append_assoc]
    exact .took rfl
  | refused => exact .refused
  | fault e => exact .fault e

end Verdict.InBytes

/-! ## Predicates -/

theorem Verdict.InBytes.lookAhead {t : List Char} {w : Verdict} {r : Result} (h : w.InBytes t r) :
    (w.lookAhead t).InBytes t r.lookAhead := by
  cases h with
  | took h => exact took_self
  | refused => exact .refused
  | fault e => exact .fault e

theorem Verdict.InBytes.negate {t : List Char} {w : Verdict} {r : Result} (h : w.InBytes t r) :
    (w.negate t).InBytes t r.negate := by
  cases h with
  | took h => exact .refused
  | refused => exact took_self
  | fault e => exact .fault e

/-! ## Terminals -/

theorem Cursor.takeIf_cons {c : Cursor} {ch : Char} {t : List Char} {p : Char → Bool}
    (hc : c.rest = [ch] ++ t) (hp : p ch) : ∃ d, c.takeIf p = .matched d ∧ d.rest = t := by
  refine ⟨c.advance 1, ?_, by simp [advance, hc]⟩
  simp [takeIf, hc, hp]

theorem Cursor.takeIf_eq_failed {c : Cursor} {p : Char → Bool}
    (h : ∀ ch t, c.rest = [ch] ++ t → ¬p ch) : c.takeIf p = .failed c := by
  unfold takeIf
  cases hc : c.rest with
  | nil => rfl
  | cons ch t => simp [h ch t hc]

section
variable {σ : Type u} (g : Grammar σ) (quiet : Bool) (h : Handle) (s : σ) {node : Node} {c : Cursor}

theorem evalNode_takes {u t : List Char} (ht : node.Takes u t) (hc : c.rest = u ++ t) :
    ∃ d, d.rest = t ∧ ∀ ev, evalNode g ev quiet h node c s = (.matched d, s) := by
  have one {p : Char → Bool} {ch : Char} (hc : c.rest = [ch] ++ t) (hp : p ch) :
      ∃ d, d.rest = t ∧ ∀ _ : Bool → Handle → Cursor → σ → Outcome × σ,
        (c.takeIf p, s) = (.matched d, s) := by
    obtain ⟨d, hd, hr⟩ := Cursor.takeIf_cons hc hp
    exact ⟨d, hr, fun _ => by rw [hd]⟩
  cases ht with
  | any => exact one hc rfl
  | oneOf hch => exact one hc (List.contains_iff_mem.mpr hch)
  | noneOf hch => exact one hc (by simpa using hch)
  | charRange hlo hhi => exact one hc (by simp [hlo, hhi])
  | charClass hch => exact one hc hch
  | @literal text t =>
    refine ⟨c.advance text.toList.length, by simp [Cursor.advance, hc], fun ev => ?_⟩
    simp [evalNode, Cursor.takeText, hc]
  | @pattern p t start stop hs =>
    rw [List.take_append_drop] at hc
    refine ⟨c.advance stop, by simp [Cursor.advance, hc], fun ev => ?_⟩
    simp [evalNode, Cursor.takePattern, hc, hs]

theorem evalNode_refuses {ev : Bool → Handle → Cursor → σ → Outcome × σ} (hn : node.isTerminal)
    (ht : ∀ u t, c.rest = u ++ t → ¬node.Takes u t) : evalNode g ev quiet h node c s = (.failed c, s) := by
  have one {p : Char → Bool} (hp : ∀ ch t, p ch → node.Takes [ch] t) : c.takeIf p = .failed c :=
    Cursor.takeIf_eq_failed fun ch t hc hch => ht [ch] t hc (hp ch t hch)
  cases node with
  | any => exact Prod.ext (one fun ch t _ => .any) rfl
  | oneOf chars => exact Prod.ext (one fun ch t hch => .oneOf (by simpa using hch)) rfl
  | noneOf chars => exact Prod.ext (one fun ch t hch => .noneOf (by simpa using hch)) rfl
  | charRange lo hi =>
    refine Prod.ext (one fun ch t hch => ?_) rfl
    simp only [Bool.and_eq_true, decide_eq_true_eq] at hch
    exact .charRange hch.1 hch.2
  | charClass cls => exact Prod.ext (one fun ch t hch => .charClass hch) rfl
  | literal text =>
    have hp : ¬text.toList <+: c.rest := fun ⟨t, h⟩ => ht _ t h.symm .literal
    simp [evalNode, Cursor.takeText, hp]
  | pattern p =>
    cases hs : p.search c.rest with
    | none => simp [evalNode, Cursor.takePattern, hs]
    | some m => exact absurd (.pattern hs) (ht _ _ (List.take_append_drop m.2 c.rest).symm)
  | _ => cases hn

end

/-! ## From evaluations to trees -/

def HasTree (a : Arena) (rules : RuleTable) (x : Subject) (t : List Char) (w : Verdict) : Prop :=
  ∃ r, w.InBytes t r ∧ Nonempty (Evaluation a rules x t r)

section
variable {a : Arena} {rules : RuleTable} {t : List Char} {w : Verdict}

theorem HasTree.map {x y : Subject} (h : HasTree a rules x t w)
    (f : ∀ {r}, Evaluation a rules x t r → Evaluation a rules y t r) : HasTree a rules y t w := by
  obtain ⟨r, hr, ⟨e⟩⟩ := h
  exact ⟨r, hr, ⟨f e⟩⟩

theorem HasTree.evaluation {x : Subject} {r : Result} (h : HasTree a rules x t w)
    (hr : w.InBytes t r) : Nonempty (Evaluation a rules x t r) := by
  obtain ⟨r', hr', he⟩ := h
  rwa [hr'.result_unique hr] at he

theorem hasTree_terminal {σ : Type u} {g : Grammar σ} {quiet : Bool} {h : Handle} {node : Node}
    {c : Cursor} {s : σ} {ev : Bool → Handle → Cursor → σ → Outcome × σ} (hn : node.isTerminal)
    (hw : (evalNode g ev quiet h node c s).1.verdict? = some w) :
    HasTree a rules (.node node) c.rest w := by
  by_cases hu : ∃ u t, c.rest = u ++ t ∧ node.Takes u t
  · obtain ⟨u, t, hc, ht⟩ := hu
    obtain ⟨d, rfl, hd⟩ := evalNode_takes g quiet h s ht hc
    rw [hd] at hw
    obtain rfl := Option.some.inj hw
    rw [hc]
    exact ⟨_, .took rfl, ⟨.terminal ht⟩⟩
  · have ht (u t : List Char) (hc : c.rest = u ++ t) : ¬node.Takes u t := fun h => hu ⟨u, t, hc, h⟩
    rw [evalNode_refuses g quiet h s hn ht] at hw
    obtain rfl := Option.some.inj hw
    exact ⟨_, .refused, ⟨.refusal hn ht⟩⟩

end

section
variable {σ : Type u} (g : Grammar σ) (n : Nat) (S : Handle → Prop) (a : Arena) (rules : RuleTable)

def HaveTrees : Prop :=
  ∀ {quiet h c s w}, S h → (eval g n quiet h c s).1.verdict? = some w →
    HasTree a rules (.expr h) c.rest w

def RulesHaveTrees : Prop :=
  ∀ name, (g.rule? name = none → rules[name]? = none) ∧
    ∀ target, g.rule? name = some target → ∃ k, rules[name]? = some k ∧
      ∀ {quiet c s w}, (eval g n quiet target c s).1.verdict? = some w →
        HasTree a rules (.expr k) c.rest w

variable {g n S a rules} (H : HaveTrees g n S a rules) {quiet : Bool} {c : Cursor} {s : σ}
  {w : Verdict}
include H

/-! A part that is evaluated has the tree that its composite needs. -/

theorem HaveTrees.matched {h : Handle} (hS : S h) {d : Cursor} {s' : σ}
    (he : eval g n quiet h c s = (.matched d, s')) :
    ∃ u, c.rest = u ++ d.rest ∧ (d.offset = c.offset ↔ u = []) ∧
      Nonempty (Evaluation a rules (.expr h) (u ++ d.rest) (.took (byteLength u))) := by
  have hd : c.Reaches d := by
    have := eval_liesFrom g n quiet h c s
    rwa [he] at this
  have hh : HasTree a rules (.expr h) c.rest (.took d.rest) := H hS (by rw [he]; rfl)
  obtain ⟨u, hu, -⟩ := hd.exists_between
  refine ⟨u, hu, ?_, ?_⟩
  · rw [hd.offset_eq_iff, hu]
    exact List.self_eq_append_left
  · rw [← hu]
    exact hh.evaluation (.took hu)

theorem HaveTrees.failed {h : Handle} (hS : S h) {d : Cursor} {s' : σ}
    (he : eval g n quiet h c s = (.failed d, s')) :
    Nonempty (Evaluation a rules (.expr h) c.rest .refused) := by
  have hh : HasTree a rules (.expr h) c.rest .refused := H hS (by rw [he]; rfl)
  exact hh.evaluation .refused

theorem HaveTrees.fault {h : Handle} (hS : S h) {f : Fault} {s' : σ}
    (he : eval g n quiet h c s = (.fault f, s')) :
    Nonempty (Evaluation a rules (.expr h) c.rest (.fault f)) := by
  have hh : HasTree a rules (.expr h) c.rest (.fault f) := H hS (by rw [he]; rfl)
  exact hh.evaluation (.fault f)

theorem HaveTrees.all {hs : List Handle} (hS : ∀ k ∈ hs, S k)
    (hw : (allOf (eval g n quiet) hs c s).1.verdict? = some w) :
    HasTree a rules (.all hs) c.rest w := by
  induction hs generalizing c s with
  | nil =>
    obtain rfl := Option.some.inj hw
    exact ⟨_, .took_self, ⟨.allNil⟩⟩
  | cons h hs ih =>
    obtain ⟨hh, hhs⟩ := List.forall_mem_cons.mp hS
    cases he : eval g n quiet h c s with
    | mk o s' =>
    simp only [allOf, he] at hw
    cases o with
    | matched d =>
      obtain ⟨u, hu, -, ⟨e⟩⟩ := H.matched hh he
      obtain ⟨r, hr, ⟨es⟩⟩ := ih hhs hw
      rw [hu]
      exact ⟨_, hr.behind, ⟨.allCons e es⟩⟩
    | failed d =>
      obtain rfl := Option.some.inj hw
      obtain ⟨e⟩ := H.failed hh he
      exact ⟨_, .refused, ⟨.allStop e (by simp)⟩⟩
    | fault f =>
      obtain rfl := Option.some.inj hw
      obtain ⟨e⟩ := H.fault hh he
      exact ⟨_, .fault f, ⟨.allStop e (by simp)⟩⟩
    | exhausted => cases hw

theorem HaveTrees.first {hs : List Handle} (hS : ∀ k ∈ hs, S k)
    (hw : (firstOf (eval g n quiet) hs c s).1.verdict? = some w) :
    HasTree a rules (.first hs) c.rest w := by
  induction hs generalizing s with
  | nil =>
    obtain rfl := Option.some.inj hw
    exact ⟨_, .refused, ⟨.firstNil⟩⟩
  | cons h hs ih =>
    obtain ⟨hh, hhs⟩ := List.forall_mem_cons.mp hS
    cases he : eval g n quiet h c s with
    | mk o s' =>
    simp only [firstOf, he] at hw
    cases o with
    | matched d =>
      obtain rfl := Option.some.inj hw
      obtain ⟨u, hu, -, ⟨e⟩⟩ := H.matched hh he
      rw [hu]
      exact ⟨_, .took rfl, ⟨.firstHead e (by simp)⟩⟩
    | failed d =>
      obtain ⟨e⟩ := H.failed hh he
      obtain ⟨r, hr, ⟨es⟩⟩ := ih hhs hw
      exact ⟨r, hr, ⟨.firstCons e es⟩⟩
    | fault f =>
      obtain rfl := Option.some.inj hw
      obtain ⟨e⟩ := H.fault hh he
      exact ⟨_, .fault f, ⟨.firstHead e (by simp)⟩⟩
    | exhausted => cases hw

theorem HaveTrees.again {h : Handle} (hS : S h) :
    ∀ {ahead : List Char} {enough : Bool} {c : Cursor} {s : σ} {w : Verdict},
      (many (eval g n quiet) h ahead enough c s).1.verdict? = some w →
      HasTree a rules (.again h enough) c.rest w
  | ahead, enough, c, s, w, hw => by
    rw [many.eq_def] at hw
    cases he : eval g n quiet h c s with
    | mk o s' =>
    simp only [he] at hw
    cases o with
    | failed d =>
      obtain ⟨e⟩ := H.failed hS he
      refine ⟨_, ?_, ⟨.againStop e⟩⟩
      cases enough with
      | true =>
        obtain rfl := Option.some.inj hw
        exact .took_self
      | false =>
        obtain rfl := Option.some.inj hw
        exact .refused
    | fault f =>
      obtain rfl := Option.some.inj hw
      obtain ⟨e⟩ := H.fault hS he
      exact ⟨_, .fault f, ⟨.againFault e⟩⟩
    | exhausted => cases hw
    | matched d =>
      obtain ⟨u, hu, hempty, ⟨e⟩⟩ := H.matched hS he
      rw [hu]
      by_cases hz : d.offset = c.offset
      · simp only [if_pos hz] at hw
        obtain rfl := Option.some.inj hw
        obtain rfl := hempty.mp hz
        exact ⟨_, .took_self, ⟨.againIdle e⟩⟩
      · simp only [if_neg hz] at hw
        cases ahead with
        | nil => cases hw
        | cons _ ahead =>
          obtain ⟨r, hr, ⟨es⟩⟩ := HaveTrees.again hS hw
          exact ⟨_, hr.behind, ⟨.againStep e (mt hempty.mpr hz) es⟩⟩

theorem HaveTrees.node (hr : RulesHaveTrees g n a rules) {h : Handle} {node : Node}
    (hf : node ≠ .forward) (hS : ∀ k ∈ node.parts, S k)
    (hw : (evalNode g (eval g n) quiet h node c s).1.verdict? = some w) :
    HasTree a rules (.node node) c.rest w := by
  cases node with
  | any | oneOf | noneOf | literal | charRange | charClass | pattern => exact hasTree_terminal rfl hw
  | sequence items => exact (H.all hS hw).map .sequence
  | choice items => exact (H.first hS hw).map .choice
  | zeroOrMore item => exact (H.again (hS item List.mem_cons_self) hw).map .zeroOrMore
  | oneOrMore item => exact (H.again (hS item List.mem_cons_self) hw).map .oneOrMore
  | ahead item =>
    simp only [evalNode, Prod.map_fst, Outcome.verdict?_lookAhead] at hw
    obtain ⟨w', hw', rfl⟩ := Option.map_eq_some_iff.mp hw
    obtain ⟨r, hr, ⟨e⟩⟩ := H (hS item List.mem_cons_self) hw'
    exact ⟨_, hr.lookAhead, ⟨.ahead e⟩⟩
  | notAhead item =>
    simp only [evalNode, Prod.map_fst, Outcome.verdict?_negate] at hw
    obtain ⟨w', hw', rfl⟩ := Option.map_eq_some_iff.mp hw
    obtain ⟨r, hr, ⟨e⟩⟩ := H (hS item List.mem_cons_self) hw'
    exact ⟨_, hr.negate, ⟨.notAhead e⟩⟩
  | rule name =>
    simp only [evalNode] at hw
    obtain ⟨hnone, hsome⟩ := hr name
    cases hg : g.rule? name with
    | none =>
      rw [hg] at hw
      obtain rfl := Option.some.inj hw
      exact ⟨_, .fault _, ⟨.noRule (hnone hg)⟩⟩
    | some target =>
      rw [hg] at hw
      simp only [fire_outcome] at hw
      obtain ⟨k, hk, htree⟩ := hsome target hg
      exact (htree hw).map (.rule name hk)
  | aliasOf target => exact (H (hS target List.mem_cons_self) hw).map .aliasOf
  | forward => exact absurd rfl hf

/-- One level deeper, the trees for an expression are there if its parts have theirs. -/
theorem HaveTrees.expr (hr : RulesHaveTrees g n a rules) {h : Handle} (hn : g.arena.node? h = a.node? h)
    (hS : ∀ node, a.node? h = some node → ∀ k ∈ node.parts, S k)
    (hw : (eval g (n + 1) quiet h c s).1.verdict? = some w) : HasTree a rules (.expr h) c.rest w := by
  unfold eval at hw
  rw [hn] at hw
  cases hnode : a.node? h with
  | none =>
    rw [hnode] at hw
    obtain rfl := Option.some.inj hw
    exact ⟨_, .fault _, ⟨.unresolved (by simp [hnode])⟩⟩
  | some node =>
    rw [hnode] at hw
    simp only [fire_outcome] at hw
    by_cases hf : node = .forward
    · subst hf
      obtain rfl := Option.some.inj hw
      exact ⟨_, .fault _, ⟨.unresolved fun node hn => Option.some.inj (hn.symm.trans hnode)⟩⟩
    · exact (H.node hr hf (hS node hnode) hw).map (.expr h hnode)

end

theorem haveTrees {σ : Type u} (g : Grammar σ) (n : Nat) :
    HaveTrees g n (fun _ => True) g.arena g.rules := by
  induction n with
  | zero =>
    intro quiet h c s w _ hw
    cases hw
  | succ n ih =>
    intro quiet h c s w _ hw
    refine ih.expr (fun name => ⟨id, fun target ht => ⟨target, ht, fun hw => ih trivial hw⟩⟩) rfl ?_ hw
    exact fun _ _ _ _ => trivial

/-! ## From trees to evaluations -/

section
variable {σ : Type u} {acts : Actions σ} {quiet : Bool} {s : σ} {t : List Char} {w : Verdict}

/-- Firing on a match comes to the same as applying its event. -/
theorem firedOn_eq_after (event : String → Event) {act : Option (Action σ)} {r : Result}
    (ha : ∀ text, acts.for? (event text) = act) (ht : ∀ text, (event text).text = text)
    (hw : w.InBytes t r) : firedOn quiet act t s w = acts.after quiet s (r.events t event) := by
  cases hw with
  | @took u rest h =>
    subst h
    cases act <;> cases quiet <;>
      simp [firedOn, Actions.after, Actions.apply, Result.events, ha, ht, takeBytes_append]
  | refused => simp [firedOn, Result.events]
  | fault e => simp [firedOn, Result.events]

end

section
variable {σ : Type u} (g : Grammar σ) (quiet : Bool) (s : σ)

def Comes : Subject → List Char → Verdict → σ → Prop
  | .expr h, t, w, s' => Yields g quiet h t s w s'
  | .node node, t, w, s' => ∀ h, Ends (fun n c => evalNode g (eval g n) quiet h node c s) t w s'
  | .all hs, t, w, s' => YieldsAll g quiet hs t s w s'
  | .first hs, t, w, s' => YieldsFirst g quiet hs t s w s'
  | .again h enough, t, w, s' => YieldsMany g quiet h enough t s w s'

variable {g quiet s} {node : Node} {t : List Char} {w : Verdict} {s' : σ}

theorem ends_takes {u : List Char} (h : Handle) (ht : node.Takes u t) :
    Ends (fun n c => evalNode g (eval g n) quiet h node c s) (u ++ t) (.took t) s := by
  intro c hc
  obtain ⟨d, hd, he⟩ := evalNode_takes g quiet h s ht hc
  exact ⟨.matched d, congrArg (some ∘ Verdict.took) hd, 0, fun m _ => he (eval g m)⟩

theorem ends_refuses (h : Handle) (hn : node.isTerminal) (ht : ∀ u t', t = u ++ t' → ¬node.Takes u t') :
    Ends (fun n c => evalNode g (eval g n) quiet h node c s) t .refused s :=
  .of_eq fun c hc => ⟨.failed c, rfl, fun _ => evalNode_refuses g quiet h s hn (hc ▸ ht)⟩

theorem ends_rule {name : String} {target : Handle} (h : Handle) (hr : g.rule? name = some target)
    (hy : Yields g quiet target t s w s') :
    Ends (fun n c => evalNode g (eval g n) quiet h (.rule name) c s) t w
      (firedOn quiet (g.actions.rule name) t s' w) := by
  intro c hc
  obtain ⟨o, ho, n, hn⟩ := hy.settles c hc
  have hlies : o.LiesFrom c := by
    have := eval_liesFrom g n quiet target c s
    rwa [hn n (Nat.le_refl n)] at this
  refine ⟨o, ho, n, fun m hm => ?_⟩
  simp only [evalNode, hr, hn m hm, fire_eq_firedOn ho hlies, hc]

theorem ends_noRule {name : String} (h : Handle) (hr : g.rule? name = none) :
    Ends (fun n c => evalNode g (eval g n) quiet h (.rule name) c s) t (.fault (.noSuchRule name)) s :=
  .of_eq fun c _ => ⟨.fault (.noSuchRule name), rfl, fun _ => by simp only [evalNode, hr]⟩

theorem yields_unresolved {h : Handle} (hn : ∀ node, g.arena.node? h = some node → node = .forward) :
    Yields g quiet h t s (.fault (.unresolvedForward h)) s := by
  intro c _
  refine ⟨.fault (.unresolvedForward h), rfl, 1, fun m hm => ?_⟩
  obtain ⟨m, rfl⟩ : ∃ k, m = k + 1 := ⟨m - 1, by omega⟩
  cases hnode : g.arena.node? h with
  | none => simp only [eval, hnode]
  | some node =>
    obtain rfl := hn node hnode
    simp only [eval, hnode, evalNode, fire]

end

/-- A tree tells what the engine makes of its subject, whatever the actions are. -/
theorem Evaluation.comes {a : Arena} {rules : RuleTable} {x : Subject} {t : List Char} {r : Result}
    (e : Evaluation a rules x t r) {σ : Type u} (acts : Actions σ) (quiet : Bool) (s : σ) :
    ∃ w, w.InBytes t r ∧ Comes ⟨a, rules, acts⟩ quiet s x t w (acts.after quiet s e.events) := by
  induction e generalizing quiet s with
  | expr h hn e ih =>
    obtain ⟨w, hw, hc⟩ := ih quiet s
    refine ⟨w, hw, ?_⟩
    simp only [events, acts.after_append,
      ← firedOn_eq_after (.expr h) (fun _ => rfl) (fun _ => rfl) hw]
    exact yields_node (g := ⟨a, rules, acts⟩) hn (hc h)
  | unresolved hn =>
    simp only [events, acts.after_nil]
    exact ⟨_, .fault _, yields_unresolved (g := ⟨a, rules, acts⟩) hn⟩
  | terminal ht =>
    simp only [events, acts.after_nil]
    exact ⟨_, .took rfl, fun h => ends_takes h ht⟩
  | refusal hn ht =>
    simp only [events, acts.after_nil]
    exact ⟨_, .refused, fun h => ends_refuses h hn ht⟩
  | sequence e ih | choice e ih =>
    obtain ⟨w, hw, hc⟩ := ih quiet s
    exact ⟨w, hw, fun _ => hc⟩
  | zeroOrMore e ih =>
    obtain ⟨w, hw, hc⟩ := ih quiet s
    exact ⟨w, hw, fun _ => ends_zeroOrMore hc⟩
  | oneOrMore e ih =>
    obtain ⟨w, hw, hc⟩ := ih quiet s
    exact ⟨w, hw, fun _ => ends_oneOrMore hc⟩
  | ahead e ih =>
    obtain ⟨w, hw, hc⟩ := ih true s
    simp only [events, acts.after_nil]
    exact ⟨_, hw.lookAhead, fun h => ends_predicate Outcome.verdict?_lookAhead hc⟩
  | notAhead e ih =>
    obtain ⟨w, hw, hc⟩ := ih true s
    simp only [events, acts.after_nil]
    exact ⟨_, hw.negate, fun h => ends_predicate Outcome.verdict?_negate hc⟩
  | rule name hr e ih =>
    obtain ⟨w, hw, hc⟩ := ih quiet s
    refine ⟨w, hw, fun h => ?_⟩
    simp only [events, acts.after_append,
      ← firedOn_eq_after (.rule name) (fun _ => rfl) (fun _ => rfl) hw]
    exact ends_rule h hr hc
  | noRule hr =>
    simp only [events, acts.after_nil]
    exact ⟨_, .fault _, fun h => ends_noRule h hr⟩
  | aliasOf e ih =>
    obtain ⟨w, hw, hc⟩ := ih quiet s
    exact ⟨w, hw, fun _ => hc⟩
  | allNil =>
    simp only [events, acts.after_nil]
    exact ⟨_, .took_self, yieldsAll_nil⟩
  | allCons e es ih ihs =>
    obtain ⟨w, hw, hc⟩ := ih quiet s
    obtain rfl := hw.eq_took
    obtain ⟨w, hw, hcs⟩ := ihs quiet (acts.after quiet s e.events)
    simp only [events, acts.after_append]
    exact ⟨w, hw.behind, yieldsAll_cons hc hcs⟩
  | allStop e hr ih =>
    obtain ⟨w, hw, hc⟩ := ih quiet s
    refine ⟨w, hw, ?_⟩
    cases hw with
    | took h => exact absurd rfl (hr _)
    | refused => exact yieldsAll_refused hc
    | fault f => exact yieldsAll_fault hc
  | firstNil =>
    simp only [events, acts.after_nil]
    exact ⟨_, .refused, yieldsFirst_nil⟩
  | firstHead e hr ih =>
    obtain ⟨w, hw, hc⟩ := ih quiet s
    refine ⟨w, hw, yieldsFirst_head hc ?_⟩
    rintro rfl
    exact hr (hw.result_unique .refused)
  | firstCons e es ih ihs =>
    obtain ⟨w, hw, hc⟩ := ih quiet s
    cases hw
    obtain ⟨w, hw, hcs⟩ := ihs quiet (acts.after quiet s e.events)
    simp only [events, acts.after_append]
    exact ⟨w, hw, yieldsFirst_cons hc hcs⟩
  | @againStop h enough t e ih =>
    obtain ⟨w, hw, hc⟩ := ih quiet s
    cases hw
    refine ⟨_, ?_, yieldsMany_stop hc⟩
    cases enough with
    | true => exact .took_self
    | false => exact .refused
  | againFault e ih =>
    obtain ⟨w, hw, hc⟩ := ih quiet s
    cases hw
    exact ⟨_, .fault _, yieldsMany_fault hc⟩
  | againIdle e ih =>
    obtain ⟨w, hw, hc⟩ := ih quiet s
    obtain rfl := hw.eq_took_self
    exact ⟨_, hw, yieldsMany_idle hc⟩
  | againStep e hu es ih ihs =>
    obtain ⟨w, hw, hc⟩ := ih quiet s
    obtain rfl := hw.eq_took
    obtain ⟨w, hw, hcs⟩ := ihs quiet (acts.after quiet s e.events)
    simp only [events, acts.after_append]
    exact ⟨w, hw.behind, yieldsMany_step hc (fun h => hu (List.self_eq_append_left.mp h)) hcs⟩

/-! ## Parses -/

theorem Outcome.result?_eq_some_iff {o : Outcome} {text : String} (ho : o.LiesFrom (.atStart text))
    {r : Result} : o.result? = some r ↔ ∃ w, o.verdict? = some w ∧ w.InBytes text.toList r := by
  have key {w : Verdict} {r' : Result} (hv : o.verdict? = some w) (hw : w.InBytes text.toList r')
      (hr' : o.result? = some r') :
      o.result? = some r ↔ ∃ w, o.verdict? = some w ∧ w.InBytes text.toList r := by
    constructor
    · intro hr
      obtain rfl := Option.some.inj (hr.symm.trans hr')
      exact ⟨w, hv, hw⟩
    · rintro ⟨w', hv', hw'⟩
      obtain rfl := Option.some.inj (hv.symm.trans hv')
      rw [hr', hw.result_unique hw']
  cases o with
  | matched d =>
    obtain ⟨u, hu, hd⟩ := Cursor.Reaches.exists_between ho
    refine key rfl (.took hu) ?_
    rw [result?, hd]
    exact congrArg (some ∘ Result.took) (Nat.zero_add _)
  | failed d => exact key rfl .refused rfl
  | fault e => exact key rfl (.fault e) rfl
  | exhausted => simp [result?, verdict?]

/-- A parse comes to a result when that is what the expression yields on the text, in bytes. -/
theorem parse_result?_eq_some_iff {σ : Type u} {g : Grammar σ} {h : Handle} {text : String} {s : σ}
    {r : Result} : (g.parse h text s).1.result? = some r ↔
      ∃ w s', Yields g false h text.toList s w s' ∧ w.InBytes text.toList r := by
  rw [Outcome.result?_eq_some_iff (parse_liesFrom ..)]
  constructor
  · rintro ⟨w, hv, hw⟩
    obtain ⟨s', hy⟩ := parse_verdict?_eq_some_iff.mp hv
    exact ⟨w, s', hy, hw⟩
  · rintro ⟨w, s', hy, hw⟩
    exact ⟨w, parse_verdict?_eq_some_iff.mpr ⟨s', hy⟩, hw⟩

theorem exists_evaluation {σ : Type u} {g : Grammar σ} {h : Handle} {text : String} {s : σ}
    {r : Result} (hr : (g.parse h text s).1.result? = some r) :
    Nonempty (Evaluation g.arena g.rules (.expr h) text.toList r) := by
  obtain ⟨w, hv, hw⟩ := (Outcome.result?_eq_some_iff (parse_liesFrom ..)).mp hr
  exact (haveTrees g (g.depth text) trivial hv).evaluation hw

theorem Evaluation.parse_result {a : Arena} {rules : RuleTable} {h : Handle} {text : String}
    {r : Result} (e : Evaluation a rules (.expr h) text.toList r) {σ : Type u} (acts : Actions σ)
    (s : σ) : (Grammar.parse ⟨a, rules, acts⟩ h text s).1.result? = some r := by
  obtain ⟨w, hw, hy⟩ := e.comes acts false s
  exact parse_result?_eq_some_iff.mpr ⟨w, _, hy, hw⟩

/-- A parse comes to a result when the rules of parsing expression grammars give that result. -/
theorem parse_result_iff {σ : Type u} (g : Grammar σ) (h : Handle) (text : String) (s : σ)
    (r : Result) : (g.parse h text s).1.result? = some r ↔
      Nonempty (Evaluation g.arena g.rules (.expr h) text.toList r) := by
  constructor
  · exact exists_evaluation
  · rintro ⟨e⟩
    exact e.parse_result g.actions s

theorem Evaluation.parse_state {a : Arena} {rules : RuleTable} {h : Handle} {text : String}
    {r : Result} (e : Evaluation a rules (.expr h) text.toList r) {σ : Type u} (acts : Actions σ)
    (s : σ) : (Grammar.parse ⟨a, rules, acts⟩ h text s).2 = e.events.foldl acts.apply s := by
  obtain ⟨w, -, hy⟩ := e.comes acts false s
  obtain ⟨o, hp, -⟩ := parse_iff_yields.mp hy
  rw [hp]
  rfl

/-- The events of a tree are those that a parse with recording actions writes down. -/
theorem Evaluation.events_eq {a : Arena} {rules : RuleTable} {h : Handle} {text : String}
    {r : Result} (e : Evaluation a rules (.expr h) text.toList r) :
    e.events = (Grammar.parse ⟨a, rules, .recorder⟩ h text []).2 := by
  rw [e.parse_state, Actions.foldl_recorder, List.nil_append]

/-- Actions see the matches outside of predicates, in the order in which they end, and nothing else:
for a parse that comes to an end there is one list of events, for all that actions may do and for all
states. -/
theorem parse_state_eq_foldl {τ : Type v} {a : Arena} {rules : RuleTable} {h : Handle}
    {text : String} {acts₀ : Actions τ} {s₀ : τ}
    (hend : (Grammar.parse ⟨a, rules, acts₀⟩ h text s₀).1 ≠ .exhausted) :
    ∃ (r : Result) (e : Evaluation a rules (.expr h) text.toList r),
      ∀ (σ : Type u) (acts : Actions σ) (s : σ),
        (Grammar.parse ⟨a, rules, acts⟩ h text s).1.result? = some r ∧
          (Grammar.parse ⟨a, rules, acts⟩ h text s).2 =
            (e.events.filter acts.attends).foldl acts.apply s := by
  obtain ⟨r, hr⟩ : ∃ r, (Grammar.parse ⟨a, rules, acts₀⟩ h text s₀).1.result? = some r := by
    cases ho : (Grammar.parse ⟨a, rules, acts₀⟩ h text s₀).1 with
    | exhausted => exact absurd ho hend
    | _ => exact ⟨_, rfl⟩
  obtain ⟨e⟩ := exists_evaluation hr
  refine ⟨r, e, fun σ acts s => ⟨e.parse_result acts s, ?_⟩⟩
  rw [e.parse_state, acts.foldl_filter_attends]

/-- Words with blanks between them, up to a word with a mark behind it: the expression for them, the
one for the blank and the one for the letters of a word, in their arena. -/
def phrase : (Handle × Handle × Handle) × Arena :=
  (do
    let letters ← Building.plus (← Building.oneOf "abc")
    let word ← Building.rule "word"
    let blank ← Building.oneOf " "
    let marked ← Building.seq [word, ← Building.oneOf "!"]
    let further ← Building.seq [blank, ← Building.notAhead marked, word]
    return (← Building.seq [word, ← Building.star further], blank, letters)) ∅

def phraseRules : RuleTable :=
  Std.TreeMap.empty.insert "word" phrase.1.2.2

/-- The blank of the pass that fails is seen, the word that is only looked at is not. -/
theorem parse_state_eq_foldl_phrase :
    (Grammar.parse ⟨phrase.2, phraseRules, .none⟩ phrase.1.1 "ab c a!" ()).1 ≠ .exhausted ∧
      ∃ (r : Result) (e : Evaluation phrase.2 phraseRules (.expr phrase.1.1) "ab c a!".toList r),
        (∀ (σ : Type) (acts : Actions σ) (s : σ),
          (Grammar.parse ⟨phrase.2, phraseRules, acts⟩ phrase.1.1 "ab c a!" s).1.result? = some r ∧
            (Grammar.parse ⟨phrase.2, phraseRules, acts⟩ phrase.1.1 "ab c a!" s).2 =
              (e.events.filter acts.attends).foldl acts.apply s) ∧
          (e.events.filter fun
            | .expr h _ => h = phrase.1.2.1 ∨ h = phrase.1.2.2
            | .rule _ _ => true) =
            [.expr phrase.1.2.2 "ab", .rule "word" "ab", .expr phrase.1.2.1 " ",
              .expr phrase.1.2.2 "c", .rule "word" "c", .expr phrase.1.2.1 " "] := by
  have hend : (Grammar.parse ⟨phrase.2, phraseRules, .none⟩ phrase.1.1 "ab c a!" ()).1 ≠
      .exhausted := by
    decide +kernel
  obtain ⟨r, e, he⟩ := parse_state_eq_foldl hend
  refine ⟨hend, r, e, he, ?_⟩
  rw [e.events_eq]
  decide +kernel

end Peg
