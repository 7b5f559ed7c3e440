import Peg.Proofs.Arena.Operations
import Peg.Proofs.Engine.Promotion
import Peg.Regex.Engine

/-!
# Laws of repetitions

Any number of passes are at least one pass or nothing, and at least one pass is one with any number of
others behind it. How repetitions go on is told by the first pass, `FirstPass`, wherever in a text
they stand. Only where the first pass takes nothing does the second law cost a pass more.
-/

namespace Peg

universe u

/-! ## Repetitions of an expression -/

/-- Any number of passes, and at least one; the latter or nothing, and a pass with any number of others
behind it. -/
structure Repetitions where
  star : Handle
  plus : Handle
  perhaps : Handle
  unrolled : Handle

namespace Repetitions

def build (e : Handle) : Building Repetitions := do
  let star ← Building.star e
  let plus ← Building.plus e
  let perhaps ← Building.opt plus
  let unrolled ← Building.seq [e, star]
  return ⟨star, plus, perhaps, unrolled⟩

def nodes (e : Handle) (n : Nat) : List Node :=
  [.zeroOrMore e, .oneOrMore e, .sequence [], .choice [n + 1, n + 2], .sequence [e, n]]

theorem build_eq (e : Handle) (a : Arena) : build e a =
    (⟨a.size, a.size + 1, a.size + 3, a.size + 4⟩, a.pushAll (nodes e a.size)) := by
  simp only [build, Building.star, Building.plus, Building.opt, Building.seq, Building.choice,
    Building.alloc, bind, StateT.bind, nodes, Arena.pushAll, Arena.push, Arena.size, Array.size_push]
  rfl

section
variable {σ : Type u}

/-- The grammar has these expressions, without actions of their own. -/
structure In (r : Repetitions) (e : Handle) (g : Grammar σ) : Prop where
  star : g.arena.node? r.star = some (.zeroOrMore e)
  star_silent : g.actions.node r.star = none
  plus : g.arena.node? r.plus = some (.oneOrMore e)
  plus_silent : g.actions.node r.plus = none
  perhaps : ∃ nothing, g.arena.node? r.perhaps = some (.choice [r.plus, nothing]) ∧
    g.arena.node? nothing = some (.sequence []) ∧ g.actions.node nothing = none
  perhaps_silent : g.actions.node r.perhaps = none
  unrolled : g.arena.node? r.unrolled = some (.sequence [e, r.star])
  unrolled_silent : g.actions.node r.unrolled = none

/-- They are there once they have been built, whatever the arena becomes later on. -/
theorem in_of_build {e : Handle} {a : Arena} {g : Grammar σ} (hg : (build e a).2.Grows g.arena)
    (ha : ∀ h, a.size ≤ h → g.actions.node h = none) : (build e a).1.In e g := by
  rw [build_eq] at hg ⊢
  have hnode {i : Nat} {node : Node} (hn : (nodes e a.size)[i]? = some node) (hf : node ≠ .forward) :
      g.arena.node? (a.size + i) = some node :=
    hg _ node ((a.node?_pushAll _ i).trans hn) hf
  have hsilent (i : Nat) : g.actions.node (a.size + i) = none := ha _ (Nat.le_add_right _ _)
  exact
    { star := hnode (i := 0) rfl (by simp)
      star_silent := hsilent 0
      plus := hnode rfl (by simp)
      plus_silent := hsilent 1
      perhaps := ⟨a.size + 2, hnode rfl (by simp), hnode rfl (by simp), hsilent 2⟩
      perhaps_silent := hsilent 3
      unrolled := hnode rfl (by simp)
      unrolled_silent := hsilent 4 }

end

end Repetitions

/-! ## Composites and their parts -/

section
variable {σ : Type u}

theorem yields_hasTree {g : Grammar σ} {quiet : Bool} {h : Handle} {t : List Char} {s s' : σ}
    {w : Verdict} (hy : Yields g quiet h t s w s') : HasTree g.arena g.rules (.expr h) t w := by
  obtain ⟨o, ho, n, hn⟩ := hy.settles ⟨0, t⟩ rfl
  exact haveTrees g n (c := ⟨0, t⟩) trivial ((congrArg (·.1.verdict?) (hn n (Nat.le_refl n))).trans ho)

/-- What a repetition, a choice or a sequence consists of. -/
def Node.subject? : Node → Option Subject
  | .zeroOrMore item => some (.again item true)
  | .oneOrMore item => some (.again item false)
  | .choice items => some (.first items)
  | .sequence items => some (.all items)
  | _ => none

theorem Node.not_isTerminal_of_subject? {node : Node} {x : Subject} (hx : node.subject? = some x) :
    ¬node.isTerminal := by
  cases node with
  | zeroOrMore | oneOrMore | choice | sequence => exact nofun
  | _ => cases hx

/-- The tree of a composite is the one of what it consists of. -/
theorem Evaluation.exists_subject {a : Arena} {rules : RuleTable} {h : Handle} {t : List Char}
    {r : Result} {node : Node} {x : Subject} (hn : a.node? h = some node)
    (hx : node.subject? = some x) (tree : Evaluation a rules (.expr h) t r) :
    Nonempty (Evaluation a rules x t r) := by
  have hf : node ≠ .forward := by
    rintro rfl
    cases hx
  obtain ⟨content, -⟩ := tree.exists_node hn hf
  cases content with
  | sequence items | choice items | zeroOrMore items | oneOrMore items =>
    obtain rfl := Option.some.inj hx
    exact ⟨items⟩
  | terminal ht => cases ht <;> cases hx
  | refusal ht => exact absurd ht (Node.not_isTerminal_of_subject? hx)
  | _ => cases hx

/-! ## The first pass -/

variable (g : Grammar σ) (quiet : Bool) (e : Handle) (t : List Char) (s : σ)

/-- What comes of the first pass over `e`: it is the only one, unless it takes something. -/
inductive FirstPass : Prop
  | refused {s' : σ} (hy : Yields g quiet e t s .refused s')
  | fault {f : Fault} {s' : σ} (hy : Yields g quiet e t s (.fault f) s')
  | idle {s' : σ} (hy : Yields g quiet e t s (.took t) s')
  | further {t' : List Char} {s₁ s' : σ} {w : Verdict} (hy : Yields g quiet e t s (.took t') s₁)
    (hne : t' ≠ t) (hm : YieldsMany g quiet e true t' s₁ w s') (hw : w ≠ .refused)

variable {g quiet e t s}

namespace Evaluation

variable {a : Arena} {rules : RuleTable} {r : Result}

/-- Behind a pass that took something there is a match, or a mistake. -/
theorem again_ne_refused (tree : Evaluation a rules (.again e true) t r) : r ≠ .refused := by
  generalize hx : Subject.again e true = x at tree
  induction tree with
  | @againStep h enough u t r _ _ _ _ ih =>
    obtain ⟨rfl, -⟩ := Subject.again.inj hx
    cases r with
    | refused => exact absurd rfl (ih rfl)
    | _ => exact nofun
  | againStop =>
    obtain ⟨-, rfl⟩ := Subject.again.inj hx
    exact nofun
  | againFault | againIdle => exact nofun
  | _ => cases hx

/-- Where passes end with a match, one more pass refuses or takes nothing. -/
theorem exists_last {enough : Bool} {n : Nat} (tree : Evaluation a rules (.again e enough) t (.took n)) :
    ∃ u rest, t = u ++ rest ∧ n = byteLength u ∧
      (Nonempty (Evaluation a rules (.expr e) rest .refused) ∨
        Nonempty (Evaluation a rules (.expr e) rest (.took 0))) := by
  generalize hx : Subject.again e enough = x at tree
  generalize hr : Result.took n = r at tree
  induction tree generalizing enough n with
  | @againStop h enough' t pass =>
    obtain ⟨rfl, rfl⟩ := Subject.again.inj hx
    cases enough with
    | true =>
      obtain rfl := Result.took.inj hr
      exact ⟨[], t, rfl, rfl, .inl ⟨pass⟩⟩
    | false => cases hr
  | @againIdle h enough' t pass =>
    obtain ⟨rfl, -⟩ := Subject.again.inj hx
    obtain rfl := Result.took.inj hr
    exact ⟨[], t, rfl, rfl, .inr ⟨pass⟩⟩
  | @againStep h enough' u t r pass _ _ _ ih =>
    obtain ⟨rfl, -⟩ := Subject.again.inj hx
    cases r with
    | took m =>
      obtain ⟨u', rest, rfl, rfl, hlast⟩ := ih rfl rfl
      refine ⟨u ++ u', rest, (List.append_assoc u u' rest).symm, ?_, hlast⟩
      rw [byteLength_append]
      exact Result.took.inj hr
    | _ => cases hr
  | againFault => cases hr
  | _ => cases hx

/-- The first pass is told by a tree of any further passes. -/
theorem firstPass (enough : Bool) (tree : Evaluation a rules (.again e enough) t r)
    (acts : Actions σ) (quiet : Bool) (s : σ) : FirstPass ⟨a, rules, acts⟩ quiet e t s := by
  cases tree with
  | againStop pass =>
    obtain ⟨w, hw, hy⟩ := pass.comes acts quiet s
    cases hw
    exact .refused hy
  | againFault pass =>
    obtain ⟨w, hw, hy⟩ := pass.comes acts quiet s
    cases hw
    exact .fault hy
  | againIdle pass =>
    obtain ⟨w, hw, hy⟩ := pass.comes acts quiet s
    obtain rfl := hw.eq_took_self
    exact .idle hy
  | againStep pass hu others =>
    obtain ⟨w, hw, hy⟩ := pass.comes acts quiet s
    obtain rfl := hw.eq_took
    obtain ⟨w, hw, hm⟩ := others.comes acts quiet (acts.after quiet s pass.events)
    refine .further hy (fun ht => hu (List.self_eq_append_left.mp ht)) hm ?_
    rintro rfl
    exact others.again_ne_refused (hw.result_unique .refused)

end Evaluation

/-! ## What it tells of the repetitions -/

section
variable {r : Repetitions} (hr : r.In e g)
include hr

namespace Repetitions.In

theorem firstPass_of_star {w : Verdict} {s' : σ} (hy : Yields g quiet r.star t s w s') :
    FirstPass g quiet e t s := by
  obtain ⟨_, -, ⟨tree⟩⟩ := yields_hasTree hy
  obtain ⟨passes⟩ := tree.exists_subject hr.star rfl
  exact passes.firstPass _ g.actions quiet s

theorem firstPass_of_plus {res : Result}
    (tree : Evaluation g.arena g.rules (.expr r.plus) t res) : FirstPass g quiet e t s := by
  obtain ⟨passes⟩ := tree.exists_subject hr.plus rfl
  exact passes.firstPass _ g.actions quiet s

theorem firstPass_of_perhaps {w : Verdict} {s' : σ} (hy : Yields g quiet r.perhaps t s w s') :
    FirstPass g quiet e t s := by
  obtain ⟨nothing, hperhaps, -⟩ := hr.perhaps
  obtain ⟨_, -, ⟨tree⟩⟩ := yields_hasTree hy
  obtain ⟨branches⟩ := tree.exists_subject hperhaps rfl
  cases branches with
  | firstHead first _ => exact hr.firstPass_of_plus first
  | firstCons first _ => exact hr.firstPass_of_plus first

theorem firstPass_of_unrolled {w : Verdict} {s' : σ} (hy : Yields g quiet r.unrolled t s w s') :
    FirstPass g quiet e t s := by
  obtain ⟨res, -, ⟨tree⟩⟩ := yields_hasTree hy
  obtain ⟨items⟩ := tree.exists_subject hr.unrolled rfl
  cases items with
  | @allCons _ _ u t _ pass others =>
    obtain ⟨_, ⟨star⟩⟩ : ∃ res, Nonempty (Evaluation g.arena g.rules (.expr r.star) t res) := by
      cases others with
      | allCons star _ => exact ⟨_, ⟨star⟩⟩
      | allStop star _ => exact ⟨_, ⟨star⟩⟩
    obtain ⟨passes⟩ := star.exists_subject hr.star rfl
    by_cases hu : u = []
    · subst hu
      exact Evaluation.firstPass false (.againIdle pass) g.actions quiet s
    · exact Evaluation.firstPass false (.againStep pass hu passes) g.actions quiet s
  | allStop pass hstop =>
    cases res with
    | took n => exact absurd rfl (hstop n)
    | refused => exact Evaluation.firstPass false (.againStop pass) g.actions quiet s
    | fault f => exact Evaluation.firstPass false (.againFault pass) g.actions quiet s

variable {w : Verdict} {s' : σ}

theorem yields_star (hm : YieldsMany g quiet e true t s w s') : Yields g quiet r.star t s w s' :=
  (yields_zeroOrMore hr.star hm).plain hr.star_silent

theorem yields_plus (hm : YieldsMany g quiet e false t s w s') : Yields g quiet r.plus t s w s' :=
  (yields_oneOrMore hr.plus hm).plain hr.plus_silent

/-- Where there is no pass, nothing matches all the same. -/
theorem yields_perhaps_nothing (hy : Yields g quiet r.plus t s .refused s') :
    Yields g quiet r.perhaps t s (.took t) s' := by
  obtain ⟨nothing, hperhaps, hn, hsilent⟩ := hr.perhaps
  have hnothing : Yields g quiet nothing t s' (.took t) s' :=
    (yields_sequence hn yieldsAll_nil).plain hsilent
  exact (yields_choice hperhaps (yieldsFirst_cons hy (yieldsFirst_head hnothing nofun))).plain
    hr.perhaps_silent

theorem yields_perhaps (hy : Yields g quiet r.plus t s w s') (hw : w ≠ .refused) :
    Yields g quiet r.perhaps t s w s' := by
  obtain ⟨nothing, hperhaps, -⟩ := hr.perhaps
  exact (yields_choice hperhaps (yieldsFirst_head hy hw)).plain hr.perhaps_silent

theorem yields_unrolled (hy : YieldsAll g quiet [e, r.star] t s w s') :
    Yields g quiet r.unrolled t s w s' :=
  (yields_sequence hr.unrolled hy).plain hr.unrolled_silent

/-- The first law, on what comes of the first pass. -/
theorem yields_star_perhaps (hp : FirstPass g quiet e t s) :
    ∃ w s', Yields g quiet r.star t s w s' ∧ Yields g quiet r.perhaps t s w s' := by
  cases hp with
  | refused hy =>
    refine ⟨_, _, hr.yields_star (yieldsMany_stop hy), ?_⟩
    exact hr.yields_perhaps_nothing (hr.yields_plus (yieldsMany_stop hy))
  | fault hy =>
    refine ⟨_, _, hr.yields_star (yieldsMany_fault hy), ?_⟩
    exact hr.yields_perhaps (hr.yields_plus (yieldsMany_fault hy)) nofun
  | idle hy =>
    refine ⟨_, _, hr.yields_star (yieldsMany_idle hy), ?_⟩
    exact hr.yields_perhaps (hr.yields_plus (yieldsMany_idle hy)) nofun
  | further hy hne hm hw =>
    refine ⟨_, _, hr.yields_star (yieldsMany_step hy hne hm), ?_⟩
    exact hr.yields_perhaps (hr.yields_plus (yieldsMany_step hy hne hm)) hw

/-- The second law. When the first pass takes nothing there is another one, which may leave another
state. -/
theorem yields_plus_unrolled (hp : FirstPass g quiet e t s) :
    ∃ w s₁ s₂, Yields g quiet r.plus t s w s₁ ∧ Yields g quiet r.unrolled t s w s₂ ∧
      (s₁ = s₂ ∨ ∃ s', Yields g quiet e t s (.took t) s') := by
  cases hp with
  | refused hy =>
    refine ⟨_, _, _, hr.yields_plus (yieldsMany_stop hy), ?_, .inl rfl⟩
    exact hr.yields_unrolled (yieldsAll_refused hy)
  | fault hy =>
    refine ⟨_, _, _, hr.yields_plus (yieldsMany_fault hy), ?_, .inl rfl⟩
    exact hr.yields_unrolled (yieldsAll_fault hy)
  | @idle s₁ hy =>
    obtain ⟨s₂, hagain⟩ := hy.course rfl rfl quiet s₁
    refine ⟨_, _, s₂, hr.yields_plus (yieldsMany_idle hy), ?_, .inr ⟨_, hy⟩⟩
    exact hr.yields_unrolled
      (yieldsAll_cons hy (yieldsAll_single (hr.yields_star (yieldsMany_idle hagain))))
  | further hy hne hm hw =>
    refine ⟨_, _, _, hr.yields_plus (yieldsMany_step hy hne hm), ?_, .inl rfl⟩
    exact hr.yields_unrolled (yieldsAll_cons hy (yieldsAll_single (hr.yields_star hm)))

end Repetitions.In

end

end

/-! ## Parses -/

section
variable {σ : Type u} {g : Grammar σ} {h k e : Handle} {text : String} {s : σ}

/-- The parses come to the same result when each expression yields what the other one does. -/
theorem parse_result_congr (hyields : ∀ w, (∃ s', Yields g false h text.toList s w s') ↔
    ∃ s', Yields g false k text.toList s w s') :
    (g.parse h text s).1.result? = (g.parse k text s).1.result? := by
  apply Option.ext
  intro r
  rw [parse_result?_eq_some_iff, parse_result?_eq_some_iff]
  constructor
  · rintro ⟨w, s', hy, hw⟩
    obtain ⟨s'', hy'⟩ := (hyields w).mp ⟨s', hy⟩
    exact ⟨w, s'', hy', hw⟩
  · rintro ⟨w, s', hy, hw⟩
    obtain ⟨s'', hy'⟩ := (hyields w).mpr ⟨s', hy⟩
    exact ⟨w, s'', hy', hw⟩

theorem exists_yields_of_parse (hend : (g.parse h text s).1 ≠ .exhausted) :
    ∃ w, Yields g false h text.toList s w (g.parse h text s).2 := by
  obtain ⟨w, hw⟩ : ∃ w, (g.parse h text s).1.verdict? = some w := by
    cases ho : (g.parse h text s).1 with
    | exhausted => exact absurd ho hend
    | _ => exact ⟨_, rfl⟩
  exact ⟨w, parse_iff_yields.mpr ⟨_, rfl, hw⟩⟩

theorem Yields.parse_snd {w : Verdict} {s' : σ} (hy : Yields g false h text.toList s w s') :
    (g.parse h text s).2 = s' := by
  obtain ⟨o, hp, -⟩ := parse_iff_yields.mp hy
  rw [hp]

/-- What an expression yields is what an evaluation comes to that is as deep as a parse may be, at any
place in the text. -/
theorem Yields.exists_eval {c : Cursor} {n : Nat} {quiet : Bool} {w : Verdict} {s' : σ}
    (hy : Yields g quiet h c.rest s w s') (hc : (Cursor.atStart text).Reaches c)
    (hn : g.depth text ≤ n) : ∃ o, eval g n quiet h c s = (o, s') ∧ o.verdict? = some w := by
  obtain ⟨o, ho, m, hm⟩ := hy.settles c rfl
  have hm := hm m (Nat.le_refl m)
  refine ⟨o, ?_, ho⟩
  rw [eval_of_depth_le g hn hc (n := m), hm]
  rw [hm]
  exact Outcome.ne_exhausted_of_verdict? ho

theorem Cursor.Reaches.eq_of_rest {c d : Cursor} (h : c.Reaches d) (hr : d.rest = c.rest) : d = c :=
  congrArg₂ Cursor.mk (h.offset_eq_iff.mpr hr) hr

/-- Where any number of passes have stopped, one more pass refuses or takes nothing. -/
theorem eval_behind_star {r : Repetitions} (hr : r.In e g) {q : Cursor}
    (hq : (g.parse r.star text s).1 = .matched q) {n : Nat} (hn : g.depth text ≤ n) (quiet : Bool)
    (s' : σ) : (∃ c, (eval g n quiet e q s').1 = .failed c) ∨ (eval g n quiet e q s').1 = .matched q := by
  have hreach : (Cursor.atStart text).Reaches q := by
    have := parse_liesFrom g r.star text s
    rwa [hq] at this
  have hverdict : (g.parse r.star text s).1.verdict? = some (.took q.rest) := by rw [hq]; rfl
  obtain ⟨_, hy⟩ := parse_verdict?_eq_some_iff.mp hverdict
  obtain ⟨res, hres, ⟨tree⟩⟩ := yields_hasTree hy
  cases hres with
  | took htext =>
    obtain ⟨passes⟩ := tree.exists_subject hr.star rfl
    obtain ⟨u, rest, hsplit, hlen, hlast⟩ := passes.exists_last
    obtain ⟨-, rfl⟩ := byteLength_cancel (htext.symm.trans hsplit) hlen
    rcases hlast with ⟨⟨pass⟩⟩ | ⟨⟨pass⟩⟩
    · obtain ⟨w, hw, hy⟩ := pass.comes g.actions quiet s'
      cases hw
      obtain ⟨o, he, ho⟩ := Yields.exists_eval hy hreach hn
      obtain ⟨d, rfl⟩ := Outcome.eq_failed_of_verdict? ho
      exact .inl ⟨d, congrArg Prod.fst he⟩
    · obtain ⟨w, hw, hy⟩ := pass.comes g.actions quiet s'
      obtain rfl := hw.eq_took_self
      obtain ⟨o, he, ho⟩ := Yields.exists_eval hy hreach hn
      obtain ⟨d, rfl, hd⟩ := Outcome.eq_matched_of_verdict? ho
      have hlies : q.Reaches d := by
        have := eval_liesFrom g n quiet e q s'
        rwa [he] at this
      obtain rfl := hlies.eq_of_rest hd
      exact .inr (congrArg Prod.fst he)

namespace Repetitions.In

variable {r : Repetitions} (hr : r.In e g)
include hr

theorem yields_star_iff {w : Verdict} {s' : σ} : Yields g false r.star text.toList s w s' ↔
    Yields g false r.perhaps text.toList s w s' := by
  have law (hp : FirstPass g false e text.toList s) := hr.yields_star_perhaps hp
  constructor
  · intro hy
    obtain ⟨w', s'', hstar, hperhaps⟩ := law (hr.firstPass_of_star hy)
    obtain ⟨rfl, rfl⟩ := hy.unique hstar
    exact hperhaps
  · intro hy
    obtain ⟨w', s'', hstar, hperhaps⟩ := law (hr.firstPass_of_perhaps hy)
    obtain ⟨rfl, rfl⟩ := hy.unique hperhaps
    exact hstar

theorem parse_star : (g.parse r.star text s).1.result? = (g.parse r.perhaps text s).1.result? ∧
    ((g.parse r.star text s).1 ≠ .exhausted →
      (g.parse r.star text s).2 = (g.parse r.perhaps text s).2) := by
  refine ⟨parse_result_congr fun w => exists_congr fun s' => hr.yields_star_iff, fun hend => ?_⟩
  obtain ⟨w, hy⟩ := exists_yields_of_parse hend
  exact (hr.yields_star_iff.mp hy).parse_snd.symm

theorem parse_plus : (g.parse r.plus text s).1.result? = (g.parse r.unrolled text s).1.result? ∧
    ((g.parse r.plus text s).1 ≠ .exhausted → (g.parse e text s).1.result? ≠ some (.took 0) →
      (g.parse r.plus text s).2 = (g.parse r.unrolled text s).2) := by
  have law (hp : FirstPass g false e text.toList s) := hr.yields_plus_unrolled hp
  refine ⟨parse_result_congr fun w => ⟨?_, ?_⟩, fun hend hfirst => ?_⟩
  · rintro ⟨s', hy⟩
    obtain ⟨_, -, ⟨tree⟩⟩ := yields_hasTree hy
    obtain ⟨w', s₁, s₂, hplus, hunrolled, -⟩ := law (hr.firstPass_of_plus tree)
    obtain ⟨rfl, -⟩ := hy.unique hplus
    exact ⟨s₂, hunrolled⟩
  · rintro ⟨s', hy⟩
    obtain ⟨w', s₁, s₂, hplus, hunrolled, -⟩ := law (hr.firstPass_of_unrolled hy)
    obtain ⟨rfl, -⟩ := hy.unique hunrolled
    exact ⟨s₁, hplus⟩
  · obtain ⟨w, hy⟩ := exists_yields_of_parse hend
    obtain ⟨_, -, ⟨tree⟩⟩ := yields_hasTree hy
    obtain ⟨w', s₁, s₂, hplus, hunrolled, hs | ⟨s', hidle⟩⟩ := law (hr.firstPass_of_plus tree)
    · rw [hplus.parse_snd, hunrolled.parse_snd, hs]
    · exact absurd (parse_result?_eq_some_iff.mpr ⟨_, s', hidle, .took_self⟩) hfirst

end Repetitions.In

/-- Any number of passes match as at least one pass or nothing does, and leave the same state. At
least one pass matches as a pass with any number of others behind it does, and leaves the same state
unless the first pass takes nothing; then it is made twice in the second case. Where any number of
passes have stopped, one more refuses or takes nothing. -/
theorem repetition_laws {r : Repetitions} (hr : r.In e g) (text : String) (s : σ) :
    ((g.parse r.star text s).1.result? = (g.parse r.perhaps text s).1.result? ∧
      ((g.parse r.star text s).1 ≠ .exhausted →
        (g.parse r.star text s).2 = (g.parse r.perhaps text s).2)) ∧
    ((g.parse r.plus text s).1.result? = (g.parse r.unrolled text s).1.result? ∧
      ((g.parse r.plus text s).1 ≠ .exhausted → (g.parse e text s).1.result? ≠ some (.took 0) →
        (g.parse r.plus text s).2 = (g.parse r.unrolled text s).2)) ∧
    ∀ q, (g.parse r.star text s).1 = .matched q →
      ∀ n, g.depth text ≤ n → ∀ (quiet : Bool) (s' : σ),
        (∃ c, (eval g n quiet e q s').1 = .failed c) ∨ (eval g n quiet e q s').1 = .matched q := by
  exact ⟨hr.parse_star, hr.parse_plus, fun q hq n hn => eval_behind_star hr hq hn⟩

end

/-- Strokes that may be missing, in repetitions. -/
def strokes : Grammar (List Event) where
  arena := (Repetitions.build 2 (Operation.runAll [.oneOf "|", .opt 0] ∅)).2
  rules := ∅
  actions := { Actions.recorder with node := fun h => if h < 3 then Actions.recorder.node h else none }

/-- The last pass takes nothing. -/
theorem repetition_laws_strokes :
    (strokes.parse 6 "||." []).1.result? = some (.took 2) ∧
      (strokes.parse 7 "||." []).2 = [.expr 0 "|", .expr 2 "|", .expr 0 "|", .expr 2 "|",
        .expr 1 "", .expr 2 ""] ∧
      ((∃ c, (eval strokes 99 false 2 ⟨2, ['.']⟩ []).1 = .failed c) ∨
        (eval strokes 99 false 2 ⟨2, ['.']⟩ []).1 = .matched ⟨2, ['.']⟩) := by
  have hr : Repetitions.In ⟨3, 4, 6, 7⟩ 2 strokes := by
    refine Repetitions.in_of_build (a := Operation.runAll [.oneOf "|", .opt 0] ∅) (.refl _) ?_
    exact fun h hh => if_neg (Nat.not_lt.mpr hh)
  have hstar : (strokes.parse 3 "||." []).1 = .matched ⟨2, ['.']⟩ := by decide +kernel
  have hplus : strokes.parse 4 "||." [] = (.matched ⟨2, ['.']⟩, [.expr 0 "|", .expr 2 "|",
      .expr 0 "|", .expr 2 "|", .expr 1 "", .expr 2 ""]) := by
    decide +kernel
  have hfirst : (strokes.parse 2 "||." []).1.result? ≠ some (.took 0) := by decide +kernel
  obtain ⟨⟨hperhaps, -⟩, ⟨-, hunrolled⟩, hlast⟩ := repetition_laws hr "||." []
  refine ⟨?_, ?_, hlast _ hstar 99 (by decide +kernel) false []⟩
  · rw [← hperhaps, hstar]
    rfl
  · rw [← hunrolled (by rw [hplus]; exact nofun) hfirst, hplus]

end Peg
