import Peg.Proofs.Engine.Depth

/-!
# What an expression yields on a text

`Yields` forgets the depth of an evaluation and where in a text it takes place: what is left of it
is the text ahead, the verdict, and the state before and after. Its rules follow the kinds of nodes,
and `parse_iff_yields` ties it to parses.
-/

namespace Peg

universe u

/-- How an evaluation ends: all of the text ahead up to `rest` was taken, or nothing. -/
inductive Verdict
  | took (rest : List Char)
  | refused
  | fault (e : Fault)
  deriving DecidableEq, Repr

def Outcome.verdict? : Outcome → Option Verdict
  | matched c => some (.took c.rest)
  | failed _ => some .refused
  | fault e => some (.fault e)
  | exhausted => none

theorem Outcome.verdict?_shift (k : Nat) (o : Outcome) : (o.shift k).verdict? = o.verdict? := by
  cases o <;> rfl

theorem Outcome.ne_exhausted_of_verdict? {o : Outcome} {v : Verdict} (h : o.verdict? = some v) :
    o ≠ .exhausted := by
  rintro rfl
  cases h

theorem Outcome.eq_matched_of_verdict? {o : Outcome} {rest : List Char}
    (h : o.verdict? = some (.took rest)) : ∃ d, o = .matched d ∧ d.rest = rest := by
  cases o with
  | matched d => exact ⟨d, rfl, by simpa [verdict?] using h⟩
  | _ => cases h

theorem Outcome.eq_failed_of_verdict? {o : Outcome} (h : o.verdict? = some .refused) :
    ∃ d, o = .failed d := by
  cases o with
  | failed d => exact ⟨d, rfl⟩
  | _ => cases h

theorem Outcome.eq_fault_of_verdict? {o : Outcome} {e : Fault}
    (h : o.verdict? = some (.fault e)) : o = .fault e := by
  cases o with
  | fault e' => simpa [verdict?] using h
  | _ => cases h

section
variable {σ : Type u}

/-- From every place with the text `t` ahead, `f` comes to the verdict `v` and the state `s'` at all
depths but the first few. -/
def Ends (f : Nat → Cursor → Outcome × σ) (t : List Char) (v : Verdict) (s' : σ) : Prop :=
  ∀ c : Cursor, c.rest = t → ∃ o, o.verdict? = some v ∧ ∃ n, ∀ m, n ≤ m → f m c = (o, s')

theorem Ends.of_eq {f : Nat → Cursor → Outcome × σ} {t : List Char} {v : Verdict} {s' : σ}
    (h : ∀ c : Cursor, c.rest = t → ∃ o, o.verdict? = some v ∧ ∀ m, f m c = (o, s')) :
    Ends f t v s' := by
  intro c hc
  obtain ⟨o, ho, hf⟩ := h c hc
  exact ⟨o, ho, 0, fun m _ => hf m⟩

variable (g : Grammar σ) (quiet : Bool)

def Yields (h : Handle) (t : List Char) (s : σ) : Verdict → σ → Prop :=
  Ends (fun n c => eval g n quiet h c s) t

def YieldsAll (hs : List Handle) (t : List Char) (s : σ) : Verdict → σ → Prop :=
  Ends (fun n c => allOf (eval g n quiet) hs c s) t

def YieldsFirst (hs : List Handle) (t : List Char) (s : σ) : Verdict → σ → Prop :=
  Ends (fun n c => firstOf (eval g n quiet) hs c s) t

def YieldsMany (h : Handle) (enough : Bool) (t : List Char) (s : σ) (v : Verdict) (s' : σ) : Prop :=
  ∀ ahead : List Char, t.length ≤ ahead.length →
    Ends (fun n c => many (eval g n quiet) h ahead enough c s) t v s'

def taken (t rest : List Char) : List Char :=
  t.take (t.length - rest.length)

@[simp] theorem taken_append (u rest : List Char) : taken (u ++ rest) rest = u := by
  simp [taken]

/-- The state after an action has fired on what was taken. -/
def firedOn (act : Option (Action σ)) (t : List Char) (s : σ) : Verdict → σ
  | .took rest =>
    match act, quiet with
    | some act, false => act (String.ofList (taken t rest)) s
    | _, _ => s
  | _ => s

@[simp] theorem firedOn_none (t : List Char) (s : σ) (v : Verdict) : firedOn quiet none t s v = s := by
  cases v <;> rfl

@[simp] theorem firedOn_refused (act : Option (Action σ)) (t : List Char) (s : σ) :
    firedOn quiet act t s .refused = s :=
  rfl

theorem Cursor.Reaches.textTo {c d : Cursor} (h : c.Reaches d) :
    c.textTo d = String.ofList (taken c.rest d.rest) := by
  obtain ⟨u, hu, ho⟩ := h.exists_between
  rw [Cursor.textTo, ho, hu, taken_append, Nat.add_sub_cancel_left, takeBytes_append]

variable {g quiet} {h : Handle} {t : List Char} {s s' : σ} {v : Verdict}

/-! ## Evaluations and verdicts -/

theorem Yields.settles (hy : Yields g quiet h t s v s') (c : Cursor) (hc : c.rest = t) :
    ∃ o, o.verdict? = some v ∧ ∃ n, ∀ m, n ≤ m → eval g m quiet h c s = (o, s') :=
  hy c hc

/-- An evaluation somewhere in a text tells what the expression yields on the text ahead. -/
theorem yields_of_eval {n : Nat} {c : Cursor} {o : Outcome}
    (he : eval g n quiet h c s = (o, s')) (hv : o.verdict? = some v) :
    Yields g quiet h c.rest s v s' := by
  have place (d : Cursor) : (⟨0, d.rest⟩ : Cursor).shift d.offset = d := by
    simp [Cursor.shift]
  rcases h₀ : eval g n quiet h ⟨0, c.rest⟩ s with ⟨o₀, s₀⟩
  have hc := eval_shift g n quiet h ⟨0, c.rest⟩ c.offset s
  rw [place, he, h₀] at hc
  obtain ⟨rfl, rfl⟩ := Prod.mk.injEq .. ▸ hc
  rw [Outcome.verdict?_shift] at hv
  have hne : (eval g n quiet h ⟨0, c.rest⟩ s).1 ≠ .exhausted := by
    rw [h₀]
    exact Outcome.ne_exhausted_of_verdict? hv
  intro d hd
  refine ⟨o₀.shift d.offset, by rw [Outcome.verdict?_shift, hv], n, fun m hm => ?_⟩
  have hmd := eval_shift g m quiet h ⟨0, d.rest⟩ d.offset s
  rw [place, hd, eval_mono g hm hne, h₀] at hmd
  exact hmd

theorem Yields.unique {v' : Verdict} {s'' : σ} (hy : Yields g quiet h t s v s')
    (hy' : Yields g quiet h t s v' s'') : v = v' ∧ s' = s'' := by
  obtain ⟨o, ho, n, hn⟩ := hy.settles ⟨0, t⟩ rfl
  obtain ⟨o', ho', n', hn'⟩ := hy'.settles ⟨0, t⟩ rfl
  have := (hn _ (Nat.le_max_left n n')).symm.trans (hn' _ (Nat.le_max_right n n'))
  obtain ⟨rfl, rfl⟩ := Prod.mk.injEq .. ▸ this
  exact ⟨Option.some.inj (ho.symm.trans ho'), rfl⟩

/-- What is left over stands at the end of the text. -/
theorem Yields.suffix {rest : List Char} (hy : Yields g quiet h t s (.took rest) s') :
    ∃ u, t = u ++ rest := by
  obtain ⟨o, ho, n, hn⟩ := hy.settles ⟨0, t⟩ rfl
  obtain ⟨d, rfl, rfl⟩ := Outcome.eq_matched_of_verdict? ho
  have hd : (⟨0, t⟩ : Cursor).Reaches d := by
    have := eval_liesFrom g n quiet h ⟨0, t⟩ s
    rwa [hn n (Nat.le_refl n)] at this
  obtain ⟨u, hu, -⟩ := hd.exists_between
  exact ⟨u, hu⟩

/-- Parses are told by what the expression yields on the whole text. -/
theorem parse_iff_yields {text : String} :
    Yields g false h text.toList s v s' ↔
      ∃ o, g.parse h text s = (o, s') ∧ o.verdict? = some v := by
  constructor
  · intro hy
    obtain ⟨o, ho, n, hn⟩ := hy.settles (.atStart text) rfl
    have he := hn n (Nat.le_refl n)
    refine ⟨o, ?_, ho⟩
    rw [Grammar.parse, eval_depth g (n := n), he]
    rw [he]
    exact Outcome.ne_exhausted_of_verdict? ho
  · rintro ⟨o, hp, ho⟩
    exact yields_of_eval (c := .atStart text) hp ho

theorem parse_liesFrom (g : Grammar σ) (h : Handle) (text : String) (s : σ) :
    (g.parse h text s).1.LiesFrom (.atStart text) :=
  eval_liesFrom g (g.depth text) false h (.atStart text) s

theorem parse_verdict?_eq_some_iff {text : String} :
    (g.parse h text s).1.verdict? = some v ↔ ∃ s', Yields g false h text.toList s v s' := by
  constructor
  · intro hw
    exact ⟨_, parse_iff_yields.mpr ⟨_, rfl, hw⟩⟩
  · rintro ⟨s', hy⟩
    obtain ⟨o, hp, ho⟩ := parse_iff_yields.mp hy
    rw [hp, ho]

theorem parse_consumed? {text : String} {rest : List Char}
    (hv : (g.parse h text s).1.verdict? = some (.took rest)) :
    ∃ u, text.toList = u ++ rest ∧ (g.parse h text s).1.consumed? = some (byteLength u) := by
  obtain ⟨d, hd, rfl⟩ := Outcome.eq_matched_of_verdict? hv
  have hr : (Cursor.atStart text).Reaches d := by
    have := parse_liesFrom g h text s
    rwa [hd] at this
  obtain ⟨u, hu, ho⟩ := hr.exists_between
  refine ⟨u, hu, ?_⟩
  rw [hd, Outcome.consumed?, ho]
  exact congrArg some (Nat.zero_add _)

/-- The verdict does not depend on actions, on the state, or on being quiet. -/
theorem Yields.course {τ : Type*} {g' : Grammar τ} (hy : Yields g quiet h t s v s')
    (ha : g.arena = g'.arena) (hr : g.rules = g'.rules) (quiet' : Bool) (s₁ : τ) :
    ∃ s₂, Yields g' quiet' h t s₁ v s₂ := by
  obtain ⟨o, ho, n, hn⟩ := hy.settles ⟨0, t⟩ rfl
  have := eval_outcome g g' ha hr n quiet quiet' h ⟨0, t⟩ s s₁
  rw [hn n (Nat.le_refl n)] at this
  exact ⟨(eval g' n quiet' h ⟨0, t⟩ s₁).2,
    yields_of_eval (n := n) (c := ⟨0, t⟩) (o := o) (Prod.ext this.symm rfl) ho⟩

/-! ## Lists of expressions -/

section
variable {hs : List Handle} {t' : List Char} {s₁ : σ}

theorem yieldsAll_nil : YieldsAll g quiet [] t s (.took t) s :=
  .of_eq fun c hc => ⟨.matched c, by rw [← hc]; rfl, fun _ => rfl⟩

theorem yieldsAll_cons (hh : Yields g quiet h t s (.took t') s₁)
    (hs' : YieldsAll g quiet hs t' s₁ v s') : YieldsAll g quiet (h :: hs) t s v s' := by
  intro c hc
  obtain ⟨o, ho, n, hn⟩ := hh.settles c hc
  obtain ⟨d, rfl, hd⟩ := Outcome.eq_matched_of_verdict? ho
  obtain ⟨o', ho', n', hn'⟩ := hs' d hd
  refine ⟨o', ho', max n n', fun m hm => ?_⟩
  simp only [allOf, hn m (by omega)]
  exact hn' m (by omega)

theorem yieldsAll_refused (hh : Yields g quiet h t s .refused s') :
    YieldsAll g quiet (h :: hs) t s .refused s' := by
  intro c hc
  obtain ⟨o, ho, n, hn⟩ := hh.settles c hc
  obtain ⟨d, rfl⟩ := Outcome.eq_failed_of_verdict? ho
  exact ⟨.failed d, rfl, n, fun m hm => by simp only [allOf, hn m hm]⟩

theorem yieldsAll_fault {e : Fault} (hh : Yields g quiet h t s (.fault e) s') :
    YieldsAll g quiet (h :: hs) t s (.fault e) s' := by
  intro c hc
  obtain ⟨o, ho, n, hn⟩ := hh.settles c hc
  obtain rfl := Outcome.eq_fault_of_verdict? ho
  exact ⟨.fault e, rfl, n, fun m hm => by simp only [allOf, hn m hm]⟩

theorem yieldsAll_single (hh : Yields g quiet h t s v s') : YieldsAll g quiet [h] t s v s' := by
  cases v with
  | took rest => exact yieldsAll_cons hh yieldsAll_nil
  | refused => exact yieldsAll_refused hh
  | fault e => exact yieldsAll_fault hh

theorem yieldsFirst_nil : YieldsFirst g quiet [] t s .refused s :=
  .of_eq fun c _ => ⟨.failed c, rfl, fun _ => rfl⟩

theorem yieldsFirst_cons (hh : Yields g quiet h t s .refused s₁)
    (hs' : YieldsFirst g quiet hs t s₁ v s') : YieldsFirst g quiet (h :: hs) t s v s' := by
  intro c hc
  obtain ⟨o, ho, n, hn⟩ := hh.settles c hc
  obtain ⟨d, rfl⟩ := Outcome.eq_failed_of_verdict? ho
  obtain ⟨o', ho', n', hn'⟩ := hs' c hc
  refine ⟨o', ho', max n n', fun m hm => ?_⟩
  simp only [firstOf, hn m (by omega)]
  exact hn' m (by omega)

/-- The first expression that does not refuse decides. -/
theorem yieldsFirst_head (hh : Yields g quiet h t s v s') (hv : v ≠ .refused) :
    YieldsFirst g quiet (h :: hs) t s v s' := by
  intro c hc
  obtain ⟨o, ho, n, hn⟩ := hh.settles c hc
  refine ⟨o, ho, n, fun m hm => ?_⟩
  simp only [firstOf, hn m hm]
  cases o with
  | failed d => exact absurd (Option.some.inj ho).symm hv
  | _ => rfl

theorem yieldsAll_singleton (hy : YieldsAll g quiet [h] t s v s') : Yields g quiet h t s v s' := by
  obtain ⟨o, ho, n, hn⟩ := hy ⟨0, t⟩ rfl
  have hall := hn n (Nat.le_refl n)
  rcases he : eval g n quiet h ⟨0, t⟩ s with ⟨o', s''⟩
  simp only [allOf, he] at hall
  cases o' <;> obtain ⟨rfl, rfl⟩ := Prod.mk.inj hall <;> exact yields_of_eval he ho

theorem yieldsFirst_singleton (hy : YieldsFirst g quiet [h] t s v s') :
    Yields g quiet h t s v s' := by
  obtain ⟨o, ho, n, hn⟩ := hy ⟨0, t⟩ rfl
  have hfirst := hn n (Nat.le_refl n)
  rcases he : eval g n quiet h ⟨0, t⟩ s with ⟨o', s''⟩
  simp only [firstOf, he] at hfirst
  cases o' <;> obtain ⟨rfl, rfl⟩ := Prod.mk.inj hfirst <;> exact yields_of_eval he ho

end

/-! ## Repetition -/

section
variable {enough : Bool} {t' : List Char} {s₁ : σ}

theorem yieldsMany_stop (hh : Yields g quiet h t s .refused s') :
    YieldsMany g quiet h enough t s (if enough then .took t else .refused) s' := by
  intro ahead _ c hc
  obtain ⟨o, ho, n, hn⟩ := hh.settles c hc
  obtain ⟨d, rfl⟩ := Outcome.eq_failed_of_verdict? ho
  refine ⟨if enough then .matched c else .failed c, ?_, n, fun m hm => ?_⟩
  · cases enough <;> simp [Outcome.verdict?, hc]
  · unfold many; simp only [hn m hm]

theorem yieldsMany_fault {e : Fault} (hh : Yields g quiet h t s (.fault e) s') :
    YieldsMany g quiet h enough t s (.fault e) s' := by
  intro ahead _ c hc
  obtain ⟨o, ho, n, hn⟩ := hh.settles c hc
  obtain rfl := Outcome.eq_fault_of_verdict? ho
  exact ⟨.fault e, rfl, n, fun m hm => by unfold many; simp only [hn m hm]⟩

/-- A pass that takes nothing is the last. -/
theorem yieldsMany_idle (hh : Yields g quiet h t s (.took t) s') :
    YieldsMany g quiet h enough t s (.took t) s' := by
  intro ahead _ c hc
  obtain ⟨o, ho, n, hn⟩ := hh.settles c hc
  obtain ⟨d, rfl, hd⟩ := Outcome.eq_matched_of_verdict? ho
  have hr : c.Reaches d := by
    have := eval_liesFrom g n quiet h c s
    rwa [hn n (Nat.le_refl n)] at this
  have he : d.offset = c.offset := hr.offset_eq_iff.mpr (hd.trans hc.symm)
  exact ⟨.matched d, ho, n, fun m hm => by unfold many; simp only [hn m hm, he, ite_true]⟩

theorem yieldsMany_step (hh : Yields g quiet h t s (.took t') s₁) (hne : t' ≠ t)
    (hm' : YieldsMany g quiet h true t' s₁ v s') : YieldsMany g quiet h enough t s v s' := by
  intro ahead hlen c hc
  obtain ⟨o, ho, n, hn⟩ := hh.settles c hc
  obtain ⟨d, rfl, hd⟩ := Outcome.eq_matched_of_verdict? ho
  have hr : c.Reaches d := by
    have := eval_liesFrom g n quiet h c s
    rwa [hn n (Nat.le_refl n)] at this
  have he : d.offset ≠ c.offset := fun he =>
    hne (hd.symm.trans ((hr.offset_eq_iff.mp he).trans hc))
  have hlt := hr.length_lt he
  rw [hc, hd] at hlt
  cases ahead with
  | nil => exact absurd (hlt.trans_le hlen) (Nat.not_lt_zero _)
  | cons ch ahead =>
    have hle : t'.length ≤ ahead.length := by rw [List.length_cons] at hlen; omega
    obtain ⟨o', ho', n', hn'⟩ := hm' ahead hle d hd
    refine ⟨o', ho', max n n', fun m hm => ?_⟩
    unfold many
    simp only [hn m (by omega), he, ite_false]
    exact hn' m (by omega)

end

/-! ## Nodes -/

theorem fire_eq_firedOn {act : Option (Action σ)} {c : Cursor} {o : Outcome}
    (ho : o.verdict? = some v) (hc : o.LiesFrom c) :
    fire act quiet c (o, s) = (o, firedOn quiet act c.rest s v) := by
  cases o with
  | matched d =>
    obtain rfl : Verdict.took d.rest = v := Option.some.inj ho
    cases act with
    | none => rw [firedOn_none]; rfl
    | some act => cases quiet <;> simp [fire, firedOn, Cursor.Reaches.textTo hc]
  | failed d => obtain rfl : Verdict.refused = v := Option.some.inj ho; rfl
  | fault e => obtain rfl : Verdict.fault e = v := Option.some.inj ho; rfl
  | exhausted => cases ho

section
variable {node : Node} (hn : g.arena.node? h = some node)
include hn

theorem yields_node (he : Ends (fun n c => evalNode g (eval g n) quiet h node c s) t v s') :
    Yields g quiet h t s v (firedOn quiet (g.actions.node h) t s' v) := by
  intro c hc
  obtain ⟨o, ho, n, hnn⟩ := he c hc
  have hlies : o.LiesFrom c := by
    have := evalNode_liesFrom g (eval_liesFrom g n) quiet h node c s
    rwa [show evalNode g (eval g n) quiet h node c s = (o, s') from hnn n (Nat.le_refl n)] at this
  refine ⟨o, ho, n + 1, fun m hm => ?_⟩
  obtain ⟨m, rfl⟩ : ∃ k, m = k + 1 := ⟨m - 1, by omega⟩
  have hnm : evalNode g (eval g m) quiet h node c s = (o, s') := hnn m (by omega)
  simp only [eval, hn, hnm, fire_eq_firedOn ho hlies, hc]

end

/-- Only a forward declaration tells which expression has the node. -/
theorem evalNode_congr {ev : Bool → Handle → Cursor → σ → Outcome × σ} {k : Handle} {node : Node}
    (hf : node ≠ .forward) {c : Cursor} :
    evalNode g ev quiet h node c s = evalNode g ev quiet k node c s := by
  cases node with
  | forward => exact absurd rfl hf
  | _ => rfl

theorem fire_none (c : Cursor) (r : Outcome × σ) : fire none quiet c r = r := by
  rcases r with ⟨_ | _ | _ | _, s⟩ <;> rfl

/-- Without an action of its own, an expression yields what any other one with its node does. -/
theorem Yields.content {node : Node} (hy : Yields g quiet h t s v s')
    (hn : g.arena.node? h = some node) (ha : g.actions.node h = none) (hf : node ≠ .forward)
    (k : Handle) : Ends (fun n c => evalNode g (eval g n) quiet k node c s) t v s' := by
  intro c hc
  obtain ⟨o, ho, n, hnn⟩ := hy.settles c hc
  refine ⟨o, ho, n, fun m hm => ?_⟩
  have he := hnn (m + 1) (Nat.le_succ_of_le hm)
  simp only [eval, hn, ha, fire_none] at he
  exact (evalNode_congr hf).trans he

def takeOne (p : Char → Bool) : List Char → Verdict
  | [] => .refused
  | ch :: rest => if p ch then .took rest else .refused

/-- A terminal of one character. -/
theorem yields_takeIf {node : Node} (hn : g.arena.node? h = some node) {p : Char → Bool}
    (hp : ∀ ev c, evalNode g ev quiet h node c s = (c.takeIf p, s)) :
    Yields g quiet h t s (takeOne p t) (firedOn quiet (g.actions.node h) t s (takeOne p t)) := by
  refine yields_node hn (.of_eq fun c hc => ⟨c.takeIf p, ?_, fun m => hp _ c⟩)
  unfold Cursor.takeIf
  rw [hc]
  cases t with
  | nil => rfl
  | cons ch rest =>
    by_cases hch : p ch
    · simp [takeOne, hch, Outcome.verdict?, Cursor.advance, hc]
    · simp [takeOne, hch, Outcome.verdict?]

theorem yieldsFirst_takeOne_nil : YieldsFirst g quiet [] t s (takeOne (fun _ => false) t) s := by
  cases t <;> exact yieldsFirst_nil

theorem yieldsFirst_takeOne {p p' : Char → Bool} (hh : Yields g quiet h t s (takeOne p t) s)
    (hs' : YieldsFirst g quiet hs t s (takeOne p' t) s) :
    YieldsFirst g quiet (h :: hs) t s (takeOne (fun c => p c || p' c) t) s := by
  cases t with
  | nil => exact yieldsFirst_cons hh hs'
  | cons c t =>
    by_cases hc : p c
    · simp only [takeOne, hc, Bool.true_or, ite_true] at hh ⊢
      exact yieldsFirst_head hh (by simp)
    · simp only [takeOne, hc, Bool.false_or, Bool.false_eq_true, ite_false] at hh hs' ⊢
      exact yieldsFirst_cons hh hs'

theorem yieldsMany_takeOne {p : Char → Bool} (hh : ∀ t, Yields g quiet h t s (takeOne p t) s) :
    YieldsMany g quiet h true t s (.took (t.dropWhile p)) s := by
  induction t with
  | nil => exact yieldsMany_stop (hh [])
  | cons c t ih =>
    have hc := hh (c :: t)
    by_cases hp : p c
    · simp only [takeOne, hp, ite_true] at hc
      rw [List.dropWhile_cons_of_pos hp]
      exact yieldsMany_step hc (List.cons_ne_self c t).symm ih
    · simp only [takeOne, hp, Bool.false_eq_true, ite_false] at hc
      rw [List.dropWhile_cons_of_neg hp]
      exact yieldsMany_stop hc

theorem yields_literal (text : String) (hn : g.arena.node? h = some (.literal text))
    (rest : List Char) :
    Yields g quiet h (text.toList ++ rest) s (.took rest)
      (firedOn quiet (g.actions.node h) (text.toList ++ rest) s (.took rest)) := by
  refine yields_node hn (.of_eq fun c hc => ⟨c.takeText text.toList, ?_, fun m => rfl⟩)
  simp [Cursor.takeText, hc, Outcome.verdict?, Cursor.advance]

theorem yields_literal_refused {text : String} (hn : g.arena.node? h = some (.literal text))
    (ht : ¬text.toList <+: t) : Yields g quiet h t s .refused s := by
  refine yields_node hn (.of_eq fun c hc => ⟨c.takeText text.toList, ?_, fun m => rfl⟩)
  have : text.toList.isPrefixOf c.rest = false := by
    rw [hc]
    exact Bool.eq_false_iff.mpr fun hp => ht (List.isPrefixOf_iff_prefix.mp hp)
  simp [Cursor.takeText, this, Outcome.verdict?]

theorem yields_sequence {items : List Handle} (hn : g.arena.node? h = some (.sequence items))
    (hy : YieldsAll g quiet items t s v s') :
    Yields g quiet h t s v (firedOn quiet (g.actions.node h) t s' v) :=
  yields_node hn hy

theorem yields_choice {items : List Handle} (hn : g.arena.node? h = some (.choice items))
    (hy : YieldsFirst g quiet items t s v s') :
    Yields g quiet h t s v (firedOn quiet (g.actions.node h) t s' v) :=
  yields_node hn hy

theorem ends_zeroOrMore {item : Handle} (hy : YieldsMany g quiet item true t s v s') :
    Ends (fun n c => evalNode g (eval g n) quiet h (.zeroOrMore item) c s) t v s' := by
  intro c hc
  simp only [evalNode, hc]
  exact hy t (Nat.le_refl _) c hc

theorem ends_oneOrMore {item : Handle} (hy : YieldsMany g quiet item false t s v s') :
    Ends (fun n c => evalNode g (eval g n) quiet h (.oneOrMore item) c s) t v s' := by
  intro c hc
  simp only [evalNode, hc]
  exact hy t (Nat.le_refl _) c hc

theorem yields_zeroOrMore {item : Handle} (hn : g.arena.node? h = some (.zeroOrMore item))
    (hy : YieldsMany g quiet item true t s v s') :
    Yields g quiet h t s v (firedOn quiet (g.actions.node h) t s' v) :=
  yields_node hn (ends_zeroOrMore hy)

theorem yields_oneOrMore {item : Handle} (hn : g.arena.node? h = some (.oneOrMore item))
    (hy : YieldsMany g quiet item false t s v s') :
    Yields g quiet h t s v (firedOn quiet (g.actions.node h) t s' v) :=
  yields_node hn (ends_oneOrMore hy)

theorem yields_aliasOf {target : Handle} (hn : g.arena.node? h = some (.aliasOf target))
    (hy : Yields g quiet target t s v s') :
    Yields g quiet h t s v (firedOn quiet (g.actions.node h) t s' v) :=
  yields_node hn hy

def Verdict.lookAhead (t : List Char) : Verdict → Verdict
  | took _ => took t
  | v => v

def Verdict.negate (t : List Char) : Verdict → Verdict
  | took _ => refused
  | refused => took t
  | fault e => fault e

theorem Outcome.verdict?_lookAhead (c : Cursor) (o : Outcome) :
    (o.lookAhead c).verdict? = o.verdict?.map (·.lookAhead c.rest) := by
  cases o <;> rfl

theorem Outcome.verdict?_negate (c : Cursor) (o : Outcome) :
    (o.negate c).verdict? = o.verdict?.map (·.negate c.rest) := by
  cases o <;> rfl

/-- A predicate comes to what it makes of the verdict of its item. -/
theorem ends_predicate {item : Handle} {f : Cursor → Outcome → Outcome}
    {f' : List Char → Verdict → Verdict}
    (hf : ∀ c o, (f c o).verdict? = o.verdict?.map (f' c.rest)) (hy : Yields g true item t s v s') :
    Ends (fun n c => (eval g n true item c s).map (f c) id) t (f' t v) s' := by
  intro c hc
  obtain ⟨o, ho, n, hn⟩ := hy.settles c hc
  refine ⟨f c o, ?_, n, fun m hm => ?_⟩
  · rw [hf, ho, hc]
    rfl
  · simp [hn m hm]

theorem yields_notAhead {item : Handle} (hn : g.arena.node? h = some (.notAhead item))
    (hy : Yields g true item t s v s') :
    Yields g quiet h t s (v.negate t)
      (firedOn quiet (g.actions.node h) t s' (v.negate t)) :=
  yields_node hn (ends_predicate Outcome.verdict?_negate hy)

/-- Without an action of its own, a node leaves the state that its parts leave. -/
theorem Yields.plain (hy : Yields g quiet h t s v (firedOn quiet (g.actions.node h) t s' v))
    (ha : g.actions.node h = none) : Yields g quiet h t s v s' := by
  rwa [ha, firedOn_none] at hy

end

end Peg
