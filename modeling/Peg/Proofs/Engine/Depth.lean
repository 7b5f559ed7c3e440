import Mathlib.Data.Finset.Card
import Mathlib.Data.Finset.Prod
import Mathlib.Data.Fintype.Prod
import Peg.Proofs.Engine.Progress

/-!
# The depth of an evaluation

An evaluation that ends at some depth ends alike at every greater one, whatever its actions do it
takes the same course, and `Grammar.depth` is deep enough for all that ever end: `eval_depth`.

Two evaluations are compared step by step. `InStep` says that the first result is `lost` or that
the second one agrees with it; each composite keeps this.
-/

namespace Peg

universe u v

section
variable {σ : Type u} {τ : Type v} (lost : Outcome → Prop) (S : σ → τ → Prop)

def InStep (r : Outcome × σ) (r' : Outcome × τ) : Prop :=
  lost r.1 ∨ r.1 = r'.1 ∧ S r.2 r'.2

/-- The evaluators go in step wherever `P` holds and their states are related. -/
structure GoInStep (P : Cursor → Prop) (ev : Handle → Cursor → σ → Outcome × σ)
    (ev' : Handle → Cursor → τ → Outcome × τ) : Prop where
  onward : ∀ h c s, (ev h c s).1.LiesFrom c
  inStep : ∀ h c s s', P c → S s s' → InStep lost S (ev h c s) (ev' h c s')

end

/-- Neither a match nor a failure: composites pass it on. -/
def Outcome.Stops : Outcome → Prop
  | matched _ | failed _ => False
  | fault _ | exhausted => True

section
variable {σ : Type u} {τ : Type v} {lost : Outcome → Prop} {S : σ → τ → Prop} {P : Cursor → Prop}
variable (hl : ∀ o, lost o → o.Stops) (hP : ∀ c d, P c → c.Reaches d → P d)
variable {ev : Handle → Cursor → σ → Outcome × σ} {ev' : Handle → Cursor → τ → Outcome × τ}

section
variable (H : GoInStep lost S P ev ev')
include hl hP H

theorem allOf_inStep (hs : List Handle) (c : Cursor) (s : σ) (s' : τ) (hc : P c) (hS : S s s') :
    InStep lost S (allOf ev hs c s) (allOf ev' hs c s') := by
  induction hs generalizing c s s' with
  | nil => exact .inr ⟨rfl, hS⟩
  | cons h hs ih =>
    have hd := H.onward h c s
    have hh := H.inStep h c s s' hc hS
    unfold allOf
    cases e : ev h c s with
    | mk o t =>
    cases e' : ev' h c s' with
    | mk o' t' =>
    rw [e] at hd hh
    rw [e'] at hh
    rcases hh with hh | ⟨ho, ht⟩
    · cases o with
      | matched d => exact absurd (hl _ hh) id
      | failed d => exact absurd (hl _ hh) id
      | _ => exact .inl hh
    · subst ho
      cases o with
      | matched d => exact ih d t t' (hP c d hc hd) ht
      | _ => exact .inr ⟨rfl, ht⟩

omit hP in
theorem firstOf_inStep (hs : List Handle) (c : Cursor) (s : σ) (s' : τ) (hc : P c) (hS : S s s') :
    InStep lost S (firstOf ev hs c s) (firstOf ev' hs c s') := by
  induction hs generalizing s s' with
  | nil => exact .inr ⟨rfl, hS⟩
  | cons h hs ih =>
    have hh := H.inStep h c s s' hc hS
    unfold firstOf
    cases e : ev h c s with
    | mk o t =>
    cases e' : ev' h c s' with
    | mk o' t' =>
    rw [e, e'] at hh
    rcases hh with hh | ⟨ho, ht⟩
    · cases o with
      | matched d => exact absurd (hl _ hh) id
      | failed d => exact absurd (hl _ hh) id
      | _ => exact .inl hh
    · subst ho
      cases o with
      | failed d => exact ih t t' ht
      | _ => exact .inr ⟨rfl, ht⟩

theorem many_inStep (h : Handle) (ahead : List Char) (enough : Bool) (c : Cursor) (s : σ) (s' : τ)
    (hc : P c) (hS : S s s') :
    InStep lost S (many ev h ahead enough c s) (many ev' h ahead enough c s') := by
  induction ahead generalizing enough c s s' with
  | nil =>
    have hh := H.inStep h c s s' hc hS
    unfold many
    cases e : ev h c s with
    | mk o t =>
    cases e' : ev' h c s' with
    | mk o' t' =>
    rw [e, e'] at hh
    rcases hh with hh | ⟨ho, ht⟩
    · cases o with
      | matched d => exact absurd (hl _ hh) id
      | failed d => exact absurd (hl _ hh) id
      | _ => exact .inl hh
    · subst ho
      cases o with
      | matched d =>
        dsimp only
        split <;> exact .inr ⟨rfl, ht⟩
      | _ => exact .inr ⟨rfl, ht⟩
  | cons ch ahead ih =>
    have hd := H.onward h c s
    have hh := H.inStep h c s s' hc hS
    unfold many
    cases e : ev h c s with
    | mk o t =>
    cases e' : ev' h c s' with
    | mk o' t' =>
    rw [e] at hd hh
    rw [e'] at hh
    rcases hh with hh | ⟨ho, ht⟩
    · cases o with
      | matched d => exact absurd (hl _ hh) id
      | failed d => exact absurd (hl _ hh) id
      | _ => exact .inl hh
    · subst ho
      cases o with
      | matched d =>
        dsimp only
        split
        · exact .inr ⟨rfl, ht⟩
        · exact ih true d t t' (hP c d hc hd) ht
      | _ => exact .inr ⟨rfl, ht⟩

end

section
include hl

theorem InStep.map {r : Outcome × σ} {r' : Outcome × τ} (h : InStep lost S r r')
    {f : Outcome → Outcome} (hf : ∀ o, o.Stops → f o = o) :
    InStep lost S (r.map f id) (r'.map f id) := by
  rcases h with h | ⟨ho, hs⟩
  · refine .inl ?_
    rw [Prod.map_fst, hf _ (hl _ h)]
    exact h
  · exact .inr ⟨congrArg f ho, hs⟩

end

theorem Outcome.Stops.lookAhead {o : Outcome} (h : o.Stops) (c : Cursor) : o.lookAhead c = o := by
  cases o <;> first | rfl | exact absurd h id

theorem Outcome.Stops.negate {o : Outcome} (h : o.Stops) (c : Cursor) : o.negate c = o := by
  cases o <;> first | rfl | exact absurd h id

section
variable {g : Grammar σ} {g' : Grammar τ}
variable (hr : ∀ name, g.rule? name = g'.rule? name ∨
  g.rule? name = none ∧ lost (.fault (.noSuchRule name)))
variable {ev : Bool → Handle → Cursor → σ → Outcome × σ}
variable {ev' : Bool → Handle → Cursor → τ → Outcome × τ} {quiet quiet' : Bool}
variable (hf : ∀ name c r r', P c → r.1.LiesFrom c → InStep lost S r r' →
  InStep lost S (fire (g.actions.rule name) quiet c r) (fire (g'.actions.rule name) quiet' c r'))
include hl hP hr hf

theorem evalNode_inStep (H : GoInStep lost S P (ev quiet) (ev' quiet'))
    (Ht : GoInStep lost S P (ev true) (ev' true)) (h : Handle) (node : Node) (c : Cursor) (s : σ)
    (s' : τ) (hc : P c) (hS : S s s') :
    InStep lost S (evalNode g ev quiet h node c s) (evalNode g' ev' quiet' h node c s') := by
  cases node with
  | any | oneOf | noneOf | literal | charRange | charClass | pattern => exact .inr ⟨rfl, hS⟩
  | sequence items => exact allOf_inStep hl hP H items c s s' hc hS
  | choice items => exact firstOf_inStep hl H items c s s' hc hS
  | zeroOrMore item => exact many_inStep hl hP H item _ _ c s s' hc hS
  | oneOrMore item => exact many_inStep hl hP H item _ _ c s s' hc hS
  | ahead item => exact (Ht.inStep item c s s' hc hS).map hl fun o ho => ho.lookAhead c
  | notAhead item => exact (Ht.inStep item c s s' hc hS).map hl fun o ho => ho.negate c
  | rule name =>
    rcases hr name with hr | ⟨hr, hlost⟩
    · simp only [evalNode, ← hr]
      cases g.rule? name with
      | none => exact .inr ⟨rfl, hS⟩
      | some target =>
        exact hf name c _ _ hc (H.onward target c s) (H.inStep target c s s' hc hS)
    · refine .inl ?_
      simp only [evalNode, hr]
      exact hlost
  | aliasOf target => exact H.inStep target c s s' hc hS
  | forward => exact .inr ⟨rfl, hS⟩

end

end

/-! ## More depth -/

section
variable {σ : Type u} (g : Grammar σ)

theorem fire_inStep_eq {lost : Outcome → Prop} (act : Option (Action σ)) (quiet : Bool) (c : Cursor)
    (r r' : Outcome × σ) (h : InStep lost Eq r r') :
    InStep lost Eq (fire act quiet c r) (fire act quiet c r') := by
  rcases h with h | ⟨ho, hs⟩
  · exact .inl ((fire_outcome act quiet c r).symm ▸ h)
  · rw [show r = r' from Prod.ext ho hs]
    exact .inr ⟨rfl, rfl⟩

theorem eval_succ_inStep (n : Nat) (quiet : Bool) (h : Handle) (c : Cursor) (s : σ) :
    InStep (· = .exhausted) Eq (eval g n quiet h c s) (eval g (n + 1) quiet h c s) := by
  induction n generalizing quiet h c s with
  | zero => exact .inl rfl
  | succ n ih =>
    have hev (q : Bool) : GoInStep (· = .exhausted) Eq (fun _ => True) (eval g n q)
        (eval g (n + 1) q) :=
      ⟨eval_liesFrom g n q, fun h c s _ _ hs => hs ▸ ih q h c s⟩
    rw [eval, eval]
    cases g.arena.node? h with
    | none => exact .inr ⟨rfl, rfl⟩
    | some node =>
      refine fire_inStep_eq _ quiet c _ _ ?_
      refine evalNode_inStep ?_ (fun _ _ _ _ => trivial) (fun _ => .inl rfl) ?_ (hev quiet)
        (hev true) h node c s s trivial rfl
      · rintro o rfl; trivial
      · exact fun name c r r' _ _ => fire_inStep_eq _ quiet c r r'

/-- An evaluation that ends does so alike at every greater depth. -/
theorem eval_mono {n m : Nat} (hnm : n ≤ m) {quiet : Bool} {h : Handle} {c : Cursor} {s : σ}
    (hne : (eval g n quiet h c s).1 ≠ .exhausted) :
    eval g m quiet h c s = eval g n quiet h c s := by
  induction m, hnm using Nat.le_induction with
  | base => rfl
  | succ m _ ih =>
    rcases eval_succ_inStep g m quiet h c s with he | ⟨ho, hs⟩
    · rw [ih] at he; exact absurd he hne
    · rw [← ih]; exact (Prod.ext ho hs).symm

end

/-! ## The course of an evaluation -/

section
variable {σ : Type u} {τ : Type v} (g : Grammar σ) (g' : Grammar τ)

/-- Neither actions, nor the state, nor being quiet have an influence on the outcome. -/
theorem eval_outcome (ha : g.arena = g'.arena) (hr : g.rules = g'.rules) (n : Nat)
    (quiet quiet' : Bool) (h : Handle) (c : Cursor) (s : σ) (s' : τ) :
    (eval g n quiet h c s).1 = (eval g' n quiet' h c s').1 := by
  have key : InStep (fun _ => False) (fun _ _ => True) (eval g n quiet h c s)
      (eval g' n quiet' h c s') := by
    induction n generalizing quiet quiet' h c s s' with
    | zero => exact .inr ⟨rfl, trivial⟩
    | succ n ih =>
      have hfire (act : Option (Action σ)) (act' : Option (Action τ)) (c : Cursor)
          (r : Outcome × σ) (r' : Outcome × τ)
          (hrr : InStep (fun _ => False) (fun _ _ => True) r r') :
          InStep (fun _ => False) (fun _ _ => True) (fire act quiet c r) (fire act' quiet' c r') := by
        refine .inr ⟨?_, trivial⟩
        rw [fire_outcome, fire_outcome]
        exact (hrr.resolve_left id).1
      have hev (q q' : Bool) : GoInStep (fun _ => False) (fun _ _ => True) (fun _ => True)
          (eval g n q) (eval g' n q') :=
        ⟨eval_liesFrom g n q, fun h c s s' _ _ => ih q q' h c s s'⟩
      rw [eval, eval, ha]
      cases g'.arena.node? h with
      | none => exact .inr ⟨rfl, trivial⟩
      | some node =>
        refine hfire _ _ c _ _ ?_
        refine evalNode_inStep (fun _ hf => hf.elim) (fun _ _ _ _ => trivial) ?_
          (fun name c r r' _ _ => hfire _ _ c r r') (hev quiet quiet') (hev true true) h node c s s'
          trivial trivial
        intro name
        exact .inl (by rw [Grammar.rule?, Grammar.rule?, hr])
  exact (key.resolve_left id).1

end

/-! ## Depth that suffices -/

theorem Cursor.Reaches.exists_le {c d : Cursor} (h : c.Reaches d) :
    ∃ k ≤ c.rest.length, d = c.advance k := by
  obtain ⟨n, rfl⟩ := h
  rcases Nat.le_total n c.rest.length with hn | hn
  · exact ⟨n, hn, rfl⟩
  · refine ⟨c.rest.length, Nat.le_refl _, ?_⟩
    simp [Cursor.advance, List.take_of_length_le hn, List.drop_of_length_le hn]

section
variable {σ : Type u} (g : Grammar σ) (start : Cursor)

def Grammar.silent : Grammar Unit :=
  ⟨g.arena, g.rules, .none⟩

def courseAt (n : Nat) (h : Handle) (c : Cursor) : Outcome :=
  (eval g.silent n true h c ()).1

theorem eval_fst (n : Nat) (quiet : Bool) (h : Handle) (c : Cursor) (s : σ) :
    (eval g n quiet h c s).1 = courseAt g n h c :=
  eval_outcome g g.silent rfl rfl n quiet true h c s ()

/-- One more step of depth changes nothing behind `start`. -/
def Stable (n : Nat) : Prop :=
  ∀ h c, start.Reaches c → courseAt g n h c = courseAt g (n + 1) h c

theorem Stable.succ {n : Nat} (hn : Stable g start n) : Stable g start (n + 1) := by
  intro h c hc
  have hev : GoInStep (fun _ => False) Eq start.Reaches (eval g.silent n true)
      (eval g.silent (n + 1) true) :=
    ⟨eval_liesFrom _ n true, fun h c s s' hc _ => .inr ⟨hn h c hc, rfl⟩⟩
  have key : InStep (fun _ => False) Eq (eval g.silent (n + 1) true h c ())
      (eval g.silent (n + 2) true h c ()) := by
    rw [eval, eval]
    cases g.silent.arena.node? h with
    | none => exact .inr ⟨rfl, rfl⟩
    | some node =>
      refine fire_inStep_eq _ true c _ _ ?_
      exact evalNode_inStep (fun _ hf => hf.elim) (fun _ _ => Cursor.Reaches.trans) (fun _ => .inl rfl)
        (fun name c r r' _ _ => fire_inStep_eq _ true c r r') hev hev h node c () () hc rfl
  exact (key.resolve_left id).1

theorem Stable.course_eq {n m : Nat} (hn : Stable g start n) (hnm : n ≤ m) {h : Handle} {c : Cursor}
    (hc : start.Reaches c) : courseAt g m h c = courseAt g n h c := by
  have hm : Stable g start m ∧ courseAt g m h c = courseAt g n h c := by
    induction m, hnm using Nat.le_induction with
    | base => exact ⟨hn, rfl⟩
    | succ m _ ih => exact ⟨ih.1.succ, (ih.1 h c hc).symm.trans ih.2⟩
  exact hm.2

/-- The pairs of a node and a place behind `start` whose evaluation ends at depth `n`. -/
def ended (n : Nat) : Finset (Nat × Nat) :=
  (Finset.range g.arena.size ×ˢ Finset.range (start.rest.length + 1)).filter fun p =>
    courseAt g n p.1 (start.advance p.2) ≠ .exhausted

theorem course_succ {n : Nat} {h : Handle} {c : Cursor} (hne : courseAt g n h c ≠ .exhausted) :
    courseAt g (n + 1) h c = courseAt g n h c :=
  congrArg Prod.fst (eval_mono g.silent (Nat.le_succ n) hne)

theorem ended_subset (n : Nat) : ended g start n ⊆ ended g start (n + 1) := by
  intro p hp
  obtain ⟨hmem, hne⟩ := Finset.mem_filter.mp hp
  exact Finset.mem_filter.mpr ⟨hmem, (course_succ g hne).symm ▸ hne⟩

theorem card_ended_le (n : Nat) :
    (ended g start n).card ≤ g.arena.size * (start.rest.length + 1) := by
  refine (Finset.card_filter_le _ _).trans ?_
  rw [Finset.card_product, Finset.card_range, Finset.card_range]

/-- No more evaluations end with one more step of depth: then it changes nothing at all. -/
theorem stable_of_ended_eq {n : Nat} (he : ended g start (n + 1) = ended g start (n + 2)) :
    Stable g start (n + 1) := by
  intro h c hc
  by_cases hsize : h < g.arena.size
  · obtain ⟨k, hk, rfl⟩ := hc.exists_le
    have hmem : (h, k) ∈ Finset.range g.arena.size ×ˢ Finset.range (start.rest.length + 1) :=
      Finset.mem_product.mpr ⟨Finset.mem_range.mpr hsize, Finset.mem_range.mpr (by omega)⟩
    by_cases hne : courseAt g (n + 1) h (start.advance k) = .exhausted
    · have hout : (h, k) ∉ ended g start (n + 2) := by
        rw [← he]
        exact fun hp => (Finset.mem_filter.mp hp).2 hne
      have : courseAt g (n + 2) h (start.advance k) = .exhausted :=
        not_not.mp fun hne' => hout (Finset.mem_filter.mpr ⟨hmem, hne'⟩)
      rw [hne, this]
    · exact (course_succ g hne).symm
  · have hnode : g.silent.arena.node? h = none := by
      simp only [Grammar.silent, Arena.node?, Option.map_eq_none_iff]
      exact Array.getElem?_eq_none (Nat.le_of_not_lt hsize)
    simp [courseAt, eval, hnode]

theorem stable_or_card (n : Nat) :
    Stable g start (n + 1) ∨ n + 1 ≤ (ended g start (n + 2)).card := by
  have grow (n : Nat) : Stable g start (n + 1) ∨
      (ended g start (n + 1)).card < (ended g start (n + 2)).card := by
    by_cases he : ended g start (n + 1) = ended g start (n + 2)
    · exact .inl (stable_of_ended_eq g start he)
    · exact .inr (Finset.card_lt_card ((ended_subset g start (n + 1)).ssubset_of_ne he))
  induction n with
  | zero => exact (grow 0).imp_right fun h => by omega
  | succ n ih =>
    rcases ih with hs | hc
    · exact .inl hs.succ
    · exact (grow (n + 1)).imp_right fun h => Nat.succ_le_of_lt (Nat.lt_of_le_of_lt hc h)

theorem stable_depth : Stable g start (g.arena.size * (start.rest.length + 1) + 1) := by
  refine (stable_or_card g start _).resolve_right fun h => ?_
  have := card_ended_le g start (g.arena.size * (start.rest.length + 1) + 2)
  omega

end

section
variable {σ : Type u} (g : Grammar σ)

/-- What ends at some depth, wherever in the text it begins, ends alike at the depth of the grammar and
at every greater one. -/
theorem eval_of_depth_le {text : String} {n m : Nat} (hm : g.depth text ≤ m) {quiet : Bool}
    {h : Handle} {c : Cursor} {s : σ} (hc : (Cursor.atStart text).Reaches c)
    (hne : (eval g n quiet h c s).1 ≠ .exhausted) :
    eval g m quiet h c s = eval g n quiet h c s := by
  have hlen : (Cursor.atStart text).rest.length = text.length := String.length_toList
  have hst : Stable g (.atStart text) (g.depth text) := by
    have := stable_depth g (.atStart text)
    rwa [hlen] at this
  have hmax := eval_mono g (Nat.le_max_left n (g.depth text)) hne
  have hd : (eval g (g.depth text) quiet h c s).1 ≠ .exhausted := by
    rw [eval_fst, ← hst.course_eq g _ (Nat.le_max_right n (g.depth text)) hc, ← eval_fst, hmax]
    exact hne
  rw [eval_mono g hm hd, ← eval_mono g (Nat.le_max_right n (g.depth text)) hd, hmax]

/-- What ends at some depth ends at the depth of the grammar. -/
theorem eval_depth {text : String} {n : Nat} {quiet : Bool} {h : Handle} {s : σ}
    (hne : (eval g n quiet h (.atStart text) s).1 ≠ .exhausted) :
    eval g (g.depth text) quiet h (.atStart text) s = eval g n quiet h (.atStart text) s :=
  eval_of_depth_le g (Nat.le_refl _) (.refl _) hne

end

end Peg
