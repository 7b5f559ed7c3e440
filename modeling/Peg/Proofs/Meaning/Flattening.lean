import Peg.Proofs.Meaning.Interpreter
import Peg.Proofs.Reading.NormalForm

/-!
# Flat bodies

A list of one member means what that member means, and a list whose first member is a list of its own
kind means the same with the members of that one in its place. So a body means what its normal form
means, and rules mean what they mean when all their bodies are in normal form, as long as nothing is
put between the members of a sequence.
-/

namespace Peg

/-! ## Maps -/

section
universe u v w x

open Std.DTreeMap.Internal in
theorem impl_map_map {α : Type u} [Ord α] {β : α → Type v} {γ : α → Type w} {δ : α → Type x}
    (f : (a : α) → β a → γ a) (g : (a : α) → γ a → δ a) (t : Impl α β) :
    (t.map f).map g = t.map fun a b => g a (f a b) := by
  induction t with
  | inner size a b l r ihl ihr => simp only [Impl.map, ihl, ihr]
  | leaf => rfl

theorem treeMap_map_map {α : Type u} [Ord α] {β : Type v} {γ : Type w} {δ : Type x}
    (t : Std.TreeMap α β) (f : α → β → γ) (g : α → γ → δ) :
    (t.map f).map g = t.map fun a b => g a (f a b) := by
  rcases t with ⟨⟨t, h⟩⟩
  simp only [Std.TreeMap.map, Std.DTreeMap.map, impl_map_map]

end

namespace Bnf

/-- The rules with their bodies as they are when they are printed and read back. -/
def flatten (defs : Definitions) : Definitions :=
  defs.map fun _ d => { d with body := d.body.norm }

theorem getElem?_flatten (defs : Definitions) (n : String) :
    (flatten defs)[n]? = defs[n]?.map fun d => { d with body := d.body.norm } :=
  Std.TreeMap.getElem?_map

/-! ## Names -/

theorem namesOf_append (as bs : List Body) : namesOf (as ++ bs) = namesOf as ++ namesOf bs := by
  induction as with
  | nil => rfl
  | cons a as ih => rw [List.cons_append, namesOf, ih, namesOf, List.append_assoc]

theorem Kind.names_make (k : Kind) (bs : List Body) : (k.make bs).names = namesOf bs := by
  cases k <;> rfl

theorem Kind.list_cons_cons (k : Kind) (b c : Body) (bs : List Body) :
    k.list (b :: c :: bs) = k.make (b :: c :: bs) ∨
      ∃ as, b = k.make as ∧ k.list (b :: c :: bs) = k.make (as ++ c :: bs) := by
  simp only [list]
  cases hb : k.members? b with
  | none => exact .inl rfl
  | some as => exact .inr ⟨as, eq_make_of_members? hb, rfl⟩

theorem Kind.names_list (k : Kind) (bs : List Body) : (k.list bs).names = namesOf bs := by
  match bs with
  | [] => exact k.names_make []
  | [b] => rw [list, namesOf, namesOf, List.append_nil]
  | b :: c :: bs =>
    rcases k.list_cons_cons b c bs with hl | ⟨as, rfl, hl⟩
    · rw [hl, names_make]
    · have hcons : namesOf (k.make as :: c :: bs) = namesOf as ++ namesOf (c :: bs) :=
        congrArg (· ++ _) (k.names_make as)
      rw [hl, names_make, namesOf_append, hcons]

mutual

theorem Body.names_norm : ∀ b : Body, b.norm.names = b.names
  | .name _ => rfl
  | .lit _ => rfl
  | .opt b => b.names_norm
  | .plus b => b.names_norm
  | .conj bs => (Kind.names_list .conj _).trans (namesOf_normList bs)
  | .disj bs => (Kind.names_list .disj _).trans (namesOf_normList bs)

theorem namesOf_normList : ∀ bs : List Body, namesOf (normList bs) = namesOf bs
  | [] => rfl
  | b :: bs => by rw [normList, namesOf, b.names_norm, namesOf_normList bs, namesOf]

end

/-! ## One thing after the other -/

namespace Kind

def goal : Kind → List Body → Goal
  | conj, bs => .all bs
  | disj, bs => .first bs

/-- The next member goes on where `t'` is ahead, when one has come to `v` on `t`. -/
def GoesOn : Kind → (t : List Char) → (v : Verdict) → (t' : List Char) → Prop
  | conj, _, v, t' => v = .took t'
  | disj, t, v, t' => v = .refused ∧ t' = t

/-- What comes of `x`, and of `y` where that goes on. -/
def Then (k : Kind) (x y : List Char → Verdict → Prop) (t : List Char) (v : Verdict) : Prop :=
  (∃ v' t', x t v' ∧ k.GoesOn t v' t' ∧ y t' v) ∨ x t v ∧ ∀ t', ¬k.GoesOn t v t'

variable {k : Kind} {t t' t'' : List Char} {v : Verdict} {x y z : List Char → Verdict → Prop}

theorem GoesOn.unique (h : k.GoesOn t v t') (h' : k.GoesOn t v t'') : t' = t'' := by
  cases k with
  | conj => exact Verdict.took.inj (h.symm.trans h')
  | disj => exact h.2.trans h'.2.symm

/-- Whether there is more to do does not depend on what was done before. -/
theorem GoesOn.iff (h : k.GoesOn t v t') {v' : Verdict} : k.GoesOn t' v' t'' ↔ k.GoesOn t v' t'' := by
  cases k with
  | conj => exact Iff.rfl
  | disj => rw [h.2]

theorem exists_goesOn (k : Kind) (t : List Char) : ∃ v, k.GoesOn t v t := by
  cases k with
  | conj => exact ⟨.took t, rfl⟩
  | disj => exact ⟨.refused, rfl, rfl⟩

theorem then_assoc : k.Then (k.Then x y) z = k.Then x (k.Then y z) := by
  funext t v
  apply propext
  constructor
  · rintro (⟨v', t', ⟨v'', t'', hx, hon, hy⟩ | ⟨hx, hstop⟩, hon', hz⟩ |
      ⟨⟨v', t', hx, hon, hy⟩ | ⟨hx, hstop⟩, hstop'⟩)
    · exact .inl ⟨v'', t'', hx, hon, .inl ⟨v', t', hy, hon.iff.mpr hon', hz⟩⟩
    · exact absurd hon' (hstop t')
    · exact .inl ⟨v', t', hx, hon, .inr ⟨hy, fun t'' h => hstop' t'' (hon.iff.mp h)⟩⟩
    · exact .inr ⟨hx, hstop⟩
  · rintro (⟨v', t', hx, hon, ⟨v'', t'', hy, hon', hz⟩ | ⟨hy, hstop⟩⟩ | ⟨hx, hstop⟩)
    · exact .inl ⟨v'', t'', .inl ⟨v', t', hx, hon, hy⟩, hon.iff.mp hon', hz⟩
    · exact .inr ⟨.inl ⟨v', t', hx, hon, hy⟩, fun t'' h => hstop t'' (hon.iff.mpr h)⟩
    · exact .inr ⟨.inr ⟨hx, hstop⟩, hstop⟩

/-- Nothing at all goes on at once. -/
theorem goesOn_then : k.Then (fun t v => k.GoesOn t v t) y = y := by
  funext t v
  apply propext
  constructor
  · rintro (⟨v', t', hx, hon, hy⟩ | ⟨hx, hstop⟩)
    · rwa [hx.unique hon]
    · exact absurd hx (hstop t)
  · intro hy
    obtain ⟨v', hon⟩ := k.exists_goesOn t
    exact .inl ⟨v', t, hon, hon, hy⟩

theorem then_goesOn : k.Then x (fun t v => k.GoesOn t v t) = x := by
  funext t v
  apply propext
  constructor
  · rintro (⟨v', t', hx, hon, hon'⟩ | ⟨hx, -⟩)
    · have hv : v = v' := by
        cases k with
        | conj => exact hon'.trans hon.symm
        | disj => exact hon'.1.trans hon.1.symm
      rwa [hv]
    · exact hx
  · intro hx
    by_cases h : ∃ t', k.GoesOn t v t'
    · obtain ⟨t', hon⟩ := h
      refine .inl ⟨v, t', hx, hon, ?_⟩
      exact hon.iff.mpr hon
    · exact .inr ⟨hx, fun t' hon => h ⟨t', hon⟩⟩

end Kind

/-! ## Lists -/

section
variable {defs : Definitions} {o : Options} {outer : String → List Char → Verdict → Prop} {m : Mode}

theorem meaning_nil (k : Kind) :
    Meaning defs o outer m (k.goal []) = fun t v => k.GoesOn t v t := by
  funext t v
  apply propext
  cases k with
  | conj =>
    constructor
    · intro h
      cases h
      rfl
    · rintro rfl
      exact .allNil
  | disj =>
    constructor
    · intro h
      cases h
      exact ⟨rfl, rfl⟩
    · rintro ⟨rfl, -⟩
      exact .firstNil

theorem meaning_cons (k : Kind) (b : Body) (bs : List Body) :
    Meaning defs o outer m (k.goal (b :: bs)) =
      k.Then (Meaning defs o outer m (.body b)) (Meaning defs o outer m (k.goal bs)) := by
  funext t v
  apply propext
  cases k with
  | conj =>
    constructor
    · intro h
      cases h with
      | allCons h hs => exact .inl ⟨_, _, h, rfl, hs⟩
      | allStop h hv => exact .inr ⟨h, hv⟩
    · rintro (⟨v', t', h, rfl, hs⟩ | ⟨h, hv⟩)
      · exact .allCons h hs
      · exact .allStop h hv
  | disj =>
    constructor
    · intro h
      cases h with
      | firstCons h hs => exact .inl ⟨_, _, h, ⟨rfl, rfl⟩, hs⟩
      | firstHead h hv => exact .inr ⟨h, fun t' hon => hv hon.1⟩
    · rintro (⟨v', t', h, ⟨rfl, rfl⟩, hs⟩ | ⟨h, hv⟩)
      · exact .firstCons h hs
      · exact .firstHead h fun hr => hv t ⟨hr, rfl⟩

theorem meaning_append (k : Kind) (as bs : List Body) :
    Meaning defs o outer m (k.goal (as ++ bs)) =
      k.Then (Meaning defs o outer m (k.goal as)) (Meaning defs o outer m (k.goal bs)) := by
  induction as with
  | nil => rw [List.nil_append, meaning_nil, Kind.goesOn_then]
  | cons a as ih => rw [List.cons_append, meaning_cons, ih, meaning_cons, Kind.then_assoc]

theorem meaning_singleton (k : Kind) (b : Body) :
    Meaning defs o outer m (k.goal [b]) = Meaning defs o outer m (.body b) := by
  rw [meaning_cons, meaning_nil, Kind.then_goesOn]

variable (hs : o.spacer? m = none)
include hs

theorem meaning_make (k : Kind) (bs : List Body) :
    Meaning defs o outer m (.body (k.make bs)) = Meaning defs o outer m (k.goal bs) := by
  funext t v
  apply propext
  cases k with
  | conj =>
    have hspaced : o.spaced m bs = bs := by rw [Options.spaced, hs]
    constructor
    · intro h
      cases h with
      | conj h => rwa [hspaced] at h
    · intro h
      refine .conj ?_
      rwa [hspaced]
  | disj =>
    constructor
    · intro h
      cases h with
      | disj h => exact h
    · exact .disj

theorem meaning_list (k : Kind) (bs : List Body) :
    Meaning defs o outer m (.body (k.list bs)) = Meaning defs o outer m (k.goal bs) := by
  match bs with
  | [] => exact meaning_make hs k []
  | [b] => exact (meaning_singleton k b).symm
  | b :: c :: bs =>
    rcases k.list_cons_cons b c bs with hl | ⟨as, rfl, hl⟩
    · rw [hl, meaning_make hs]
    · rw [hl, meaning_make hs, meaning_append, meaning_cons k (k.make as), meaning_make hs]

end

/-! ## Bodies -/

section
variable {defs : Definitions} {o : Options} {outer : String → List Char → Verdict → Prop} {m : Mode}
variable {b b' : Body}

theorem meaning_opt : Meaning defs o outer m (.body (.opt b)) = fun t v =>
    Meaning defs o outer m (.body b) t v ∧ v ≠ .refused ∨
      Meaning defs o outer m (.body b) t .refused ∧ v = .took t := by
  funext t v
  apply propext
  constructor
  · intro h
    cases h with
    | optHead h hv => exact .inl ⟨h, hv⟩
    | optNothing h => exact .inr ⟨h, rfl⟩
  · rintro (⟨h, hv⟩ | ⟨h, rfl⟩)
    · exact .optHead h hv
    · exact .optNothing h

theorem Meaning.more_congr
    (hb : Meaning defs o outer m (.body b) = Meaning defs o outer m (.body b')) {enough : Bool}
    {t : List Char} {v : Verdict} (h : Meaning defs o outer m (.more b enough) t v) :
    Meaning defs o outer m (.more b' enough) t v := by
  generalize hgoal : Goal.more b enough = goal at h
  induction h generalizing enough with
  | moreStop h =>
    cases hgoal
    exact .moreStop (hb ▸ h)
  | moreFault h =>
    cases hgoal
    exact .moreFault (hb ▸ h)
  | moreIdle h =>
    cases hgoal
    exact .moreIdle (hb ▸ h)
  | moreStep h hne _ _ ihs =>
    cases hgoal
    exact .moreStep (hb ▸ h) hne (ihs hb rfl)
  | _ => cases hgoal

theorem meaning_plus_congr
    (hb : Meaning defs o outer m (.body b) = Meaning defs o outer m (.body b')) :
    Meaning defs o outer m (.body (.plus b)) = Meaning defs o outer m (.body (.plus b')) := by
  funext t v
  apply propext
  constructor
  · intro h
    cases h with
    | plus h => exact .plus (h.more_congr hb)
  · intro h
    cases h with
    | plus h => exact .plus (h.more_congr hb.symm)

end

section
variable {defs : Definitions} {o : Options} {outer : String → List Char → Verdict → Prop} {m : Mode}

mutual

/-- A body means what its normal form means. -/
theorem meaning_norm (hs : o.spacer? m = none) : ∀ b : Body,
    Meaning defs o outer m (.body b.norm) = Meaning defs o outer m (.body b)
  | .name _ => rfl
  | .lit _ => rfl
  | .opt b => by rw [Body.norm, meaning_opt, meaning_norm hs b, meaning_opt]
  | .plus b => meaning_plus_congr (meaning_norm hs b)
  | .conj bs => by
    rw [Body.norm, meaning_list hs, meaning_normList hs, ← meaning_make hs, Kind.make]
  | .disj bs => by
    rw [Body.norm, meaning_list hs, meaning_normList hs, ← meaning_make hs, Kind.make]

theorem meaning_normList (hs : o.spacer? m = none) : ∀ (k : Kind) (bs : List Body),
    Meaning defs o outer m (k.goal (normList bs)) = Meaning defs o outer m (k.goal bs)
  | _, [] => rfl
  | k, b :: bs => by
    rw [normList, meaning_cons, meaning_norm hs b, meaning_normList hs k bs, meaning_cons]

end

end

/-! ## Rules -/

section
variable {defs defs' : Definitions} {o : Options} {outer : String → List Char → Verdict → Prop}
  {m : Mode} {goal : Goal} {t : List Char} {v : Verdict}

/-- Rules may be replaced by others, in which the bodies of the replaced ones mean no more than the
bodies in their place. -/
theorem Meaning.replace (hnone : ∀ n : String, defs[n]? = none → defs'[n]? = none)
    (hsome : ∀ (n : String) (d : Definition), defs[n]? = some d → ∃ d', defs'[n]? = some d' ∧ ∀ t v,
      Meaning defs' o outer d.mode (.body d.body) t v →
        Meaning defs' o outer d'.mode (.body d'.body) t v)
    (h : Meaning defs o outer m goal t v) : Meaning defs' o outer m goal t v := by
  induction h with
  | defined hd _ ih =>
    obtain ⟨d', hd', hbody⟩ := hsome _ _ hd
    exact .defined hd' (hbody _ _ ih)
  | outer hd h => exact .outer (hnone _ hd) h
  | litTook h => exact .litTook h
  | litRefused h => exact .litRefused h
  | optHead _ hv ih => exact .optHead ih hv
  | optNothing _ ih => exact .optNothing ih
  | plus _ ih => exact .plus ih
  | conj _ ih => exact .conj ih
  | disj _ ih => exact .disj ih
  | allNil => exact .allNil
  | allCons _ _ ih ihs => exact .allCons ih ihs
  | allStop _ hv ih => exact .allStop ih hv
  | firstNil => exact .firstNil
  | firstCons _ _ ih ihs => exact .firstCons ih ihs
  | firstHead _ hv ih => exact .firstHead ih hv
  | moreStop _ ih => exact .moreStop ih
  | moreFault _ ih => exact .moreFault ih
  | moreIdle _ ih => exact .moreIdle ih
  | moreStep _ hne _ ih ihs => exact .moreStep ih hne ihs

theorem Options.spacer?_literal (hl : o.spacing = .literal) (m : Mode) : o.spacer? m = none := by
  cases m <;> simp [spacer?, hl]

/-- Flat rules mean the same, whatever the names mean that are not defined. -/
theorem meaning_flatten_iff (hl : o.spacing = .literal) :
    Meaning (flatten defs) o outer m goal t v ↔ Meaning defs o outer m goal t v := by
  have hs := Options.spacer?_literal hl
  constructor
  · apply Meaning.replace
    · intro n hn
      rwa [getElem?_flatten, Option.map_eq_none_iff] at hn
    · intro n d hd
      rw [getElem?_flatten, Option.map_eq_some_iff] at hd
      obtain ⟨d', hd', rfl⟩ := hd
      refine ⟨d', hd', fun t v h => ?_⟩
      rwa [meaning_norm (hs d'.mode)] at h
  · apply Meaning.replace
    · intro n hn
      rw [getElem?_flatten, hn, Option.map_none]
    · intro n d hd
      refine ⟨{ d with body := d.body.norm }, by rw [getElem?_flatten, hd, Option.map_some], ?_⟩
      intro t v h
      rwa [meaning_norm (hs d.mode)]

end

/-! ## Analysis -/

section
variable (defs : Definitions)

theorem Definition.dependencies_norm (d : Definition) (ws : Option String) :
    ({ d with body := d.body.norm } : Definition).dependencies ws = d.dependencies ws := by
  rw [dependencies, dependencies, Body.names_norm]

theorem dependencies_flatten (ws : Option String) :
    dependencies (flatten defs) ws = dependencies defs ws := by
  rw [dependencies, dependencies, flatten, treeMap_map_map]
  simp only [Definition.dependencies_norm]

theorem checkWhiteSpace_flatten (ws : Option String) :
    checkWhiteSpace (flatten defs) ws = checkWhiteSpace defs ws := by
  cases ws with
  | none => rfl
  | some n =>
    rw [checkWhiteSpace, checkWhiteSpace, getElem?_flatten]
    cases defs[n]? <;> rfl

/-- Flat rules are analysed alike. -/
theorem ofDefinitions_flatten (options : Options) :
    RuleSet.ofDefinitions (flatten defs) options =
      (RuleSet.ofDefinitions defs options).map ({ · with definitions := flatten defs }) := by
  unfold RuleSet.ofDefinitions
  rw [checkWhiteSpace_flatten, dependencies_flatten, flatten, Std.TreeMap.keys_map]
  cases checkWhiteSpace defs options.whiteSpace <;> rfl

end

end Bnf

end Peg
