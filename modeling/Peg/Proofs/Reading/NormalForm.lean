import Peg.Proofs.Reading.Reference

/-!
# Normal forms of bodies

The reader makes no list of one member, and none whose first member is a list of the same kind.
`Body.norm` does to a body what printing it and reading it back does.
-/

namespace Peg.Bnf

def isName (n : String) : Bool :=
  !n.toList.isEmpty && n.toList.all Direct.isNameChar

mutual

def Body.norm : Body → Body
  | .name n => .name n
  | .lit text => .lit text
  | .opt b => .opt b.norm
  | .plus b => .plus b.norm
  | .conj bs => Kind.conj.list (normList bs)
  | .disj bs => Kind.disj.list (normList bs)

def normList : List Body → List Body
  | [] => []
  | b :: bs => b.norm :: normList bs

end

mutual

/-- Names are names, and no list is empty. -/
def Body.isPrintable : Body → Bool
  | .name n => isName n
  | .lit _ => true
  | .opt b => b.isPrintable
  | .plus b => b.isPrintable
  | .conj bs => !bs.isEmpty && allPrintable bs
  | .disj bs => !bs.isEmpty && allPrintable bs

def allPrintable : List Body → Bool
  | [] => true
  | b :: bs => b.isPrintable && allPrintable bs

end

/-- At least two members, the first of which is no list of this kind. -/
def Kind.isProper (k : Kind) : List Body → Bool
  | b :: _ :: _ => (k.members? b).isNone
  | _ => false

mutual

/-- Names are names, and every list has at least two members and begins with something other than a
list of its own kind. -/
def Body.isNormal : Body → Bool
  | .name n => isName n
  | .lit _ => true
  | .opt b => b.isNormal
  | .plus b => b.isNormal
  | .conj bs => Kind.conj.isProper bs && allNormal bs
  | .disj bs => Kind.disj.isProper bs && allNormal bs

def allNormal : List Body → Bool
  | [] => true
  | b :: bs => b.isNormal && allNormal bs

end

/-! ## Lists -/

theorem normList_eq (bs : List Body) : normList bs = bs.map Body.norm := by
  induction bs with
  | nil => rfl
  | cons b bs ih => rw [normList, ih, List.map_cons]

theorem allNormal_eq (bs : List Body) : allNormal bs = bs.all Body.isNormal := by
  induction bs with
  | nil => rfl
  | cons b bs ih => rw [allNormal, ih, List.all_cons]

theorem Kind.list_of_isProper {k : Kind} {bs : List Body} (h : k.isProper bs) :
    k.list bs = k.make bs := by
  match bs, h with
  | b :: c :: bs, h =>
    have hb : k.members? b = none := Option.isNone_iff_eq_none.mp h
    rw [Kind.list, hb]
    exact List.cons_ne_nil c bs

/-! ## Normal bodies -/

mutual

theorem Body.isPrintable_of_isNormal : ∀ b : Body, b.isNormal → b.isPrintable
  | .name _, h => h
  | .lit _, _ => rfl
  | .opt b, h => b.isPrintable_of_isNormal h
  | .plus b, h => b.isPrintable_of_isNormal h
  | .conj bs, h | .disj bs, h => by
    obtain ⟨hp, hn⟩ := Bool.and_eq_true_iff.mp h
    refine Bool.and_eq_true_iff.mpr ⟨?_, allPrintable_of_allNormal bs hn⟩
    cases bs with
    | nil => cases hp
    | cons b bs => rfl

theorem allPrintable_of_allNormal : ∀ bs : List Body, allNormal bs → allPrintable bs
  | [], _ => rfl
  | b :: bs, h => by
    obtain ⟨hb, hbs⟩ := Bool.and_eq_true_iff.mp h
    exact Bool.and_eq_true_iff.mpr
      ⟨b.isPrintable_of_isNormal hb, allPrintable_of_allNormal bs hbs⟩

end

mutual

theorem Body.norm_of_isNormal : ∀ b : Body, b.isNormal → b.norm = b
  | .name _, _ => rfl
  | .lit _, _ => rfl
  | .opt b, h => congrArg Body.opt (b.norm_of_isNormal h)
  | .plus b, h => congrArg Body.plus (b.norm_of_isNormal h)
  | .conj bs, h => by
    obtain ⟨hp, hn⟩ := Bool.and_eq_true_iff.mp h
    rw [Body.norm, normList_of_allNormal bs hn, Kind.list_of_isProper hp, Kind.make]
  | .disj bs, h => by
    obtain ⟨hp, hn⟩ := Bool.and_eq_true_iff.mp h
    rw [Body.norm, normList_of_allNormal bs hn, Kind.list_of_isProper hp, Kind.make]

theorem normList_of_allNormal : ∀ bs : List Body, allNormal bs → normList bs = bs
  | [], _ => rfl
  | b :: bs, h => by
    obtain ⟨hb, hbs⟩ := Bool.and_eq_true_iff.mp h
    rw [normList, b.norm_of_isNormal hb, normList_of_allNormal bs hbs]

end

theorem Kind.isNormal_make (k : Kind) (bs : List Body) :
    (k.make bs).isNormal = (k.isProper bs && bs.all Body.isNormal) := by
  cases k <;> rw [make, Body.isNormal, allNormal_eq]

theorem Kind.eq_make_of_members? {k : Kind} {b : Body} {bs : List Body}
    (h : k.members? b = some bs) : b = k.make bs := by
  cases k <;> cases b <;> cases h <;> rfl

/-- Lists of normal bodies are normal. -/
theorem Kind.isNormal_list (k : Kind) {b : Body} {bs : List Body} (hb : b.isNormal)
    (hbs : ∀ c ∈ bs, c.isNormal) : (k.list (b :: bs)).isNormal := by
  cases bs with
  | nil => exact hb
  | cons c bs =>
    have hall : (c :: bs).all Body.isNormal = true := List.all_eq_true.mpr hbs
    rw [Kind.list]
    · cases hm : k.members? b with
      | none =>
        rw [isNormal_make, List.all_cons, hb, hall, isProper, hm]
        rfl
      | some first =>
        rw [eq_make_of_members? hm, isNormal_make] at hb
        obtain ⟨hp, hn⟩ := Bool.and_eq_true_iff.mp hb
        have hp' : k.isProper (first ++ c :: bs) := by
          match first, hp with
          | _ :: _ :: _, hp => exact hp
        rw [isNormal_make, List.all_append, hn, hall, hp']
        rfl
    · exact List.cons_ne_nil c bs

mutual

theorem Body.isNormal_norm : ∀ b : Body, b.isPrintable → b.norm.isNormal
  | .name _, h => h
  | .lit _, _ => rfl
  | .opt b, h => b.isNormal_norm h
  | .plus b, h => b.isNormal_norm h
  | .conj (b :: bs), h | .disj (b :: bs), h => by
    obtain ⟨hb, hbs⟩ := Bool.and_eq_true_iff.mp (Bool.and_eq_true_iff.mp h).2
    exact Kind.isNormal_list _ (b.isNormal_norm hb) (isNormal_of_mem_normList bs hbs)

theorem isNormal_of_mem_normList :
    ∀ bs : List Body, allPrintable bs → ∀ c ∈ normList bs, c.isNormal
  | [], _, c, hc => absurd hc List.not_mem_nil
  | b :: bs, h, c, hc => by
    obtain ⟨hb, hbs⟩ := Bool.and_eq_true_iff.mp h
    rcases List.mem_cons.mp hc with rfl | hc
    · exact b.isNormal_norm hb
    · exact isNormal_of_mem_normList bs hbs c hc

end

/-! ## What is read is normal -/

theorem isName_of_run {t rest : List Char} {n : String}
    (h : Direct.run Direct.isNameChar t = some (n, rest)) : isName n := by
  unfold Direct.run at h
  split at h
  · cases h
  · rename_i hne
    obtain ⟨rfl, -⟩ := Prod.mk.injEq .. ▸ Option.some.inj h
    rw [isName, String.toList_ofList]
    simpa using hne

theorem isName_of_name {t rest : List Char} {n : String}
    (h : Direct.name t = some (n, rest)) : isName n := by
  obtain ⟨t₁, -, hr⟩ := Direct.exists_of_name h
  exact isName_of_run hr

namespace Direct

section
variable {inner : List Char → Option (Body × List Char)}
variable (hinner : ∀ t b rest, inner t = some (b, rest) → b.isNormal)
variable {t rest : List Char} {b : Body}
include hinner

theorem isNormal_enclosed {o c : Char} (h : enclosed inner o c t = some (b, rest)) :
    b.isNormal := by
  simp only [enclosed, Option.bind_eq_bind, Option.bind_eq_some_iff, Prod.exists] at h
  obtain ⟨t₁, -, b', t₂, hin, t₃, -, he⟩ := h
  obtain ⟨rfl, -⟩ := Prod.mk.injEq .. ▸ Option.some.inj he
  exact hinner _ _ _ hin

theorem isNormal_primary (h : primary inner t = some (b, rest)) : b.isNormal := by
  unfold primary at h
  split at h
  · rename_i n r hn
    obtain ⟨rfl, -⟩ := Prod.mk.injEq .. ▸ Option.some.inj h
    exact isName_of_name hn
  · obtain ⟨rfl, -⟩ := Prod.mk.injEq .. ▸ Option.some.inj h
    rfl
  · obtain ⟨rfl, -⟩ := Prod.mk.injEq .. ▸ Option.some.inj h
    rfl
  · split at h
    · rename_i ho
      obtain ⟨rfl, -⟩ := Prod.mk.injEq .. ▸ Option.some.inj h
      have hb := isNormal_enclosed hinner ho
      exact hb
    · exact isNormal_enclosed hinner h

theorem isNormal_postfixed (h : postfixed inner t = some (b, rest)) : b.isNormal := by
  simp only [postfixed, Option.bind_eq_bind, Option.bind_eq_some_iff, Prod.exists] at h
  obtain ⟨b', t₁, hp, he⟩ := h
  have hb := isNormal_primary hinner hp
  cases hel : ellipsis t₁ <;> simp only [hel] at he
  · obtain ⟨rfl, -⟩ := Prod.mk.injEq .. ▸ Option.some.inj he
    exact hb
  · obtain ⟨rfl, -⟩ := Prod.mk.injEq .. ▸ Option.some.inj he
    exact hb

theorem isNormal_members (n : Nat) (t : List Char) : ∀ c ∈ (members inner n t).1, c.isNormal := by
  induction n generalizing t with
  | zero => exact fun c hc => absurd hc List.not_mem_nil
  | succ n ih =>
    unfold members
    cases hp : postfixed inner (skip t) with
    | none => exact fun c hc => absurd hc List.not_mem_nil
    | some r =>
      exact List.forall_mem_cons.mpr ⟨isNormal_postfixed hinner hp, ih r.2⟩

theorem isNormal_sequence (h : sequence inner t = some (b, rest)) : b.isNormal := by
  simp only [sequence, Option.bind_eq_bind, Option.bind_eq_some_iff, Prod.exists] at h
  obtain ⟨b', t₁, hp, he⟩ := h
  obtain ⟨rfl, -⟩ := Prod.mk.injEq .. ▸ Option.some.inj he
  exact Kind.isNormal_list .conj (isNormal_postfixed hinner hp) (isNormal_members hinner _ _)

theorem isNormal_alternatives (n : Nat) (t : List Char) :
    ∀ c ∈ (alternatives inner n t).1, c.isNormal := by
  induction n generalizing t with
  | zero => exact fun c hc => absurd hc List.not_mem_nil
  | succ n ih =>
    unfold alternatives
    cases hp : (symbol '|' (skip t)).bind fun t => sequence inner (skip t) with
    | none => exact fun c hc => absurd hc List.not_mem_nil
    | some r =>
      obtain ⟨t₁, -, hs⟩ := Option.bind_eq_some_iff.mp hp
      exact List.forall_mem_cons.mpr ⟨isNormal_sequence hinner hs, ih r.2⟩

theorem isNormal_choice (h : choice inner t = some (b, rest)) : b.isNormal := by
  simp only [choice, Option.bind_eq_bind, Option.bind_eq_some_iff, Prod.exists] at h
  obtain ⟨b', t₁, hs, he⟩ := h
  obtain ⟨rfl, -⟩ := Prod.mk.injEq .. ▸ Option.some.inj he
  exact Kind.isNormal_list .disj (isNormal_sequence hinner hs) (isNormal_alternatives hinner _ _)

end

theorem isNormal_expressionAt (n : Nat) (t : List Char) (b : Body) (rest : List Char)
    (h : expressionAt n t = some (b, rest)) : b.isNormal := by
  induction n generalizing t b rest with
  | zero => cases h
  | succ n ih => exact isNormal_choice ih h

theorem isNormal_side {t rest : List Char} {k : Side} {b : Body}
    (h : side t = some (k, b, rest)) : b.isNormal := by
  unfold side at h
  split at h
  · rename_i he
    obtain ⟨-, rfl, -⟩ := Prod.mk.injEq .. ▸ Option.some.inj h
    exact isNormal_expressionAt _ _ _ _ he
  · obtain ⟨r, -, he⟩ := Option.map_eq_some_iff.mp h
    cases he
    rfl

theorem isNormal_rule {t : List Char} {r : Reading} (h : rule t = some r) :
    isName r.name ∧ r.definition.body.isNormal := by
  simp only [rule, Option.bind_eq_bind, Option.bind_eq_some_iff, Prod.exists] at h
  obtain ⟨n, t₁, hn, m, t₂, -, k, b, t₃, hs, t₄, -, he⟩ := h
  obtain rfl := Option.some.inj he
  exact ⟨isName_of_name hn, isNormal_side hs⟩

end Direct

end Peg.Bnf
