import Peg.Proofs.Arena.Slots
import Peg.Proofs.Meaning.Contents

/-!
# Bodies become expressions

`express` makes an expression that stands for the body, and changes nothing that was in the arena.
-/

namespace Peg

universe u v

/-! ## Computations that may fail -/

section
variable {ε σ : Type u} {α β : Type u} {s s' : σ}

/-- A sequence of computations succeeds if each of them does. -/
theorem bind_eq_ok {x : ExceptT ε (StateM σ) α} {f : α → ExceptT ε (StateM σ) β} {b : β} :
    (x >>= f) s = (.ok b, s') ↔ ∃ a s₁, x s = (.ok a, s₁) ∧ f a s₁ = (.ok b, s') := by
  change ExceptT.bindCont f (x s).1 (x s).2 = (.ok b, s') ↔ _
  rcases x s with ⟨_ | a, s₁⟩
  · constructor
    · exact fun h => nomatch (Prod.mk.inj h).1
    · rintro ⟨_, _, h, -⟩
      cases h
  · refine ⟨fun h => ⟨a, s₁, rfl, h⟩, ?_⟩
    rintro ⟨_, _, h, h'⟩
    cases h
    exact h'

theorem bind_of_ok {x : ExceptT ε (StateM σ) α} {f : α → ExceptT ε (StateM σ) β} {a : α}
    (h : x s = (.ok a, s')) : (x >>= f) s = f a s' := by
  change ExceptT.bindCont f (x s).1 (x s).2 = _
  rw [h]
  rfl

theorem bind_of_error {x : ExceptT ε (StateM σ) α} {f : α → ExceptT ε (StateM σ) β} {e : ε}
    (h : x s = (.error e, s')) : (x >>= f) s = (.error e, s') := by
  change ExceptT.bindCont f (x s).1 (x s).2 = _
  rw [h]
  rfl

theorem pure_eq_ok {a b : α} :
    (pure a : ExceptT ε (StateM σ) α) s = (.ok b, s') ↔ a = b ∧ s = s' := by
  constructor
  · intro h
    cases h
    exact ⟨rfl, rfl⟩
  · rintro ⟨rfl, rfl⟩
    rfl

/-- A computation that cannot fail, among those that may. -/
theorem lift_eq_ok {x : StateM σ α} {b : α} :
    (liftM x : ExceptT ε (StateM σ) α) s = (.ok b, s') ↔ x s = (b, s') := by
  change ((.ok (x s).1, (x s).2) : Except ε α × σ) = (.ok b, s') ↔ _
  rcases x s with ⟨a, s₁⟩
  constructor
  · intro h
    cases h
    rfl
  · intro h
    cases h
    rfl

end

/-! ## Building -/

namespace Arena

/-- The arena holds all that was there before, as it was. -/
def Extends (a a' : Arena) : Prop :=
  ∀ h node, a.node? h = some node → a'.node? h = some node

theorem Extends.refl (a : Arena) : a.Extends a :=
  fun _ _ hn => hn

theorem Extends.trans {a b c : Arena} (hab : a.Extends b) (hbc : b.Extends c) : a.Extends c :=
  fun h node hn => hbc h node (hab h node hn)

theorem Extends.grows {a a' : Arena} (h : a.Extends a') : a.Grows a' :=
  fun k node hn _ => h k node hn

end Arena

namespace Building

open Arena

variable {a a' : Arena} {h : Handle}

theorem alloc_eq {node : Node} (hb : alloc node a = (h, a')) :
    a.Extends a' ∧ a'.node? h = some node ∧ h = a.size := by
  cases hb
  exact ⟨fun _ _ hn => node?_push_of_some hn, (node?_push a node a.size).trans (if_pos rfl), rfl⟩

theorem seq_eq {items : List Handle} (hb : seq items a = (h, a')) :
    a.Extends a' ∧ a'.Joins .sequence items h := by
  match items, hb with
  | [], hb => exact ⟨(alloc_eq hb).1, (alloc_eq hb).2.1⟩
  | [e], hb =>
    cases hb
    exact ⟨.refl a, rfl⟩
  | _ :: _ :: _, hb => exact ⟨(alloc_eq hb).1, (alloc_eq hb).2.1⟩

theorem choice_eq {items : List Handle} (hb : choice items a = (h, a')) :
    a.Extends a' ∧ a'.Joins .choice items h := by
  match items, hb with
  | [], hb => exact ⟨(alloc_eq hb).1, (alloc_eq hb).2.1⟩
  | [e], hb =>
    cases hb
    exact ⟨.refl a, rfl⟩
  | _ :: _ :: _, hb => exact ⟨(alloc_eq hb).1, (alloc_eq hb).2.1⟩

theorem opt_eq {item : Handle} (hb : opt item a = (h, a')) :
    a.Extends a' ∧ ∃ nothing, a'.node? nothing = some (.sequence []) ∧
      a'.node? h = some (.choice [item, nothing]) := by
  rcases hs : seq [] a with ⟨nothing, a₁⟩
  have hc : choice [item, nothing] a₁ = (h, a') := by
    rw [← hb]
    change _ = choice [item, (seq [] a).1] (seq [] a).2
    rw [hs]
  obtain ⟨he, hn⟩ := seq_eq hs
  obtain ⟨he', hn'⟩ := choice_eq hc
  exact ⟨he.trans he', nothing, he' _ _ hn, hn'⟩

end Building

namespace Bnf

/-! ## Expressing a body -/

section
variable {rs : RuleSet} {table known : RuleTable} {rule : String} {m : Mode} {a a' : Arena}

theorem lookUp_eq {n : String} {h : Handle} (hb : lookUp known rule n a = (.ok h, a')) :
    known[n]? = some h ∧ a = a' := by
  unfold lookUp at hb
  cases hn : known[n]? with
  | none =>
    rw [hn] at hb
    exact nomatch (Prod.mk.inj hb).1
  | some h' =>
    rw [hn] at hb
    obtain ⟨rfl, rfl⟩ := pure_eq_ok.mp hb
    exact ⟨rfl, rfl⟩

theorem spacer_eq {ws : Option Handle} (hb : spacer rs known rule m a = (.ok ws, a'))
    (hws : ∀ n, rs.options.spacer? m = some n → known[n]? = table[n]?) :
    IsSpacer rs table m ws ∧ a = a' := by
  have hnone (hs : rs.options.spacer? m = none)
      (hb : (pure none : ExceptT CompileError Building _) a = (.ok ws, a')) :
      IsSpacer rs table m ws ∧ a = a' := by
    obtain ⟨rfl, rfl⟩ := pure_eq_ok.mp hb
    exact ⟨⟨by rw [hs]; rfl, fun _ => hs⟩, rfl⟩
  unfold spacer at hb
  cases m with
  | strict => exact hnone rfl hb
  | loose =>
    cases hsp : rs.options.spacing with
    | literal =>
      rw [hsp] at hb
      exact hnone (by simp only [Options.spacer?, hsp]) hb
    | interleave =>
      have hs : rs.options.spacer? .loose = rs.options.whiteSpace := by
        simp only [Options.spacer?, hsp]
      rw [hsp] at hb
      cases hw : rs.options.whiteSpace with
      | none =>
        rw [hw] at hb
        exact hnone (hs.trans hw) hb
      | some n =>
        rw [hw] at hb hs
        obtain ⟨h, a₁, hl, hb⟩ := bind_eq_ok.mp (show (lookUp known rule n >>= fun h =>
          pure (some h)) a = (.ok ws, a') from hb)
        obtain ⟨rfl, rfl⟩ := pure_eq_ok.mp hb
        obtain ⟨hk, rfl⟩ := lookUp_eq hl
        rw [hws n hs] at hk
        exact ⟨⟨by rw [hs, Option.bind_some, hk], nofun⟩, rfl⟩

mutual

/-- The expression that is made stands for the body, if the table that was used agrees with `table`
on the names that were looked up. -/
theorem express_spec (hws : ∀ n, rs.options.spacer? m = some n → known[n]? = table[n]?) :
    ∀ {b : Body} {a a' : Arena} {h : Handle}, express rs known rule m b a = (.ok h, a') →
      (∀ n ∈ b.names, known[n]? = table[n]?) → a.Extends a' ∧ Means rs table a' m b h
  | .lit text, a, a', h, hb, _ => by
    obtain ⟨he, hn, -⟩ := Building.alloc_eq (lift_eq_ok.mp hb)
    exact ⟨he, hn⟩
  | .name n, a, a', h, hb, hk => by
    obtain ⟨ht, rfl⟩ := lookUp_eq hb
    exact ⟨.refl a, (hk n List.mem_cons_self).symm.trans ht⟩
  | .opt b, a, a', h, hb, hk => by
    obtain ⟨e, a₁, hb₁, hb₂⟩ := bind_eq_ok.mp hb
    obtain ⟨he, hm⟩ := express_spec hws hb₁ hk
    obtain ⟨he', nothing, hn, hc⟩ := Building.opt_eq (lift_eq_ok.mp hb₂)
    exact ⟨he.trans he', e, nothing, hm.grow he'.grows, hn, hc⟩
  | .plus b, a, a', h, hb, hk => by
    obtain ⟨e, a₁, hb₁, hb₂⟩ := bind_eq_ok.mp hb
    obtain ⟨he, hm⟩ := express_spec hws hb₁ hk
    obtain ⟨he', hc, -⟩ := Building.alloc_eq (lift_eq_ok.mp hb₂)
    exact ⟨he.trans he', e, hm.grow he'.grows, hc⟩
  | .disj bs, a, a', h, hb, hk => by
    obtain ⟨es, a₁, hb₁, hb₂⟩ := bind_eq_ok.mp hb
    obtain ⟨he, hm⟩ := expressAll_spec hws hb₁ hk
    obtain ⟨he', hc⟩ := Building.choice_eq (lift_eq_ok.mp hb₂)
    exact ⟨he.trans he', es, hm.grow he'.grows, hc⟩
  | .conj bs, a, a', h, hb, hk => by
    obtain ⟨ws, a₀, hb₀, hb⟩ := bind_eq_ok.mp hb
    obtain ⟨hsp, rfl⟩ := spacer_eq hb₀ hws
    obtain ⟨es, a₁, hb₁, hb₂⟩ := bind_eq_ok.mp hb
    obtain ⟨he, hm⟩ := expressAll_spec hws hb₁ hk
    obtain ⟨he', hc⟩ := Building.seq_eq (lift_eq_ok.mp hb₂)
    exact ⟨he.trans he', es, ws, hm.grow he'.grows, hsp, hc⟩

theorem expressAll_spec (hws : ∀ n, rs.options.spacer? m = some n → known[n]? = table[n]?) :
    ∀ {bs : List Body} {a a' : Arena} {es : List Handle},
      expressAll rs known rule m bs a = (.ok es, a') →
        (∀ n ∈ namesOf bs, known[n]? = table[n]?) → a.Extends a' ∧ MeansAll rs table a' m bs es
  | [], a, a', es, hb, _ => by
    obtain ⟨rfl, rfl⟩ := pure_eq_ok.mp hb
    exact ⟨.refl a, rfl⟩
  | b :: bs, a, a', es, hb, hk => by
    obtain ⟨e, a₁, hb₁, hb⟩ := bind_eq_ok.mp hb
    obtain ⟨es', a₂, hb₂, hb⟩ := bind_eq_ok.mp hb
    obtain ⟨rfl, rfl⟩ := pure_eq_ok.mp hb
    obtain ⟨he, hm⟩ := express_spec hws hb₁ fun n hn => hk n (List.mem_append_left _ hn)
    obtain ⟨he', hms⟩ := expressAll_spec hws hb₂ fun n hn => hk n (List.mem_append_right _ hn)
    exact ⟨he.trans he', e, es', hm.grow he'.grows, hms, rfl⟩

end

end

end Bnf

end Peg
