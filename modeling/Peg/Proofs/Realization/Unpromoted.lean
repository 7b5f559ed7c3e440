import Peg.Proofs.Realization.Additions

/-!
# What is not promoted

Only declared rules are promoted. All other expressions for a body are there as they were allocated,
which can be told from the arena in which nothing is promoted yet.
-/

namespace Peg

namespace Arena

def unpromoted (a : Arena) : Arena :=
  ⟨a.slots.map fun slot => if slot.promoted then ⟨.forward, false⟩ else slot⟩

/-- Expressions with content stay as they are, promoted or not. -/
def Steady (a a' : Arena) : Prop :=
  ∀ (i : Handle) (slot : Slot), a.slots[i]? = some slot → slot.node ≠ .forward → a'.slots[i]? = some slot

variable {a a' : Arena}

theorem slot_unpromoted (a : Arena) (i : Handle) : a.unpromoted.slots[i]? =
    a.slots[i]?.map fun slot => if slot.promoted then ⟨.forward, false⟩ else slot :=
  Array.getElem?_map

theorem node?_unpromoted {h : Handle} {node : Node} (hf : node ≠ .forward) :
    a.unpromoted.node? h = some node ↔ a.slots[h]? = some ⟨node, false⟩ := by
  rw [node?_eq_some_iff, slot_unpromoted]
  rcases a.slots[h]? with _ | ⟨node', _ | _⟩
  · simp
  · simp
  · simp [hf.symm]

theorem unpromoted_push (a : Arena) (node : Node) :
    a.unpromoted.push node = ((a.push node).1, (a.push node).2.unpromoted) := by
  simp [push, unpromoted, size, Array.map_push]

theorem Steady.grows (h : a.Steady a') : a.Grows a' := by
  intro k node hn hf
  obtain ⟨slot, hs, rfl⟩ := node?_eq_some_iff.mp hn
  exact node?_of_slot (h k slot hs hf)

theorem Steady.unpromoted (h : a.Steady a') : a.unpromoted.Grows a'.unpromoted := by
  intro k node hn hf
  exact (node?_unpromoted hf).mpr (h k _ ((node?_unpromoted hf).mp hn) hf)

theorem steady_push (a : Arena) (node : Node) : a.Steady (a.push node).2 := by
  intro i slot hs _
  rw [slot_push, if_neg (Nat.ne_of_lt (lt_size_of_slot hs)), hs]

end Arena

namespace Building

/-- What is built does not depend on what is promoted. -/
def Blind {α : Type} (x : Building α) : Prop :=
  ∀ a, x a.unpromoted = ((x a).1, (x a).2.unpromoted)

theorem blind_pure {α : Type} (x : α) : Blind (pure x) :=
  fun _ => rfl

theorem blind_alloc (node : Node) : Blind (alloc node) :=
  fun a => a.unpromoted_push node

theorem blind_seq : ∀ items, Blind (seq items)
  | [e] => blind_pure e
  | [] => blind_alloc _
  | _ :: _ :: _ => blind_alloc _

theorem blind_choice : ∀ items, Blind (choice items)
  | [e] => blind_pure e
  | [] => blind_alloc _
  | _ :: _ :: _ => blind_alloc _

theorem blind_opt (item : Handle) : Blind (opt item) := by
  intro a
  change choice [item, (seq [] a.unpromoted).1] (seq [] a.unpromoted).2 = _
  rw [blind_seq [] a]
  exact blind_choice _ _

theorem blind_bind {ε α β : Type} {x : ExceptT ε Building α} {f : α → ExceptT ε Building β}
    (hx : Blind x.run) (hf : ∀ r, Blind (f r).run) : Blind (x >>= f).run := by
  intro a
  change ExceptT.bindCont f (x.run a.unpromoted).1 (x.run a.unpromoted).2 =
    ((ExceptT.bindCont f (x.run a).1 (x.run a).2).1,
      (ExceptT.bindCont f (x.run a).1 (x.run a).2).2.unpromoted)
  rw [hx a]
  rcases x.run a with ⟨_ | r, a'⟩
  · rfl
  · exact hf r a'

theorem blind_lift {ε α : Type} {x : Building α} (hx : Blind x) :
    Blind (liftM x : ExceptT ε Building α).run := by
  intro a
  change (Except.ok (x a.unpromoted).1, (x a.unpromoted).2) = _
  rw [hx a]
  rfl

end Building

namespace Bnf

open Building

section
variable {rs : RuleSet} {known known' : RuleTable} {rule : String} {m : Mode} {a a' : Arena}

theorem blind_lookUp (n : String) : Blind (lookUp known rule n).run := by
  unfold lookUp
  split <;> exact blind_pure _

theorem blind_spacer : Blind (spacer rs known rule m).run := by
  unfold spacer
  split
  · exact blind_bind (blind_lookUp _) fun _ => blind_pure _
  · exact blind_pure _

mutual

theorem blind_express : ∀ b, Blind (express rs known rule m b).run
  | .lit _ => blind_lift (blind_alloc _)
  | .name n => blind_lookUp n
  | .opt b => blind_bind (blind_express b) fun e => blind_lift (blind_opt e)
  | .plus b => blind_bind (blind_express b) fun _ => blind_lift (blind_alloc _)
  | .disj bs => blind_bind (blind_expressAll bs) fun es => blind_lift (blind_choice es)
  | .conj bs => blind_bind blind_spacer fun _ =>
    blind_bind (blind_expressAll bs) fun _ => blind_lift (blind_seq _)

theorem blind_expressAll : ∀ bs, Blind (expressAll rs known rule m bs).run
  | [] => blind_pure _
  | b :: bs => blind_bind (blind_express b) fun _ =>
    blind_bind (blind_expressAll bs) fun _ => blind_pure _

end

/-- No rule is among the expressions that are made for a body, apart from those that it names. -/
theorem express_unpromoted {b : Body} {h : Handle}
    (hb : express rs known rule m b a = (.ok h, a')) : Means rs known a'.unpromoted m b h := by
  have hu : express rs known rule m b a.unpromoted = (.ok h, a'.unpromoted) := by
    rw [show express rs known rule m b a.unpromoted = _ from blind_express b a]
    change ((express rs known rule m b a).1, (express rs known rule m b a).2.unpromoted) = _
    rw [hb]
  exact (express_spec (fun _ _ => rfl) hu fun _ _ => rfl).2

/-! ## Tables that agree -/

/-- The rule needs the name for its body, or between the members of a sequence. -/
def Needs (rs : RuleSet) (d : Definition) (n : String) : Prop :=
  n ∈ d.body.names ∨ rs.options.spacer? d.mode = some n

theorem IsSpacer.of_agree (hs : ∀ n, rs.options.spacer? m = some n → known[n]? = known'[n]?)
    {ws : Option Handle} (h : IsSpacer rs known m ws) : IsSpacer rs known' m ws := by
  refine ⟨h.1.trans ?_, h.2⟩
  cases hsp : rs.options.spacer? m with
  | none => rfl
  | some n => exact hs n hsp

mutual

theorem Means.of_agree (hs : ∀ n, rs.options.spacer? m = some n → known[n]? = known'[n]?) :
    ∀ {b : Body} {h : Handle}, (∀ n ∈ b.names, known[n]? = known'[n]?) →
      Means rs known a m b h → Means rs known' a m b h
  | .name n, _, hn, hm => (hn n List.mem_cons_self).symm.trans hm
  | .lit _, _, _, hm => hm
  | .opt _, _, hn, ⟨e, nothing, hm, hc⟩ => ⟨e, nothing, hm.of_agree hs hn, hc⟩
  | .plus _, _, hn, ⟨e, hm, hc⟩ => ⟨e, hm.of_agree hs hn, hc⟩
  | .conj _, _, hn, ⟨es, ws, hm, hws, hj⟩ => ⟨es, ws, hm.of_agree hs hn, hws.of_agree hs, hj⟩
  | .disj _, _, hn, ⟨es, hm, hj⟩ => ⟨es, hm.of_agree hs hn, hj⟩

theorem MeansAll.of_agree (hs : ∀ n, rs.options.spacer? m = some n → known[n]? = known'[n]?) :
    ∀ {bs : List Body} {es : List Handle}, (∀ n ∈ namesOf bs, known[n]? = known'[n]?) →
      MeansAll rs known a m bs es → MeansAll rs known' a m bs es
  | [], _, _, hm => hm
  | _ :: _, _, hn, ⟨e, es', hm, hms, he⟩ =>
    ⟨e, es', hm.of_agree hs fun n hn' => hn n (List.mem_append_left _ hn'),
      hms.of_agree hs fun n hn' => hn n (List.mem_append_right _ hn'), he⟩

end

end

end Bnf

end Peg
