import Peg.Proofs.Engine.References
import Peg.Proofs.Meaning.Expressed

/-!
# What is added to an arena

Rules are realized in an arena that holds the predefined expressions. Expressing a body succeeds when
the table has all names in it. It leaves all that was there as it was, and adds nothing but nodes
with content, which refer to each other and to what is predefined.
-/

namespace Peg

theorem mem_iff_entry {α : Type} {table : Std.TreeMap String α} {n : String} :
    n ∈ table ↔ ∃ x, table[n]? = some x := by
  rw [Std.TreeMap.mem_iff_isSome_getElem?, Option.isSome_iff_exists]

namespace Bnf

open Building

section
variable (predefined : RuleTable) (base : Arena)

/-- Expressions that the predefined ones lead to, before anything is added. -/
def Given (j : Handle) : Prop :=
  ∃ (n : String) (k : Handle), predefined[n]? = some k ∧ base.Within k j

/-- Nothing predefined is a forward declaration or refers to a rule by its name. -/
def Clean : Prop :=
  ∀ j node, Given predefined base j → base.node? j = some node →
    node ≠ .forward ∧ ∀ name, node ≠ .rule name

/-- Expressions that were added, or that the predefined ones lead to. -/
def InUse (a : Arena) (j : Handle) : Prop :=
  base.size ≤ j ∧ j < a.size ∨ Given predefined base j

def Proper (a : Arena) (node : Node) : Prop :=
  (∀ name, node ≠ .rule name) ∧ ∀ k ∈ node.parts, InUse predefined base a k

structure Adds (a a' : Arena) : Prop where
  size_le : a.size ≤ a'.size
  kept : ∀ i < a.size, a'.slots[i]? = a.slots[i]?
  added : ∀ i slot, a.size ≤ i → a'.slots[i]? = some slot →
    slot.node ≠ .forward ∧ Proper predefined base a' slot.node

end

section
variable {predefined : RuleTable} {base a b c : Arena}

theorem Given.lt_size (hb : base.InBounds)
    (hin : ∀ (n : String) (k : Handle), predefined[n]? = some k → k < base.size) {j : Handle}
    (hj : Given predefined base j) : j < base.size := by
  obtain ⟨n, k, hk, hw⟩ := hj
  exact hw.lt_size hb (hin n k hk)

theorem InUse.mono (hs : a.size ≤ b.size) {j : Handle} (h : InUse predefined base a j) :
    InUse predefined base b j :=
  h.imp_left fun ⟨hle, hlt⟩ => ⟨hle, hlt.trans_le hs⟩

theorem Proper.mono (hs : a.size ≤ b.size) {node : Node} (h : Proper predefined base a node) :
    Proper predefined base b node :=
  ⟨h.1, fun k hk => (h.2 k hk).mono hs⟩

theorem Adds.refl (a : Arena) : Adds predefined base a a where
  size_le := Nat.le_refl _
  kept _ _ := rfl
  added _ _ hi hs := absurd (Arena.lt_size_of_slot hs) (Nat.not_lt.mpr hi)

theorem Adds.trans (hab : Adds predefined base a b) (hbc : Adds predefined base b c) :
    Adds predefined base a c where
  size_le := hab.size_le.trans hbc.size_le
  kept i hi := (hbc.kept i (hi.trans_le hab.size_le)).trans (hab.kept i hi)
  added i slot hi hs := by
    by_cases hb : i < b.size
    · rw [hbc.kept i hb] at hs
      obtain ⟨hf, hp⟩ := hab.added i slot hi hs
      exact ⟨hf, hp.mono hbc.size_le⟩
    · exact hbc.added i slot (Nat.le_of_not_lt hb) hs

theorem adds_push {node : Node} (hf : node ≠ .forward) (hp : Proper predefined base a node) :
    Adds predefined base a (a.push node).2 where
  size_le := by
    rw [Arena.size_push]
    exact Nat.le_succ _
  kept i hi := by rw [Arena.slot_push, if_neg (Nat.ne_of_lt hi)]
  added i slot hi hs := by
    rw [Arena.slot_push] at hs
    by_cases h : i = a.size
    · rw [if_pos h] at hs
      obtain rfl := Option.some.inj hs
      refine ⟨hf, hp.mono ?_⟩
      rw [Arena.size_push]
      exact Nat.le_succ _
    · rw [if_neg h] at hs
      exact absurd (Arena.lt_size_of_slot hs) (Nat.not_lt.mpr hi)

/-! ## Composites -/

/-- Allocating is all right for any node whose parts are in use. -/
theorem alloc_adds (hb : base.size ≤ a.size) (node : Node) (hf : node ≠ .forward)
    (hr : ∀ name, node ≠ .rule name) (hp : ∀ k ∈ node.parts, InUse predefined base a k) :
    ∃ h a', alloc node a = (h, a') ∧ Adds predefined base a a' ∧ InUse predefined base a' h := by
  refine ⟨a.size, (a.push node).2, rfl, adds_push hf ⟨hr, hp⟩, .inl ⟨hb, ?_⟩⟩
  rw [Arena.size_push]
  exact Nat.lt_succ_self _

theorem seq_adds (hb : base.size ≤ a.size) (items : List Handle)
    (hi : ∀ k ∈ items, InUse predefined base a k) :
    ∃ h a', seq items a = (h, a') ∧ Adds predefined base a a' ∧ InUse predefined base a' h := by
  match items with
  | [e] => exact ⟨e, a, rfl, .refl a, hi e (List.mem_singleton_self e)⟩
  | [] => exact alloc_adds hb _ (by simp) (by simp) hi
  | _ :: _ :: _ => exact alloc_adds hb _ (by simp) (by simp) hi

theorem choice_adds (hb : base.size ≤ a.size) (items : List Handle)
    (hi : ∀ k ∈ items, InUse predefined base a k) :
    ∃ h a', choice items a = (h, a') ∧ Adds predefined base a a' ∧ InUse predefined base a' h := by
  match items with
  | [e] => exact ⟨e, a, rfl, .refl a, hi e (List.mem_singleton_self e)⟩
  | [] => exact alloc_adds hb _ nofun nofun hi
  | _ :: _ :: _ => exact alloc_adds hb _ nofun nofun hi

theorem opt_adds (hb : base.size ≤ a.size) {item : Handle} (hi : InUse predefined base a item) :
    ∃ h a', opt item a = (h, a') ∧ Adds predefined base a a' ∧ InUse predefined base a' h := by
  obtain ⟨nothing, a₁, hs, hadds, hn⟩ : ∃ nothing a₁, seq [] a = (nothing, a₁) ∧
      Adds predefined base a a₁ ∧ InUse predefined base a₁ nothing := seq_adds hb [] nofun
  have hparts : ∀ k ∈ [item, nothing], InUse predefined base a₁ k := by
    simp [hn, hi.mono hadds.size_le]
  obtain ⟨h, a', hc, hadds', hh⟩ := choice_adds (hb.trans hadds.size_le) _ hparts
  refine ⟨h, a', ?_, hadds.trans hadds', hh⟩
  change choice [item, (seq [] a).1] (seq [] a).2 = _
  rw [hs]
  exact hc

theorem mem_interleave {ws : Option Handle} {es : List Handle} {k : Handle}
    (hk : k ∈ interleave ws es) : k ∈ ws ∨ k ∈ es := by
  cases ws with
  | none => exact .inr hk
  | some w =>
    obtain ⟨e, he, hk⟩ := List.mem_flatMap.mp hk
    rcases List.mem_pair.mp hk with rfl | rfl
    · exact .inl rfl
    · exact .inr he

end

/-! ## Bodies -/

section
variable {rs : RuleSet} {known predefined : RuleTable} {rule : String} {m : Mode} {base a : Arena}

theorem lookUp_adds (rule : String) {n : String} (hn : n ∈ known)
    (hk : ∀ (n : String) (h : Handle), known[n]? = some h → InUse predefined base a h) :
    ∃ h, lookUp known rule n a = (.ok h, a) ∧ InUse predefined base a h := by
  obtain ⟨h, hh⟩ := mem_iff_entry.mp hn
  refine ⟨h, ?_, hk n h hh⟩
  unfold lookUp
  rw [hh]
  rfl

theorem spacer_adds (rule : String) (hs : ∀ n, rs.options.spacer? m = some n → n ∈ known)
    (hk : ∀ (n : String) (h : Handle), known[n]? = some h → InUse predefined base a h) :
    ∃ ws, spacer rs known rule m a = (.ok ws, a) ∧ ∀ w ∈ ws, InUse predefined base a w := by
  have hnone : ∃ ws : Option Handle, (pure none : ExceptT CompileError Building _) a = (.ok ws, a) ∧
      ∀ w ∈ ws, InUse predefined base a w := ⟨none, rfl, nofun⟩
  unfold spacer
  cases m with
  | strict => exact hnone
  | loose =>
    cases hsp : rs.options.spacing with
    | literal => exact hnone
    | interleave =>
      cases hw : rs.options.whiteSpace with
      | none => exact hnone
      | some n =>
        obtain ⟨h, hl, hu⟩ := lookUp_adds rule
          (hs n (by simp only [Options.spacer?, hsp, hw])) hk
        refine ⟨some h, ?_, fun w hw => ?_⟩
        · exact bind_eq_ok.mpr ⟨h, a, hl, rfl⟩
        · obtain rfl := Option.mem_some_iff.mp hw
          exact hu

mutual

/-- A body is expressed without an error when the table has its names. -/
theorem express_adds (hs : ∀ n, rs.options.spacer? m = some n → n ∈ known) : ∀ {b : Body} {a : Arena},
    base.size ≤ a.size → (∀ (n : String) (h : Handle), known[n]? = some h → InUse predefined base a h) →
      (∀ n ∈ b.names, n ∈ known) →
      ∃ h a', express rs known rule m b a = (.ok h, a') ∧ Adds predefined base a a' ∧
        InUse predefined base a' h
  | .lit text, a, hb, _, _ => by
    obtain ⟨h, a', he, hadds⟩ : ∃ h a', alloc (.literal text) a = (h, a') ∧
        Adds predefined base a a' ∧ InUse predefined base a' h := alloc_adds hb _ nofun nofun nofun
    exact ⟨h, a', lift_eq_ok.mpr he, hadds⟩
  | .name n, a, _, hk, hn => by
    obtain ⟨h, he, hu⟩ := lookUp_adds rule (hn n List.mem_cons_self) hk
    exact ⟨h, a, he, .refl a, hu⟩
  | .opt b, a, hb, hk, hn => by
    obtain ⟨e, a₁, he, hadds, hu⟩ := express_adds hs (b := b) hb hk hn
    obtain ⟨h, a', ho, hadds', hu'⟩ := opt_adds (hb.trans hadds.size_le) hu
    exact ⟨h, a', bind_eq_ok.mpr ⟨e, a₁, he, lift_eq_ok.mpr ho⟩, hadds.trans hadds', hu'⟩
  | .plus b, a, hb, hk, hn => by
    obtain ⟨e, a₁, he, hadds, hu⟩ := express_adds hs (b := b) hb hk hn
    obtain ⟨h, a', ho, hadds', hu'⟩ := alloc_adds (hb.trans hadds.size_le) (.oneOrMore e)
      nofun nofun (by simpa [Node.parts] using hu)
    exact ⟨h, a', bind_eq_ok.mpr ⟨e, a₁, he, lift_eq_ok.mpr ho⟩, hadds.trans hadds', hu'⟩
  | .disj bs, a, hb, hk, hn => by
    obtain ⟨es, a₁, he, hadds, hu⟩ := expressAll_adds hs hb hk hn
    obtain ⟨h, a', ho, hadds', hu'⟩ := choice_adds (hb.trans hadds.size_le) es hu
    exact ⟨h, a', bind_eq_ok.mpr ⟨es, a₁, he, lift_eq_ok.mpr ho⟩, hadds.trans hadds', hu'⟩
  | .conj bs, a, hb, hk, hn => by
    obtain ⟨ws, hsp, hws⟩ := spacer_adds rule hs hk
    obtain ⟨es, a₁, he, hadds, hu⟩ := expressAll_adds hs hb hk hn
    have hitems : ∀ k ∈ interleave ws es, InUse predefined base a₁ k := by
      intro k hki
      rcases mem_interleave hki with hki | hki
      · exact (hws k hki).mono hadds.size_le
      · exact hu k hki
    obtain ⟨h, a', ho, hadds', hu'⟩ := seq_adds (hb.trans hadds.size_le) _ hitems
    exact ⟨h, a', bind_eq_ok.mpr ⟨ws, a, hsp, bind_eq_ok.mpr ⟨es, a₁, he, lift_eq_ok.mpr ho⟩⟩,
      hadds.trans hadds', hu'⟩

theorem expressAll_adds (hs : ∀ n, rs.options.spacer? m = some n → n ∈ known) :
    ∀ {bs : List Body} {a : Arena}, base.size ≤ a.size →
      (∀ (n : String) (h : Handle), known[n]? = some h → InUse predefined base a h) →
      (∀ n ∈ namesOf bs, n ∈ known) →
      ∃ es a', expressAll rs known rule m bs a = (.ok es, a') ∧ Adds predefined base a a' ∧
        ∀ e ∈ es, InUse predefined base a' e
  | [], a, _, _, _ => ⟨[], a, rfl, .refl a, nofun⟩
  | b :: bs, a, hb, hk, hn => by
    obtain ⟨e, a₁, he, hadds, hu⟩ := express_adds hs hb hk fun n hn' => hn n (List.mem_append_left _ hn')
    obtain ⟨es, a', hes, hadds', hus⟩ := expressAll_adds hs (hb.trans hadds.size_le)
      (fun n h hh => (hk n h hh).mono hadds.size_le) fun n hn' => hn n (List.mem_append_right _ hn')
    refine ⟨e :: es, a', ?_, hadds.trans hadds', ?_⟩
    · exact bind_eq_ok.mpr ⟨e, a₁, he, bind_eq_ok.mpr ⟨es, a', hes, rfl⟩⟩
    · exact List.forall_mem_cons.mpr ⟨hu.mono hadds'.size_le, hus⟩

end

end

end Bnf

end Peg
