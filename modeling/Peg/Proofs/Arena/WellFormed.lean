import Peg.Proofs.Arena.Operations
import Peg.Regex.Engine

/-!
# Well-formed arenas

Operations keep an arena well-formed if the handles that they are given are in it. An expression
refers to earlier ones then, unless it was promoted, so that there is no way round in a circle but
through a promoted one.
-/

namespace Peg

structure Slot.Sound (size : Nat) (h : Handle) (slot : Slot) : Prop where
  inBounds : ∀ k ∈ slot.node.parts, k < size
  downward : slot.promoted = false → ∀ k ∈ slot.node.parts, k < h
  filled : slot.promoted = true → slot.node ≠ .forward
  ordered : ∀ lo hi, slot.node = .charRange lo hi → lo ≤ hi

theorem Slot.Sound.mono {size size' : Nat} (hle : size ≤ size') {h : Handle} {slot : Slot}
    (hs : slot.Sound size h) : slot.Sound size' h where
  inBounds k hk := Nat.lt_of_lt_of_le (hs.inBounds k hk) hle
  downward := hs.downward
  filled := hs.filled
  ordered := hs.ordered

namespace Arena

def WellFormed (a : Arena) : Prop :=
  ∀ (h : Handle) (slot : Slot), a.slots[h]? = some slot → slot.Sound a.size h

section
variable {a a' : Arena} {hs : List Handle}

theorem wellFormed_empty : WellFormed ∅ := by
  intro h slot hs
  cases hs

theorem WellFormed.push (h : a.WellFormed) {node : Node} (ho : node.IsOrdered)
    (hp : ∀ k ∈ node.parts, k < a.size) : (a.push node).2.WellFormed := by
  intro k slot hs
  rw [slot_push] at hs
  rw [size_push]
  by_cases hk : k = a.size
  · rw [if_pos hk] at hs
    obtain rfl := Option.some.inj hs
    subst hk
    refine ⟨fun j hj => Nat.lt_succ_of_lt (hp j hj), fun _ => hp, nofun, ?_⟩
    rintro lo hi rfl
    exact ho
  · rw [if_neg hk] at hs
    exact (h k slot hs).mono (Nat.le_succ _)

theorem WellFormed.promote (h : a.WellFormed) {fwd : Handle} {node : Node}
    (ha : a.promote fwd node = .ok a') (ho : node.IsOrdered) (hf : node ≠ .forward)
    (hp : ∀ k ∈ node.parts, k < a.size) : a'.WellFormed := by
  intro k slot hs
  obtain ⟨hsize, hslot⟩ := slot_promote ha
  rw [hslot] at hs
  rw [hsize]
  by_cases hk : k = fwd
  · rw [if_pos hk] at hs
    obtain rfl := Option.some.inj hs
    refine ⟨hp, nofun, fun _ => hf, ?_⟩
    rintro lo hi rfl
    exact ho
  · rw [if_neg hk] at hs
    exact h k slot hs

theorem Change.wellFormed (hc : a.Change hs a') (h : a.WellFormed) (hin : ∀ k ∈ hs, k < a.size) :
    a'.WellFormed := by
  cases hc with
  | push node ho hp => exact h.push ho fun k hk => (hp k hk).elim (hin k) id
  | @promote fwd e node _ he hn ha =>
    rcases hn with rfl | ⟨hf, hn⟩
    · apply h.promote ha trivial nofun
      simp [Node.parts, hin e he]
    · -- what is copied need not be below `fwd`, and once promoted `fwd` does not have to go down
      obtain ⟨slot, hs, rfl⟩ := node?_eq_some_iff.mp hn
      have hsound := h e slot hs
      refine h.promote ha ?_ hf hsound.inBounds
      unfold Node.IsOrdered
      split
      · exact hsound.ordered _ _ ‹_›
      · trivial

theorem Change.size_le (hc : a.Change hs a') : a.size ≤ a'.size := by
  cases hc with
  | push node _ _ => exact (a.size_push node).symm ▸ Nat.le_succ _
  | promote _ _ ha => exact Nat.le_of_eq (slot_promote ha).1.symm

theorem Changes.wellFormed (hc : a.Changes hs a') (h : a.WellFormed) (hin : ∀ k ∈ hs, k < a.size) :
    a'.WellFormed := by
  have key : a'.WellFormed ∧ ∀ k ∈ hs, k < a'.size := by
    induction hc with
    | refl => exact ⟨h, hin⟩
    | tail _ hc ih =>
      exact ⟨hc.wellFormed ih.1 ih.2, fun k hk => Nat.lt_of_lt_of_le (ih.2 k hk) hc.size_le⟩
  exact key.1

theorem wellFormed_runAll [RegexLibrary] {ops : List Operation} (hfit : Operation.AllFit ops a)
    (h : a.WellFormed) : (Operation.runAll ops a).WellFormed := by
  induction ops generalizing a with
  | nil => exact h
  | cons op ops ih => exact ih hfit.2 ((op.run_changes a).wellFormed h hfit.1)

theorem WellFormed.inBounds (h : a.WellFormed) : a.InBounds := by
  rintro i j ⟨node, hn, hj⟩
  obtain ⟨slot, hs, rfl⟩ := node?_eq_some_iff.mp hn
  exact (h i slot hs).inBounds j hj

/-! ## Circles -/

theorem WellFormed.lt_of_hasPart (h : a.WellFormed) {i j : Handle} (hp : a.HasPart i j)
    (hi : ¬a.Promoted i) : j < i := by
  obtain ⟨node, hn, hj⟩ := hp
  obtain ⟨⟨node, promoted⟩, hs, rfl⟩ := node?_eq_some_iff.mp hn
  cases promoted with
  | false => exact (h i _ hs).downward rfl j hj
  | true => exact absurd ⟨node, hs⟩ hi

/-- Nothing leads back to where it began by way of expressions that are not promoted. -/
theorem WellFormed.acyclic (h : a.WellFormed) (i : Handle) :
    ¬Relation.TransGen (fun i j => a.HasPart i j ∧ ¬a.Promoted i) i i := by
  have key {i j : Handle} (hc : Relation.TransGen (fun i j => a.HasPart i j ∧ ¬a.Promoted i) i j) :
      j < i := by
    induction hc with
    | single hp => exact h.lt_of_hasPart hp.1 hp.2
    | tail _ hp ih => exact Nat.lt_trans (h.lt_of_hasPart hp.1 hp.2) ih
  exact fun hc => Nat.lt_irrefl i (key hc)

end

end Arena

/-! ## Runs of operations -/

namespace Operation

/-- What holds of an arena after any operations, from then on, and of the next operation. -/
theorem runAll_invariant [RegexLibrary] {ops : List Operation} {a : Arena} (hfit : AllFit ops ∅)
    (ha : runAll ops ∅ = a) :
    a.WellFormed ∧
      (∀ i, ¬Relation.TransGen (fun i j => a.HasPart i j ∧ ¬a.Promoted i) i i) ∧
      (∀ later, a.Evolves (runAll later a)) ∧
      (∀ (op : Operation) (err : GrammarError), (op.run a).1 = .error err → (op.run a).2 = a) ∧
      ∀ (op : Operation) (fwd e : Handle) (err : GrammarError),
        op = implement fwd e ∨ op = makeAlias fwd e →
        ((op.run a).1 = .error err ↔ a.Promoted fwd ∧ err = .alreadyImplemented fwd ∨
          ¬a.Promoted fwd ∧ a.node? fwd ≠ some .forward ∧ err = .notForward fwd) := by
  subst ha
  have h := Arena.wellFormed_runAll hfit Arena.wellFormed_empty
  exact ⟨h, h.acyclic, fun later => runAll_evolves later _, fun _ _ => run_error,
    fun _ _ _ _ hop => run_eq_error_iff hop⟩

/-- Groups in brackets, which may have groups in them. Three of the operations fail. -/
def groups : List Operation :=
  [.forward, .literal "(", .literal ")", .charRange 'z' 'a', .seq [1, 0, 2], .opt 3,
    .makeAlias 1 0, .implement 0 5, .implement 0 3]

theorem runAll_invariant_groups :
    AllFit groups ∅ ∧ (runAll groups ∅).WellFormed ∧
      Relation.TransGen (runAll groups ∅).HasPart 0 0 ∧
      (¬Relation.TransGen (fun i j => (runAll groups ∅).HasPart i j ∧
        ¬(runAll groups ∅).Promoted i) 0 0) ∧
      ((implement 0 3).run (runAll groups ∅)).1 = .error (.alreadyImplemented 0) ∧
      ((makeAlias 1 0).run (runAll groups ∅)).1 = .error (.notForward 1) := by
  have hfit : AllFit groups ∅ := by decide +kernel
  obtain ⟨hwf, hcircle, -, -, hpromotion⟩ := runAll_invariant hfit rfl
  have h0 : (runAll groups ∅).slots[0]? = some ⟨.choice [3, 4], true⟩ := rfl
  have h1 : (runAll groups ∅).slots[1]? = some ⟨.literal "(", false⟩ := rfl
  have h3 : (runAll groups ∅).slots[3]? = some ⟨.sequence [1, 0, 2], false⟩ := rfl
  refine ⟨hfit, hwf, ?_, hcircle 0, ?_, ?_⟩
  · refine .tail (.single ⟨_, Arena.node?_of_slot h0, ?_⟩) ⟨_, Arena.node?_of_slot h3, ?_⟩
    · simp [Node.parts]
    · simp [Node.parts]
  · exact (hpromotion _ 0 3 _ (.inl rfl)).mpr (.inl ⟨⟨_, h0⟩, rfl⟩)
  · refine (hpromotion _ 1 0 _ (.inr rfl)).mpr (.inr ⟨?_, ?_, rfl⟩)
    · rintro ⟨node, hs⟩
      rw [h1] at hs
      cases hs
    · rw [Arena.node?_of_slot h1]
      simp

end Operation

end Peg
