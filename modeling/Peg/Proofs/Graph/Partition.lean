import Mathlib.Data.List.Sort
import Mathlib.Data.String.Basic
import Peg.Proofs.Graph.Components

/-!
# The partition into components

The components hold what can be reached from the roots, each vertex once. Two vertices are in one
component when each of them reaches the other, and what a vertex reaches is in its own component or
in an earlier one.
-/

namespace Peg

namespace Graph

def Reached (g : Graph) (roots : List String) (v : String) : Prop :=
  ∃ r ∈ roots, g.Reach r v

variable (g : Graph) (roots : List String)

/-! ## Members -/

theorem ne_nil_and_sorted_of_mem_components {c : List String} (hc : c ∈ g.components roots) :
    c ≠ [] ∧ c.Pairwise (· < ·) := by
  have hnodup : c.Nodup := (List.nodup_flatten.mp (g.nodup_components roots)).1 c hc
  obtain ⟨seen, h, -⟩ := g.exists_holds_walk roots
  obtain ⟨members, hm, rfl⟩ := (g.mem_components roots).mp hc
  have hperm := List.mergeSort_perm members fun a b => a ≤ b
  refine ⟨fun he => h.found.ne_nil members hm (he ▸ hperm).symm.eq_nil, ?_⟩
  exact (List.sortedLE_mergeSort.pairwise.and hnodup).imp fun ⟨hle, hne⟩ => lt_of_le_of_ne hle hne

theorem reach_of_mem_component {c : List String} (hc : c ∈ g.components roots) {u v : String}
    (hu : u ∈ c) (hv : v ∈ c) : g.Reach u v := by
  obtain ⟨seen, h, -⟩ := g.exists_holds_walk roots
  obtain ⟨members, hm, rfl⟩ := (g.mem_components roots).mp hc
  exact h.found.joined members hm u (List.mem_mergeSort.mp hu) v (List.mem_mergeSort.mp hv)

theorem closed_components_of_reach {u v : String} (hu : u ∈ (g.components roots).flatten)
    (hr : g.Reach u v) : v ∈ (g.components roots).flatten := by
  obtain ⟨seen, h, -⟩ := g.exists_holds_walk roots
  rw [(g.flatten_components_perm roots).mem_iff] at hu ⊢
  induction hr with
  | refl => exact hu
  | tail _ hedge ih => exact h.found.ordered.closed ih hedge

theorem mem_components_iff {v : String} :
    v ∈ (g.components roots).flatten ↔ g.Reached roots v := by
  constructor
  · intro hv
    obtain ⟨seen, h, -⟩ := g.exists_holds_walk roots
    exact h.reaching.rooted v
      ((h.known.found_iff v).mp ((g.flatten_components_perm roots).mem_iff.mp hv)).1
  · rintro ⟨r, hr, hrv⟩
    exact g.closed_components_of_reach roots (g.root_mem_components roots hr) hrv

/-! ## Order -/

/-- What a component reaches is in it or in an earlier one. -/
theorem reach_mem_components {before after : List (List String)} {c : List String}
    (hc : g.components roots = before ++ c :: after) {u v : String} (hu : u ∈ c)
    (hr : g.Reach u v) : v ∈ c ∨ v ∈ before.flatten := by
  induction hr with
  | refl => exact .inl hu
  | tail _ hedge ih =>
    rcases ih with ih | ih
    · exact g.successors_mem_components roots hc ih hedge
    · obtain ⟨d, hd, hx⟩ := List.mem_flatten.mp ih
      obtain ⟨first, second, rfl⟩ := List.append_of_mem hd
      rw [List.append_assoc, List.cons_append] at hc
      refine .inr ?_
      rw [List.flatten_append, List.flatten_cons, List.mem_append, List.mem_append]
      exact (g.successors_mem_components roots hc hx hedge).symm.imp_right .inl

def InComponent (i : Nat) (v : String) : Prop :=
  ∃ c, (g.components roots)[i]? = some c ∧ v ∈ c

variable {g roots}

theorem exists_inComponent {v : String} (hv : v ∈ (g.components roots).flatten) :
    ∃ i, g.InComponent roots i v := by
  obtain ⟨c, hc, hvc⟩ := List.mem_flatten.mp hv
  obtain ⟨i, hi⟩ := List.getElem?_of_mem hc
  exact ⟨i, c, hi, hvc⟩

theorem InComponent.unique {i j : Nat} {v : String} (hi : g.InComponent roots i v)
    (hj : g.InComponent roots j v) : i = j := by
  obtain ⟨c, hc, hvc⟩ := hi
  obtain ⟨d, hd, hvd⟩ := hj
  obtain ⟨hic, rfl⟩ := List.getElem?_eq_some_iff.mp hc
  obtain ⟨hjd, rfl⟩ := List.getElem?_eq_some_iff.mp hd
  have hdisjoint := (List.nodup_flatten.mp (g.nodup_components roots)).2
  rw [List.pairwise_iff_getElem] at hdisjoint
  rcases Nat.lt_trichotomy i j with hlt | heq | hlt
  · exact (hdisjoint i j hic hjd hlt hvc hvd).elim
  · exact heq
  · exact (hdisjoint j i hjd hic hlt hvd hvc).elim

theorem InComponent.reach {i : Nat} {u v : String} (hu : g.InComponent roots i u)
    (hr : g.Reach u v) : ∃ j ≤ i, g.InComponent roots j v := by
  obtain ⟨c, hc, huc⟩ := hu
  obtain ⟨hi, rfl⟩ := List.getElem?_eq_some_iff.mp hc
  have hsplit : g.components roots = (g.components roots).take i ++
      (g.components roots)[i] :: (g.components roots).drop (i + 1) := by
    rw [List.getElem_cons_drop, List.take_append_drop]
  rcases g.reach_mem_components roots hsplit huc hr with hv | hv
  · exact ⟨i, Nat.le_refl i, _, hc, hv⟩
  · obtain ⟨d, hd, hvd⟩ := List.mem_flatten.mp hv
    obtain ⟨j, hj⟩ := List.getElem?_of_mem hd
    have hji : j < i := by
      have := (List.getElem?_eq_some_iff.mp hj).1
      rw [List.length_take] at this
      omega
    exact ⟨j, hji.le, d, by rwa [List.getElem?_take_of_lt hji] at hj, hvd⟩

theorem InComponent.le_of_reach {i j : Nat} {u v : String} (hu : g.InComponent roots i u)
    (hv : g.InComponent roots j v) (hr : g.Reach u v) : j ≤ i := by
  obtain ⟨k, hk, hvk⟩ := hu.reach hr
  exact hv.unique hvk ▸ hk

theorem InComponent.exists_component {i : Nat} {u v : String} (hu : g.InComponent roots i u)
    (hv : g.InComponent roots i v) : ∃ c ∈ g.components roots, u ∈ c ∧ v ∈ c := by
  obtain ⟨c, hc, huc⟩ := hu
  obtain ⟨d, hd, hvd⟩ := hv
  obtain rfl := Option.some.inj (hc.symm.trans hd)
  exact ⟨c, List.mem_of_getElem? hc, huc, hvd⟩

variable (g roots)

/-- What can be reached from the roots is divided into the strongly connected components, each of
them in the order of names. -/
theorem components_partition :
    (g.components roots).flatten.Nodup ∧
      (∀ v, v ∈ (g.components roots).flatten ↔ g.Reached roots v) ∧
      (∀ u v, g.Reached roots u →
        ((∃ c ∈ g.components roots, u ∈ c ∧ v ∈ c) ↔ g.Reach u v ∧ g.Reach v u)) ∧
      ∀ c ∈ g.components roots, c ≠ [] ∧ c.Pairwise (· < ·) := by
  refine ⟨g.nodup_components roots, fun v => g.mem_components_iff roots, fun u v hu => ?_,
    fun c => g.ne_nil_and_sorted_of_mem_components roots⟩
  constructor
  · rintro ⟨c, hc, huc, hvc⟩
    exact ⟨g.reach_of_mem_component roots hc huc hvc, g.reach_of_mem_component roots hc hvc huc⟩
  · rintro ⟨huv, hvu⟩
    obtain ⟨i, hi⟩ := exists_inComponent ((g.mem_components_iff roots).mpr hu)
    obtain ⟨j, hji, hj⟩ := hi.reach huv
    -- neither of the two components stands before the other
    obtain rfl := Nat.le_antisymm hji (hj.le_of_reach hi hvu)
    exact hi.exists_component hj

/-- Dependencies come first: the component that an edge leads to is the one that it comes from or an
earlier one, and so is that of all that is reached. -/
theorem components_dependencies_first :
    (∀ u v, g.Reached roots u → g.Edge u v →
      ∃ i j, j ≤ i ∧ g.InComponent roots i u ∧ g.InComponent roots j v) ∧
      ∀ i u v, g.InComponent roots i u → g.Reach u v →
        (∃ j, g.InComponent roots j v) ∧ ∀ j, g.InComponent roots j v → j ≤ i := by
  constructor
  · intro u v hu huv
    obtain ⟨i, hi⟩ := exists_inComponent ((g.mem_components_iff roots).mpr hu)
    obtain ⟨j, hle, hj⟩ := hi.reach (.single huv)
    exact ⟨i, j, hle, hi, hj⟩
  · intro i u v hu hr
    obtain ⟨j, -, hj⟩ := hu.reach hr
    exact ⟨⟨j, hj⟩, fun k hk => hu.le_of_reach hk hr⟩

end Graph

end Peg
