import Mathlib.Logic.Relation
import Peg.Arena.Build

/-!
# Slots of an arena

What it does to each slot when an expression is allocated and when a forward declaration gets its
content.
-/

namespace Peg

def Node.parts : Node → List Handle
  | .sequence items | .choice items => items
  | .zeroOrMore item | .oneOrMore item | .ahead item | .notAhead item => [item]
  | .aliasOf target => [target]
  | _ => []

namespace Arena

def HasPart (a : Arena) (i j : Handle) : Prop :=
  ∃ node, a.node? i = some node ∧ j ∈ node.parts

/-- The expression `j` is `i`, or a part of it at some depth. -/
def Within (a : Arena) (i j : Handle) : Prop :=
  Relation.ReflTransGen a.HasPart i j

def InBounds (a : Arena) : Prop :=
  ∀ i j, a.HasPart i j → j < a.size

theorem Within.lt_size {a : Arena} (hb : a.InBounds) {i j : Handle} (h : a.Within i j)
    (hi : i < a.size) : j < a.size := by
  cases h with
  | refl => exact hi
  | tail _ hj => exact hb _ _ hj

variable {a : Arena} {h : Handle} {node : Node}

theorem slot_push (a : Arena) (node : Node) (h : Handle) :
    (a.push node).2.slots[h]? = if h = a.size then some ⟨node, false⟩ else a.slots[h]? := by
  change (a.slots.push ⟨node, false⟩)[h]? = _
  rw [Array.getElem?_push]
  rfl

theorem size_push (a : Arena) (node : Node) : (a.push node).2.size = a.size + 1 :=
  Array.size_push ..

theorem node?_push (a : Arena) (node : Node) (h : Handle) :
    (a.push node).2.node? h = if h = a.size then some node else a.node? h := by
  unfold node?
  rw [slot_push]
  split <;> rfl

theorem lt_size_of_slot {slot : Slot} (hs : a.slots[h]? = some slot) : h < a.size :=
  (Array.getElem?_eq_some_iff.mp hs).1

theorem node?_eq_some_iff : a.node? h = some node ↔ ∃ slot, a.slots[h]? = some slot ∧ slot.node = node :=
  Option.map_eq_some_iff

theorem node?_of_slot {slot : Slot} (hs : a.slots[h]? = some slot) : a.node? h = some slot.node :=
  node?_eq_some_iff.mpr ⟨slot, hs, rfl⟩

theorem lt_size_of_node? (hn : a.node? h = some node) : h < a.size := by
  obtain ⟨slot, hs, -⟩ := node?_eq_some_iff.mp hn
  exact lt_size_of_slot hs

theorem node?_push_of_some {node' : Node} (hn : a.node? h = some node') :
    (a.push node).2.node? h = some node' := by
  rw [node?_push, if_neg (Nat.ne_of_lt (lt_size_of_node? hn)), hn]

def pushAll (a : Arena) : List Node → Arena
  | [] => a
  | node :: nodes => (a.push node).2.pushAll nodes

theorem slot_pushAll {nodes : List Node} (hi : h < a.size) :
    (a.pushAll nodes).slots[h]? = a.slots[h]? := by
  induction nodes generalizing a with
  | nil => rfl
  | cons node nodes ih =>
    have hlt : h < (a.push node).2.size := by
      rw [size_push]
      exact Nat.lt_succ_of_lt hi
    rw [pushAll, ih hlt, slot_push, if_neg (Nat.ne_of_lt hi)]

/-- What is pushed stands behind what was there, in its order. -/
theorem node?_pushAll (a : Arena) (nodes : List Node) (i : Nat) :
    (a.pushAll nodes).node? (a.size + i) = nodes[i]? := by
  induction nodes generalizing a i with
  | nil => exact congrArg (Option.map Slot.node) (Array.getElem?_eq_none (Nat.le_add_right _ _))
  | cons node nodes ih =>
    cases i with
    | zero =>
      have hlt : a.size < (a.push node).2.size := by
        rw [size_push]
        exact Nat.lt_succ_self _
      have hslot : (a.pushAll (node :: nodes)).slots[a.size]? = some ⟨node, false⟩ := by
        rw [pushAll, slot_pushAll hlt, slot_push, if_pos rfl]
      exact node?_of_slot hslot
    | succ i =>
      have hi : a.size + (i + 1) = (a.push node).2.size + i := by
        rw [size_push]
        omega
      rw [pushAll, hi, ih, List.getElem?_cons_succ]

theorem size_pushAll (a : Arena) (nodes : List Node) :
    (a.pushAll nodes).size = a.size + nodes.length := by
  induction nodes generalizing a with
  | nil => rfl
  | cons node nodes ih =>
    rw [pushAll, ih, size_push, List.length_cons, Nat.add_assoc, Nat.add_comm 1]

/-! ## Promotion -/

/-- Only forward declarations change. -/
def Grows (a a' : Arena) : Prop :=
  ∀ h node, a.node? h = some node → node ≠ .forward → a'.node? h = some node

theorem Grows.refl (a : Arena) : a.Grows a :=
  fun _ _ hn _ => hn

theorem Grows.trans {a b c : Arena} (hab : a.Grows b) (hbc : b.Grows c) : a.Grows c :=
  fun h node hn hf => hbc h node (hab h node hn hf) hf

section
variable {a' : Arena} {fwd : Handle}

/-- A forward declaration can be promoted once. -/
theorem promote_of_slot (hs : a.slots[fwd]? = some ⟨.forward, false⟩) (node : Node) :
    ∃ a', a.promote fwd node = .ok a' ∧ a'.size = a.size ∧
      ∀ h, a'.slots[h]? = if h = fwd then some ⟨node, true⟩ else a.slots[h]? := by
  refine ⟨⟨a.slots.setIfInBounds fwd ⟨node, true⟩⟩, by simp [promote, hs], by simp [size], ?_⟩
  intro h
  have hlt : fwd < a.slots.size := lt_size_of_slot hs
  by_cases hh : h = fwd
  · subst hh
    simp [hlt]
  · simp [hh, Ne.symm hh]

theorem slot_of_promote (hp : a.promote fwd node = .ok a') :
    a.slots[fwd]? = some ⟨.forward, false⟩ := by
  unfold promote at hp
  rcases hs : a.slots[fwd]? with _ | ⟨node', _ | _⟩
  · simp [hs] at hp
  · by_cases hf : node' = .forward
    · rw [hf]
    · simp [hs, hf] at hp
  · simp [hs] at hp

theorem slot_promote (hp : a.promote fwd node = .ok a') :
    a'.size = a.size ∧ ∀ h, a'.slots[h]? = if h = fwd then some ⟨node, true⟩ else a.slots[h]? := by
  obtain ⟨b, hb, hsize, hslot⟩ := promote_of_slot (slot_of_promote hp) node
  obtain rfl := Except.ok.inj (hp.symm.trans hb)
  exact ⟨hsize, hslot⟩

/-- Promotion changes a forward declaration and nothing else. -/
theorem promote_eq (hp : a.promote fwd node = .ok a') :
    a.node? fwd = some .forward ∧ ∀ h, a'.node? h = if h = fwd then some node else a.node? h := by
  refine ⟨node?_of_slot (slot_of_promote hp), fun h => ?_⟩
  unfold node?
  rw [(slot_promote hp).2]
  split <;> rfl

theorem promote_grows (hp : a.promote fwd node = .ok a') : a.Grows a' := by
  obtain ⟨hf, hn⟩ := promote_eq hp
  intro h node' hh hne
  rw [hn, if_neg, hh]
  rintro rfl
  rw [hf] at hh
  exact hne (Option.some.inj hh).symm

end

/-- What an expression stands for is its content, or a reference as long as it has none. -/
theorem contentOf_cases (a : Arena) (e : Handle) :
    a.contentOf e = .aliasOf e ∨ a.contentOf e ≠ .forward ∧ a.node? e = some (a.contentOf e) := by
  unfold contentOf
  split
  · exact .inl rfl
  · exact .inl rfl
  · rename_i hf hn
    exact .inr ⟨hf, hn⟩

theorem contentOf_ne_forward (a : Arena) (e : Handle) : a.contentOf e ≠ .forward := by
  rcases a.contentOf_cases e with h | h
  · rw [h]
    exact nofun
  · exact h.1

def Promoted (a : Arena) (h : Handle) : Prop :=
  ∃ node, a.slots[h]? = some ⟨node, true⟩

/-- A promotion is refused when there has been one before, and when there is nothing to promote. -/
theorem promote_eq_error_iff {fwd : Handle} {err : GrammarError} :
    a.promote fwd node = .error err ↔ a.Promoted fwd ∧ err = .alreadyImplemented fwd ∨
      ¬a.Promoted fwd ∧ a.node? fwd ≠ some .forward ∧ err = .notForward fwd := by
  unfold promote Promoted node?
  rcases a.slots[fwd]? with _ | ⟨node', _ | _⟩
  · simp [eq_comm]
  · by_cases hf : node' = .forward
    · simp [hf]
    · simp [hf, eq_comm (a := err)]
  · simp [eq_comm]

end Arena

end Peg
