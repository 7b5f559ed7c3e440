import Peg.Proofs.Arena.Slots

/-!
# Operations on an arena

All that can be asked of an arena: to build an expression, and to promote a forward declaration. An
operation that fails changes nothing. Any other one comes down to a few changes, `Arena.Change`, so
that what they keep is kept by all operations.
-/

namespace Peg

inductive Operation
  | any
  | oneOf (chars : String)
  | noneOf (chars : String)
  | literal (text : String)
  | range (lo hi : String)
  | charRange (lo hi : Char)
  | charClass (cls : CharClass)
  | pattern (text : String)
  | seq (items : List Handle)
  | choice (items : List Handle)
  | star (item : Handle)
  | plus (item : Handle)
  | opt (item : Handle)
  | ahead (item : Handle)
  | notAhead (item : Handle)
  | rule (name : String)
  | forward
  | implement (fwd e : Handle)
  | makeAlias (fwd target : Handle)
  deriving DecidableEq

namespace Operation

variable [RegexLibrary]

def run : Operation → ExceptT GrammarError Building (Option Handle)
  | any => do return some (← Building.any)
  | oneOf chars => do return some (← Building.oneOf chars)
  | noneOf chars => do return some (← Building.noneOf chars)
  | literal text => do return some (← Building.literal text)
  | range lo hi => do return some (← Building.range lo hi)
  | charRange lo hi => do return some (← Building.charRange lo hi)
  | charClass cls => do return some (← Building.charClass cls)
  | pattern text => do return some (← Building.pattern text)
  | seq items => do return some (← Building.seq items)
  | choice items => do return some (← Building.choice items)
  | star item => do return some (← Building.star item)
  | plus item => do return some (← Building.plus item)
  | opt item => do return some (← Building.opt item)
  | ahead item => do return some (← Building.ahead item)
  | notAhead item => do return some (← Building.notAhead item)
  | rule name => do return some (← Building.rule name)
  | forward => do return some (← Building.forward)
  | implement fwd e => do
    Building.implement fwd e
    return none
  | makeAlias fwd target => do
    Building.makeAlias fwd target
    return none

def handles : Operation → List Handle
  | seq items | choice items => items
  | star item | plus item | opt item | ahead item | notAhead item => [item]
  | implement fwd e | makeAlias fwd e => [fwd, e]
  | _ => []

def runAll : List Operation → Arena → Arena
  | [], a => a
  | op :: ops, a => runAll ops (op.run a).2

/-- No operation is given a handle that the arena does not have by then. -/
def AllFit : List Operation → Arena → Prop
  | [], _ => True
  | op :: ops, a => (∀ h ∈ op.handles, h < a.size) ∧ AllFit ops (op.run a).2

instance decidableAllFit : ∀ (ops : List Operation) (a : Arena), Decidable (AllFit ops a)
  | [], _ => isTrue trivial
  | op :: ops, a =>
    have := decidableAllFit ops (op.run a).2
    inferInstanceAs (Decidable (_ ∧ _))

end Operation

/-! ## What an operation does -/

def Node.IsOrdered : Node → Prop
  | .charRange lo hi => lo ≤ hi
  | _ => True

namespace Arena

inductive Change (hs : List Handle) (a : Arena) : Arena → Prop
  | push (node : Node) (ho : node.IsOrdered) (hp : ∀ k ∈ node.parts, k ∈ hs ∨ k < a.size) :
    Change hs a (a.push node).2
  | promote {fwd e : Handle} {node : Node} {a' : Arena} (he : e ∈ hs)
    (hn : node = .aliasOf e ∨ node ≠ .forward ∧ a.node? e = some node)
    (ha : a.promote fwd node = .ok a') : Change hs a a'

def Changes (hs : List Handle) : Arena → Arena → Prop :=
  Relation.ReflTransGen (Change hs)

end Arena

namespace Building

open Arena

variable {hs : List Handle}

/-- The computation fails and leaves the arena alone, or it succeeds with some changes. -/
def Proceeds {α : Type} (hs : List Handle) (x : ExceptT GrammarError Building α) : Prop :=
  ∀ a, (∃ err, x a = (.error err, a)) ∨ ∃ r a', x a = (.ok r, a') ∧ a.Changes hs a'

theorem map_eq {α β : Type} (x : ExceptT GrammarError Building α) (f : α → β) (a : Arena) :
    (do return f (← x) : ExceptT GrammarError Building β) a = ((x a).1.map f, (x a).2) := by
  change ExceptT.bindCont (fun r => (pure (f r) : ExceptT GrammarError Building β))
    (x a).1 (x a).2 = _
  cases (x a).1 <;> rfl

theorem Proceeds.map {α β : Type} {x : ExceptT GrammarError Building α} (h : Proceeds hs x)
    (f : α → β) : Proceeds hs (do return f (← x)) := by
  intro a
  rw [map_eq]
  rcases h a with ⟨err, he⟩ | ⟨r, a', hr, hc⟩
  · exact .inl ⟨err, by rw [he]; rfl⟩
  · exact .inr ⟨f r, a', by rw [hr]; rfl, hc⟩

theorem proceeds_throw {α : Type} (err : GrammarError) :
    Proceeds hs (throw err : ExceptT GrammarError Building α) :=
  fun _ => .inl ⟨err, rfl⟩

theorem proceeds_alloc (node : Node) (ho : node.IsOrdered) (hp : node.parts = hs) :
    Proceeds hs (liftM (alloc node)) := by
  subst hp
  exact fun a => .inr ⟨a.size, (a.push node).2, rfl, .single (.push node ho fun _ => .inl)⟩

theorem proceeds_seq : ∀ items, Proceeds items (liftM (seq items))
  | [e] => fun a => .inr ⟨e, a, rfl, .refl⟩
  | [] => proceeds_alloc (.sequence []) trivial rfl
  | _ :: _ :: _ => proceeds_alloc (.sequence _) trivial rfl

theorem proceeds_choice : ∀ items, Proceeds items (liftM (choice items))
  | [e] => fun a => .inr ⟨e, a, rfl, .refl⟩
  | [] => proceeds_alloc (.choice []) trivial rfl
  | _ :: _ :: _ => proceeds_alloc (.choice _) trivial rfl

theorem proceeds_opt (item : Handle) : Proceeds [item] (liftM (opt item)) := by
  intro a
  have hnothing : a.Change [item] (a.push (.sequence [])).2 := by
    apply Change.push (.sequence []) trivial
    simp [Node.parts]
  -- the choice refers to the empty sequence, which is in the arena by then
  have hchoice : (a.push (.sequence [])).2.Change [item]
      ((a.push (.sequence [])).2.push (.choice [item, a.size])).2 := by
    apply Change.push (.choice [item, a.size]) trivial
    simp [Node.parts, size_push]
  exact .inr ⟨_, _, rfl, .tail (.single hnothing) hchoice⟩

theorem proceeds_charRange (lo hi : Char) : Proceeds [] (charRange lo hi) := by
  unfold charRange
  by_cases h : hi < lo
  · rw [if_pos h]
    exact proceeds_throw _
  · rw [if_neg h]
    exact proceeds_alloc (.charRange lo hi) (Char.not_lt.mp h) rfl

theorem proceeds_range (lo hi : String) : Proceeds [] (range lo hi) := by
  unfold range
  split
  · exact proceeds_charRange _ _
  · exact proceeds_throw _
  · exact proceeds_throw _

theorem proceeds_pattern [RegexLibrary] (text : String) : Proceeds [] (pattern text) := by
  unfold pattern
  split
  · exact proceeds_alloc (.pattern _) trivial rfl
  · exact proceeds_throw _

theorem proceeds_update {f : Arena → Except GrammarError Arena}
    (hf : ∀ a a', f a = .ok a' → a.Change hs a') : Proceeds hs (update f) := by
  intro a
  cases h : f a with
  | error err => exact .inl ⟨err, by simp only [update, ExceptT.mk, h]⟩
  | ok a' => exact .inr ⟨(), a', by simp only [update, ExceptT.mk, h], .single (hf a a' h)⟩

theorem map_update_eq_error_iff {α : Type} {f : Arena → Except GrammarError Arena} {g : Unit → α}
    {a : Arena} {err : GrammarError} :
    ((do return g (← update f) : ExceptT GrammarError Building α) a).1 = .error err ↔
      f a = .error err := by
  rw [map_eq]
  unfold update
  cases h : f a <;> simp [ExceptT.mk, h, Except.map]

theorem map_update_eq_ok {α : Type} {f : Arena → Except GrammarError Arena} {g : Unit → α}
    {a : Arena} {r : α}
    (h : ((do return g (← update f) : ExceptT GrammarError Building α) a).1 = .ok r) :
    f a = .ok ((do return g (← update f) : ExceptT GrammarError Building α) a).2 := by
  rw [map_eq] at h ⊢
  unfold update at h ⊢
  cases hf : f a with
  | ok a' => simp only [ExceptT.mk, hf]
  | error err =>
    simp only [ExceptT.mk, hf] at h
    cases h

end Building

namespace Operation

open Arena Building

variable [RegexLibrary]

theorem run_proceeds (op : Operation) : Proceeds op.handles op.run := by
  cases op with
  | any => exact (proceeds_alloc .any trivial rfl).map some
  | oneOf chars => exact (proceeds_alloc (.oneOf chars) trivial rfl).map some
  | noneOf chars => exact (proceeds_alloc (.noneOf chars) trivial rfl).map some
  | literal text => exact (proceeds_alloc (.literal text) trivial rfl).map some
  | range lo hi => exact (proceeds_range lo hi).map some
  | charRange lo hi => exact (proceeds_charRange lo hi).map some
  | charClass cls => exact (proceeds_alloc (.charClass cls) trivial rfl).map some
  | pattern text => exact (proceeds_pattern text).map some
  | seq items => exact (proceeds_seq items).map some
  | choice items => exact (proceeds_choice items).map some
  | star item => exact (proceeds_alloc (.zeroOrMore item) trivial rfl).map some
  | plus item => exact (proceeds_alloc (.oneOrMore item) trivial rfl).map some
  | opt item => exact (proceeds_opt item).map some
  | ahead item => exact (proceeds_alloc (.ahead item) trivial rfl).map some
  | notAhead item => exact (proceeds_alloc (.notAhead item) trivial rfl).map some
  | rule name => exact (proceeds_alloc (.rule name) trivial rfl).map some
  | forward => exact (proceeds_alloc .forward trivial rfl).map some
  | implement fwd e =>
    refine (proceeds_update fun a a' h => ?_).map fun _ => none
    exact .promote (by simp [handles]) (a.contentOf_cases e) h
  | makeAlias fwd target =>
    refine (proceeds_update fun a a' h => ?_).map fun _ => none
    exact .promote (by simp [handles]) (.inl rfl) h

theorem run_changes (op : Operation) (a : Arena) : a.Changes op.handles (op.run a).2 := by
  rcases op.run_proceeds a with ⟨err, he⟩ | ⟨r, a', hr, hc⟩
  · rw [he]
    exact .refl
  · rw [hr]
    exact hc

theorem run_error {op : Operation} {a : Arena} {err : GrammarError}
    (he : (op.run a).1 = .error err) : (op.run a).2 = a := by
  rcases op.run_proceeds a with ⟨err', he'⟩ | ⟨r, a', hr, -⟩
  · rw [he']
  · rw [hr] at he
    cases he

theorem run_eq_error_iff {op : Operation} {fwd e : Handle}
    (hop : op = implement fwd e ∨ op = makeAlias fwd e) {a : Arena} {err : GrammarError} :
    (op.run a).1 = .error err ↔ a.Promoted fwd ∧ err = .alreadyImplemented fwd ∨
      ¬a.Promoted fwd ∧ a.node? fwd ≠ some .forward ∧ err = .notForward fwd := by
  rcases hop with rfl | rfl
  · exact map_update_eq_error_iff.trans promote_eq_error_iff
  · exact map_update_eq_error_iff.trans promote_eq_error_iff

end Operation

/-! ## Slots over time -/

namespace Arena

section
variable {a b a' : Arena} {hs : List Handle}

/-- Every slot stays, apart from forward declarations that have got content for good. -/
def Evolves (a a' : Arena) : Prop :=
  ∀ (h : Handle) (slot : Slot), a.slots[h]? = some slot → a'.slots[h]? = some slot ∨
    slot = ⟨.forward, false⟩ ∧ ∃ node, node ≠ .forward ∧ a'.slots[h]? = some ⟨node, true⟩

theorem Evolves.refl (a : Arena) : a.Evolves a :=
  fun _ _ hs => .inl hs

theorem Evolves.trans (hab : a.Evolves b) (hba : b.Evolves a') : a.Evolves a' := by
  intro h slot hs
  rcases hab h slot hs with hb | ⟨rfl, node, hf, hb⟩
  · exact hba h slot hb
  · rcases hba h _ hb with ha | ⟨he, -⟩
    · exact .inr ⟨rfl, node, hf, ha⟩
    · cases he

theorem Evolves.grows (h : a.Evolves a') : a.Grows a' := by
  intro k node hn hf
  obtain ⟨slot, hs, rfl⟩ := node?_eq_some_iff.mp hn
  rcases h k slot hs with ha | ⟨rfl, -⟩
  · exact node?_of_slot ha
  · exact absurd rfl hf

theorem evolves_push (a : Arena) (node : Node) : a.Evolves (a.push node).2 := by
  intro h slot hs
  rw [slot_push, if_neg (Nat.ne_of_lt (lt_size_of_slot hs))]
  exact .inl hs

theorem evolves_promote {fwd : Handle} {node : Node} (hf : node ≠ .forward)
    (hp : a.promote fwd node = .ok a') : a.Evolves a' := by
  intro h slot hs
  rw [(slot_promote hp).2]
  by_cases hh : h = fwd
  · subst hh
    obtain rfl := Option.some.inj (hs.symm.trans (slot_of_promote hp))
    exact .inr ⟨rfl, node, hf, if_pos rfl⟩
  · exact .inl (by rw [if_neg hh, hs])

theorem Change.evolves (h : a.Change hs a') : a.Evolves a' := by
  cases h with
  | push node _ _ => exact a.evolves_push node
  | promote _ hn ha =>
    apply evolves_promote _ ha
    rcases hn with rfl | hn
    · exact nofun
    · exact hn.1

theorem Changes.evolves (h : a.Changes hs a') : a.Evolves a' := by
  induction h with
  | refl => exact .refl a
  | tail _ hc ih => exact ih.trans hc.evolves

end

end Arena

theorem Operation.runAll_evolves [RegexLibrary] (ops : List Operation) (a : Arena) :
    a.Evolves (runAll ops a) := by
  induction ops generalizing a with
  | nil => exact .refl a
  | cons op ops ih => exact (op.run_changes a).evolves.trans (ih _)

end Peg
