import Peg.Bnf.Realize
import Peg.Proofs.Arena.Slots
import Peg.Proofs.Meaning.Interpreter

/-!
# Expressions that stand for bodies

`Means` says of a handle that it stands for a body, and `Made` that it stands for a rule. A rule may
have got its node from another rule, when its body comes down to that one's name.
-/

namespace Peg

/-! ## Arenas that grow -/

/-- A list of parts that were put together: a single one stands for itself. -/
def Arena.Joins (a : Arena) (make : List Handle → Node) : List Handle → Handle → Prop
  | [e], h => h = e
  | es, h => a.node? h = some (make es)

theorem Arena.Joins.cases {a : Arena} {make : List Handle → Node} {es : List Handle} {h : Handle}
    (hj : a.Joins make es h) : es = [h] ∨ a.node? h = some (make es) := by
  match es, hj with
  | [], hj => exact .inr hj
  | [_], hj => exact .inl (by rw [show h = _ from hj])
  | _ :: _ :: _, hj => exact .inr hj

theorem Arena.Joins.grow {a a' : Arena} (hg : a.Grows a') {make : List Handle → Node}
    (hm : ∀ es, make es ≠ .forward) {es : List Handle} {h : Handle} (hj : a.Joins make es h) :
    a'.Joins make es h := by
  match es, hj with
  | [], hj => exact hg h _ hj (hm _)
  | [_], hj => exact hj
  | _ :: _ :: _, hj => exact hg h _ hj (hm _)

namespace Bnf

section
variable (rs : RuleSet) (table : RuleTable) (a : Arena)

def IsSpacer (m : Mode) (ws : Option Handle) : Prop :=
  ws = (rs.options.spacer? m).bind (table[·]?) ∧ (ws = none → rs.options.spacer? m = none)

mutual

def Means (m : Mode) : Body → Handle → Prop
  | .name n, h => table[n]? = some h
  | .lit text, h => a.node? h = some (.literal text)
  | .opt b, h => ∃ e nothing, Means m b e ∧ a.node? nothing = some (.sequence []) ∧
      a.node? h = some (.choice [e, nothing])
  | .plus b, h => ∃ e, Means m b e ∧ a.node? h = some (.oneOrMore e)
  | .conj bs, h => ∃ es ws, MeansAll m bs es ∧ IsSpacer rs table m ws ∧
      a.Joins .sequence (interleave ws es) h
  | .disj bs, h => ∃ es, MeansAll m bs es ∧ a.Joins .choice es h

def MeansAll (m : Mode) : List Body → List Handle → Prop
  | [], es => es = []
  | b :: bs, es => ∃ e es', Means m b e ∧ MeansAll m bs es' ∧ es = e :: es'

end

/-- The expression `h` was made for a rule. It refers to an expression for the body, or else has the
same node. In the second case it may be that this expression belongs to another rule, and that one
must have been made before. -/
inductive Made : Definition → Handle → Prop
  | refer {d : Definition} {h e : Handle} (hm : Means rs table a d.mode d.body e)
    (hn : a.node? h = some (.aliasOf e)) : Made d h
  | copy {d : Definition} {h e : Handle} {node : Node} (hm : Means rs table a d.mode d.body e)
    (he : a.node? e = some node) (hn : a.node? h = some node) (hf : node ≠ .forward)
    (hb : ∀ n ∈ d.body.names, ∀ d', rs.definitions[n]? = some d' → table[n]? = some e → Made d' e) :
    Made d h

end

variable {rs : RuleSet} {table : RuleTable} {a a' : Arena} {m : Mode}

/-! ## Growth -/

mutual

theorem Means.grow (hg : a.Grows a') :
    ∀ {b : Body} {h : Handle}, Means rs table a m b h → Means rs table a' m b h
  | .name _, _, hm => hm
  | .lit _, _, hm => hg _ _ hm nofun
  | .opt _, _, ⟨e, nothing, hm, hn, hc⟩ =>
    ⟨e, nothing, hm.grow hg, hg _ _ hn nofun, hg _ _ hc nofun⟩
  | .plus _, _, ⟨e, hm, hc⟩ => ⟨e, hm.grow hg, hg _ _ hc nofun⟩
  | .conj _, _, ⟨es, ws, hm, hws, hj⟩ =>
    ⟨es, ws, hm.grow hg, hws, hj.grow hg fun _ => Node.noConfusion⟩
  | .disj _, _, ⟨es, hm, hj⟩ => ⟨es, hm.grow hg, hj.grow hg fun _ => Node.noConfusion⟩

theorem MeansAll.grow (hg : a.Grows a') :
    ∀ {bs : List Body} {es : List Handle},
      MeansAll rs table a m bs es → MeansAll rs table a' m bs es
  | [], _, hm => hm
  | _ :: _, _, ⟨e, es', hm, hms, he⟩ => ⟨e, es', hm.grow hg, hms.grow hg, he⟩

end

theorem Made.grow (hg : a.Grows a') {d : Definition} {h : Handle} (hm : Made rs table a d h) :
    Made rs table a' d h := by
  induction hm with
  | refer hm hn => exact .refer (hm.grow hg) (hg _ _ hn nofun)
  | copy hm he hn hf _ ih => exact .copy (hm.grow hg) (hg _ _ he hf) (hg _ _ hn hf) hf ih

/-! ## Sequences -/

theorem interleave_eq_singleton {ws : Option Handle} {es : List Handle} {e : Handle}
    (h : interleave ws es = [e]) : ws = none ∧ es = [e] := by
  cases ws with
  | none => exact ⟨rfl, h⟩
  | some w => cases es <;> cases h

theorem MeansAll.eq_singleton {bs : List Body} {e : Handle} (hm : MeansAll rs table a m bs [e]) :
    ∃ b, bs = [b] ∧ Means rs table a m b e := by
  cases bs with
  | nil => cases hm
  | cons b bs =>
    obtain ⟨e', es, hb, hbs, he⟩ := hm
    obtain ⟨rfl, rfl⟩ := List.cons.inj he
    cases bs with
    | nil => exact ⟨b, rfl, hb⟩
    | cons b' bs =>
      obtain ⟨_, _, _, _, h⟩ := hbs
      cases h

theorem MeansAll.spaced {bs : List Body} {es : List Handle} {ws : Option Handle}
    (hm : MeansAll rs table a m bs es) (hws : IsSpacer rs table m ws) :
    MeansAll rs table a m (rs.options.spaced m bs) (interleave ws es) := by
  obtain ⟨hbind, hnone⟩ := hws
  unfold Options.spaced
  cases ws with
  | none => rwa [hnone rfl]
  | some w =>
    obtain ⟨n, hn, hw⟩ := Option.bind_eq_some_iff.mp hbind.symm
    rw [hn]
    induction bs generalizing es with
    | nil =>
      obtain rfl := hm
      rfl
    | cons b bs ih =>
      obtain ⟨e, es', hb, hbs, rfl⟩ := hm
      exact ⟨w, _, hw, ⟨e, _, hb, ih hbs, rfl⟩, rfl⟩

end Bnf

end Peg
