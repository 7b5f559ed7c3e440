import Mathlib.Data.Fintype.Card
import Mathlib.Tactic.IntervalCases
import Peg.Proofs.Engine.References

/-!
# Parses that end

A part of an expression is called on the left if it may be evaluated where the expression begins:
what comes before it may have matched without taking anything. When no expression calls itself on
the left, all parses end. Each evaluation takes place nearer to the end of the text than the one
that it belongs to, or else it is called on the left by it.
-/

namespace Peg

universe u

section
variable (a : Arena) (rules : RuleTable)

inductive Nullable : Handle → Prop
  | literal {h : Handle} (hn : a.node? h = some (.literal "")) : Nullable h
  | pattern {h : Handle} {p : Pattern} (hn : a.node? h = some (.pattern p)) : Nullable h
  | zeroOrMore {h k : Handle} (hn : a.node? h = some (.zeroOrMore k)) : Nullable h
  | ahead {h k : Handle} (hn : a.node? h = some (.ahead k)) : Nullable h
  | notAhead {h k : Handle} (hn : a.node? h = some (.notAhead k)) : Nullable h
  | sequence {h : Handle} {items : List Handle} (hn : a.node? h = some (.sequence items))
    (hi : ∀ k ∈ items, Nullable k) : Nullable h
  | choice {h k : Handle} {items : List Handle} (hn : a.node? h = some (.choice items))
    (hk : k ∈ items) (hi : Nullable k) : Nullable h
  | oneOrMore {h k : Handle} (hn : a.node? h = some (.oneOrMore k)) (hi : Nullable k) : Nullable h
  | aliasOf {h k : Handle} (hn : a.node? h = some (.aliasOf k)) (hi : Nullable k) : Nullable h
  | rule {h k : Handle} {name : String} (hn : a.node? h = some (.rule name))
    (hr : rules[name]? = some k) (hi : Nullable k) : Nullable h

/-- The expression `i` may evaluate `j` where it begins itself. -/
inductive LeftCalls : Handle → Handle → Prop
  | sequence {i j : Handle} {before after : List Handle}
    (hn : a.node? i = some (.sequence (before ++ j :: after)))
    (hb : ∀ k ∈ before, Nullable a rules k) : LeftCalls i j
  | part {i j : Handle} {node : Node} (hn : a.node? i = some node)
    (hs : ∀ items, node ≠ .sequence items) (hj : j ∈ node.parts) : LeftCalls i j
  | rule {i j : Handle} {name : String} (hn : a.node? i = some (.rule name))
    (hr : rules[name]? = some j) : LeftCalls i j

def LeftRecursive (h : Handle) : Prop :=
  Relation.TransGen (LeftCalls a rules) h h

/-- What it takes for the subject to match without taking anything. -/
def Subject.Idle : Subject → Prop
  | .expr h => Nullable a rules h
  | .node content => ∀ h, a.node? h = some content → Nullable a rules h
  | .all hs => ∀ k ∈ hs, Nullable a rules k
  | .first hs => ∃ k ∈ hs, Nullable a rules k
  | .again h enough => enough ∨ Nullable a rules h

end

section
variable {a : Arena} {rules : RuleTable} {x : Subject} {t : List Char} {r : Result}

/-! ## Matches that take nothing -/

theorem behind_eq_took_zero {u : List Char} (h : r.behind (byteLength u) = .took 0) :
    u = [] ∧ r = .took 0 := by
  cases r with
  | took n =>
    have := Result.took.inj h
    refine ⟨Cursor.byteLength_eq_zero (by omega), ?_⟩
    rw [show n = 0 by omega]
  | refused => cases h
  | fault e => cases h

theorem Node.Takes.nullable {node : Node} {h : Handle} (ht : node.Takes [] t)
    (hn : a.node? h = some node) : Nullable a rules h := by
  generalize hu : ([] : List Char) = u at ht
  cases ht with
  | literal =>
    rw [String.toList_eq_nil_iff.mp hu.symm] at hn
    exact .literal hn
  | pattern _ => exact .pattern hn
  | any | oneOf | noneOf | charRange | charClass => cases hu

/-- The sets of rules for what may match without taking anything are sound. -/
theorem Evaluation.idle (e : Evaluation a rules x t r) : r = .took 0 → x.Idle a rules := by
  induction e with
  | expr h hn e ih => exact fun hr => ih hr h hn
  | @terminal node u t ht =>
    intro hr h hn
    obtain rfl := Cursor.byteLength_eq_zero (Result.took.inj hr)
    exact ht.nullable hn
  | sequence e ih => exact fun hr h hn => .sequence hn (ih hr)
  | choice e ih =>
    intro hr h hn
    obtain ⟨k, hk, hi⟩ := ih hr
    exact .choice hn hk hi
  | zeroOrMore e ih => exact fun _ h hn => .zeroOrMore hn
  | oneOrMore e ih => exact fun hr h hn => .oneOrMore hn ((ih hr).resolve_left Bool.false_ne_true)
  | ahead e ih => exact fun _ h hn => .ahead hn
  | notAhead e ih => exact fun _ h hn => .notAhead hn
  | rule name ht e ih => exact fun hr h hn => .rule hn ht (ih hr)
  | aliasOf e ih => exact fun hr h hn => .aliasOf hn (ih hr)
  | allNil => exact fun _ => nofun
  | allCons e es ih ihs =>
    intro hr
    obtain ⟨rfl, htail⟩ := behind_eq_took_zero hr
    exact List.forall_mem_cons.mpr ⟨ih rfl, ihs htail⟩
  | allStop e hne ih => exact fun hr => absurd hr (hne 0)
  | firstHead e hne ih => exact fun hr => ⟨_, List.mem_cons_self, ih hr⟩
  | firstCons e es ih ihs =>
    intro hr
    obtain ⟨k, hk, hi⟩ := ihs hr
    exact ⟨k, List.mem_cons_of_mem _ hk, hi⟩
  | @againStop h enough t e ih =>
    intro hr
    cases enough with
    | true => exact .inl rfl
    | false => cases hr
  | againIdle e ih => exact fun hr => .inr (ih hr)
  | againStep e hu es ih ihs => exact fun hr => absurd (behind_eq_took_zero hr).1 hu
  | unresolved | refusal | noRule | firstNil | againFault => exact nofun

theorem Evaluation.split {n : Nat} (e : Evaluation a rules x t (.took n)) :
    ∃ u rest, t = u ++ rest ∧ n = byteLength u := by
  obtain ⟨w, hw, -⟩ := e.comes .none false ()
  cases hw with
  | took h => exact ⟨_, _, h, rfl⟩

/-! ## Evaluations that end -/

def Finishes (a : Arena) (rules : RuleTable) (x : Subject) (t : List Char) : Prop :=
  ∃ r, Nonempty (Evaluation a rules x t r)

theorem finishes_terminal {node : Node} (hn : node.isTerminal) : Finishes a rules (.node node) t := by
  by_cases h : ∃ u t', t = u ++ t' ∧ node.Takes u t'
  · obtain ⟨u, t', rfl, ht⟩ := h
    exact ⟨_, ⟨.terminal ht⟩⟩
  · exact ⟨_, ⟨.refusal hn fun u t' ht hk => h ⟨u, t', ht, hk⟩⟩⟩

theorem finishes_first {hs : List Handle} (h : ∀ k ∈ hs, Finishes a rules (.expr k) t) :
    Finishes a rules (.first hs) t := by
  induction hs with
  | nil => exact ⟨_, ⟨.firstNil⟩⟩
  | cons k ks ih =>
    obtain ⟨hk, hks⟩ := List.forall_mem_cons.mp h
    obtain ⟨r, ⟨e⟩⟩ := hk
    by_cases hr : r = .refused
    · subst hr
      obtain ⟨r', ⟨es⟩⟩ := ih hks
      exact ⟨r', ⟨.firstCons e es⟩⟩
    · exact ⟨r, ⟨.firstHead e hr⟩⟩

/-- A sequence ends on `t` when its items end on all that is shorter, and those that are called on
the left do so on `t` itself. -/
theorem finishes_all {hs : List Handle}
    (hbelow : ∀ k ∈ hs, ∀ t', t'.length < t.length → Finishes a rules (.expr k) t')
    (hleft : ∀ before k after, hs = before ++ k :: after → (∀ j ∈ before, Nullable a rules j) →
      Finishes a rules (.expr k) t) : Finishes a rules (.all hs) t := by
  induction hs generalizing t with
  | nil => exact ⟨_, ⟨.allNil⟩⟩
  | cons k ks ih =>
    obtain ⟨r, ⟨e⟩⟩ := hleft [] k ks rfl nofun
    by_cases hr : ∃ n, r = .took n
    · obtain ⟨n, rfl⟩ := hr
      obtain ⟨u, rest, rfl, rfl⟩ := e.split
      obtain ⟨-, hks⟩ := List.forall_mem_cons.mp hbelow
      obtain ⟨r, ⟨es⟩⟩ : Finishes a rules (.all ks) rest := by
        by_cases hu : u = []
        · subst hu
          -- nothing was taken, so that what comes next is called on the left as well
          refine ih hks fun before j after hj hb => hleft (k :: before) j after (by rw [hj]; rfl) ?_
          exact List.forall_mem_cons.mpr ⟨e.idle rfl, hb⟩
        · have hlt : rest.length < (u ++ rest).length := by
            have := List.length_pos_iff.mpr hu
            rw [List.length_append]
            omega
          refine ih (fun j hj t' ht' => hks j hj t' (ht'.trans hlt)) fun before j after hj _ => ?_
          exact hks j (by simp [hj]) rest hlt
      exact ⟨_, ⟨.allCons e es⟩⟩
    · exact ⟨r, ⟨.allStop e fun n hn => hr ⟨n, hn⟩⟩⟩

theorem finishes_again {h : Handle} {enough : Bool} (ht : Finishes a rules (.expr h) t)
    (hbelow : ∀ t', t'.length < t.length → Finishes a rules (.expr h) t') :
    Finishes a rules (.again h enough) t := by
  induction hl : t.length using Nat.strong_induction_on generalizing t enough with
  | _ n ih =>
    obtain ⟨r, ⟨e⟩⟩ := ht
    cases r with
    | refused => exact ⟨_, ⟨.againStop e⟩⟩
    | fault f => exact ⟨_, ⟨.againFault e⟩⟩
    | took m =>
      obtain ⟨u, rest, rfl, rfl⟩ := e.split
      by_cases hu : u = []
      · subst hu
        exact ⟨_, ⟨.againIdle e⟩⟩
      · have hlt : rest.length < (u ++ rest).length := by
          have := List.length_pos_iff.mpr hu
          rw [List.length_append]
          omega
        obtain ⟨r, ⟨es⟩⟩ : Finishes a rules (.again h true) rest :=
          ih _ (hl ▸ hlt) (hbelow rest hlt) (fun t' ht' => hbelow t' (ht'.trans hlt)) rfl
        exact ⟨_, ⟨.againStep e hu es⟩⟩

/-- One expression, when all that it refers to ends on what is shorter, and what it calls on the left
ends on the text itself. -/
theorem finishes_expr {h : Handle}
    (hbelow : ∀ k, Refers a rules h k → ∀ t', t'.length < t.length → Finishes a rules (.expr k) t')
    (hleft : ∀ k, LeftCalls a rules h k → Finishes a rules (.expr k) t) :
    Finishes a rules (.expr h) t := by
  have unresolved (hn : ∀ node, a.node? h = some node → node = .forward) :
      Finishes a rules (.expr h) t := ⟨_, ⟨.unresolved hn⟩⟩
  cases hn : a.node? h with
  | none => exact unresolved (by simp [hn])
  | some node =>
    have part {k : Handle} (hs : ∀ items, node ≠ .sequence items) (hk : k ∈ node.parts) :
        Finishes a rules (.expr k) t := hleft k (.part hn hs hk)
    have again {k : Handle} {enough : Bool} (hs : ∀ items, node ≠ .sequence items)
        (hk : k ∈ node.parts) : Finishes a rules (.again k enough) t :=
      finishes_again (part hs hk) (hbelow k (.inl ⟨node, hn, hk⟩))
    have content (hc : Finishes a rules (.node node) t) : Finishes a rules (.expr h) t := by
      obtain ⟨r, ⟨e⟩⟩ := hc
      exact ⟨r, ⟨.expr h hn e⟩⟩
    cases node with
    | any | oneOf | noneOf | literal | charRange | charClass | pattern =>
      exact content (finishes_terminal rfl)
    | sequence items =>
      obtain ⟨r, ⟨e⟩⟩ : Finishes a rules (.all items) t := by
        refine finishes_all (fun k hk => hbelow k (.inl ⟨_, hn, hk⟩)) fun before k after hi hb => ?_
        exact hleft k (.sequence (hi ▸ hn) hb)
      exact content ⟨r, ⟨.sequence e⟩⟩
    | choice items =>
      obtain ⟨r, ⟨e⟩⟩ : Finishes a rules (.first items) t := finishes_first fun k hk => part nofun hk
      exact content ⟨r, ⟨.choice e⟩⟩
    | zeroOrMore k =>
      obtain ⟨r, ⟨e⟩⟩ : Finishes a rules (.again k true) t := again nofun (List.mem_singleton_self k)
      exact content ⟨r, ⟨.zeroOrMore e⟩⟩
    | oneOrMore k =>
      obtain ⟨r, ⟨e⟩⟩ : Finishes a rules (.again k false) t := again nofun (List.mem_singleton_self k)
      exact content ⟨r, ⟨.oneOrMore e⟩⟩
    | ahead k =>
      obtain ⟨r, ⟨e⟩⟩ := part nofun (List.mem_singleton_self k)
      exact content ⟨_, ⟨.ahead e⟩⟩
    | notAhead k =>
      obtain ⟨r, ⟨e⟩⟩ := part nofun (List.mem_singleton_self k)
      exact content ⟨_, ⟨.notAhead e⟩⟩
    | aliasOf k =>
      obtain ⟨r, ⟨e⟩⟩ := part nofun (List.mem_singleton_self k)
      exact content ⟨r, ⟨.aliasOf e⟩⟩
    | rule name =>
      cases hr : rules[name]? with
      | none => exact content ⟨_, ⟨.noRule hr⟩⟩
      | some k =>
        obtain ⟨r, ⟨e⟩⟩ := hleft k (.rule hn hr)
        exact content ⟨r, ⟨.rule name hr e⟩⟩
    | forward => exact unresolved fun node hnode => Option.some.inj (hnode.symm.trans hn)

/-! ## Without left recursion -/

theorem LeftCalls.refers {i j : Handle} (h : LeftCalls a rules i j) : Refers a rules i j := by
  cases h with
  | sequence hn hb => exact .inl ⟨_, hn, by simp [Node.parts]⟩
  | part hn hs hj => exact .inl ⟨_, hn, hj⟩
  | rule hn hr => exact .inr ⟨_, hn, hr⟩

theorem Refers.lt_size {i j : Handle} (h : Refers a rules i j) : i < a.size := by
  rcases h with ⟨node, hn, -⟩ | ⟨name, hn, -⟩
  · exact Arena.lt_size_of_node? hn
  · exact Arena.lt_size_of_node? hn

/-- There are finitely many expressions that call others, so that without a cycle all ways along the
calls come to an end. -/
theorem acc_leftCalls {h : Handle} (hl : ∀ k, Leads a rules h k → ¬LeftRecursive a rules k) {k : Handle}
    (hk : Leads a rules h k) : Acc (fun j i => LeftCalls a rules i j) k := by
  let After (j i : { k : Fin a.size // Leads a rules h k }) : Prop :=
    Relation.TransGen (LeftCalls a rules) i.1 j.1
  have : IsTrans _ After := ⟨fun _ _ _ hij hjk => hjk.trans hij⟩
  have : Std.Irrefl After := ⟨fun i hi => hl i.1 i.2 hi⟩
  have hwf : WellFounded After := Finite.wellFounded_of_trans_of_irrefl After
  have hacc (i : { k : Fin a.size // Leads a rules h k }) :
      Acc (fun j i => LeftCalls a rules i j) (i.1 : Handle) := by
    induction i using hwf.induction with
    | _ i ih =>
      refine ⟨_, fun j hj => ?_⟩
      have hlead : Leads a rules h j := i.2.tail hj.refers
      by_cases hlt : j < a.size
      · exact ih ⟨⟨j, hlt⟩, hlead⟩ (.single hj)
      · exact ⟨_, fun _ hj' => absurd hj'.refers.lt_size hlt⟩
  by_cases hlt : k < a.size
  · exact hacc ⟨⟨k, hlt⟩, hk⟩
  · exact ⟨_, fun _ hj => absurd hj.refers.lt_size hlt⟩

/-- A number for each expression that falls along the calls on the left rules out a cycle. -/
theorem not_leftRecursive_of_rank (rank : Handle → Nat)
    (h : ∀ i j, LeftCalls a rules i j → rank j < rank i) (k : Handle) : ¬LeftRecursive a rules k := by
  have key {i j : Handle} (hc : Relation.TransGen (LeftCalls a rules) i j) : rank j < rank i := by
    induction hc with
    | single hij => exact h _ _ hij
    | tail _ hij ih => exact (h _ _ hij).trans ih
  exact fun hk => Nat.lt_irrefl _ (key hk)

theorem finishes_of_not_leftRecursive {h : Handle}
    (hl : ∀ k, Leads a rules h k → ¬LeftRecursive a rules k) (t : List Char) {k : Handle}
    (hk : Leads a rules h k) : Finishes a rules (.expr k) t := by
  -- first by the length of the text, then along the calls on the left
  induction ht : t.length using Nat.strong_induction_on generalizing t k with
  | _ n ihn =>
    have hacc := acc_leftCalls hl hk
    induction hacc with
    | intro k _ ihk =>
      refine finishes_expr (fun j hj t' ht' => ?_) fun j hj => ?_
      · exact ihn _ (ht ▸ ht') t' (hk.tail hj) rfl
      · exact ihk j hj (hk.tail hj.refers)

end

/-- An expression that leads to no left recursion comes to a result on every text. -/
theorem parse_terminates {σ : Type u} (g : Grammar σ) {h : Handle}
    (hl : ∀ k, Leads g.arena g.rules h k → ¬LeftRecursive g.arena g.rules k) (text : String) (s : σ) :
    ∃ r, Nonempty (Evaluation g.arena g.rules (.expr h) text.toList r) ∧
      (g.parse h text s).1.result? = some r := by
  obtain ⟨r, ⟨e⟩⟩ := finishes_of_not_leftRecursive hl text.toList .refl
  exact ⟨r, ⟨e⟩, e.parse_result g.actions s⟩

/-- Groups in brackets, with groups in them: the repetition is of what may be nothing, and the rule
calls itself by its name. -/
def nested : Handle × Arena :=
  (do
    let opening ← Building.literal "("
    let inner ← Building.rule "nested"
    let group ← Building.seq [opening, inner, ← Building.literal ")"]
    Building.star (← Building.opt group)) ∅

def nestedRules : RuleTable :=
  Std.TreeMap.empty.insert "nested" nested.1

theorem parse_terminates_nested :
    (∀ k, Leads nested.2 nestedRules nested.1 k → ¬LeftRecursive nested.2 nestedRules k) ∧
      Nonempty (Evaluation nested.2 nestedRules (.expr nested.1) "(()())x".toList (.took 6)) := by
  have hnode {i : Handle} {node : Node} (hn : nested.2.node? i = some node) :
      [.literal "(", .rule "nested", .literal ")", .sequence [0, 1, 2], .sequence [],
        .choice [3, 4], .zeroOrMore 5][i]? = some node := by
    rw [Arena.node?, ← Array.getElem?_toList, ← List.getElem?_map] at hn
    exact hn
  have hopening : ¬Nullable nested.2 nestedRules 0 := by
    intro h
    cases h <;> rename_i hn <;> have := hnode hn <;> simp at this
  have hrank (i j : Handle) (h : LeftCalls nested.2 nestedRules i j) :
      [0, 4, 0, 1, 0, 2, 3].getD j 0 < [0, 4, 0, 1, 0, 2, 3].getD i 0 := by
    have hi : i < 7 := h.refers.lt_size
    cases h with
    | @sequence before after hn hb =>
      have := hnode hn
      interval_cases i <;> simp at this
      cases before with
      | nil => simp [(List.cons.inj this).1.symm]
      | cons k ks => exact absurd (hb k List.mem_cons_self) ((List.cons.inj this).1 ▸ hopening)
    | part hn hs hj =>
      have := hnode hn
      interval_cases i <;> simp at this <;> subst this <;> simp [Node.parts] at hs hj
      · rcases hj with rfl | rfl <;> decide
      · subst hj
        decide
    | rule hn hr =>
      have := hnode hn
      interval_cases i <;> simp at this
      subst this
      rw [show nestedRules["nested"]? = some 6 by decide +kernel] at hr
      obtain rfl := Option.some.inj hr
      decide
  have hl (k : Handle) : ¬LeftRecursive nested.2 nestedRules k := not_leftRecursive_of_rank _ hrank k
  obtain ⟨r, he, hr⟩ := parse_terminates ⟨nested.2, nestedRules, .none⟩ (fun k _ => hl k) "(()())x" ()
  have hparse : (Grammar.parse ⟨nested.2, nestedRules, .none⟩ nested.1 "(()())x" ()).1.result? =
      some (.took 6) := by
    decide +kernel
  obtain rfl := Option.some.inj (hr.symm.trans hparse)
  exact ⟨fun k _ => hl k, he⟩

end Peg
