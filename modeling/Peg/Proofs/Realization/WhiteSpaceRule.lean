import Peg.Proofs.Realization.Outcome

/-!
# The white-space rule

White space is put into loose rules. The rule for white space is strict, and so may be all that it
needs; whether they are can be seen from its component, since a loose rule needs white space again.
-/

namespace Peg.Bnf

/-! ## Strict rules -/

section
variable (rs rs' : RuleSet) (table : RuleTable) (rule : String)

mutual

/-- Nothing is put between the members of sequences in a strict rule. -/
theorem express_strict : ∀ b : Body,
    express rs table rule .strict b = express rs' table rule .strict b
  | .lit text => rfl
  | .name n => rfl
  | .opt b => by rw [express, express, express_strict b]
  | .plus b => by rw [express, express, express_strict b]
  | .disj bs => by rw [express, express, expressAll_strict bs]
  | .conj bs => by
    rw [express, express, expressAll_strict bs]
    rfl

theorem expressAll_strict : ∀ bs : List Body,
    expressAll rs table rule .strict bs = expressAll rs' table rule .strict bs
  | [] => rfl
  | b :: bs => by rw [expressAll, expressAll, express_strict b, expressAll_strict bs]

end

end

/-! ## What the rule for white space needs -/

section
variable {defs : Definitions} {options : Options} {rs : RuleSet} {w : String}

theorem mem_dependencies {d : Definition} {ws : Option String} {n : String} :
    n ∈ d.dependencies ws ↔ n ∈ d.body.names ∨ d.mode = .loose ∧ ws = some n := by
  rw [Definition.dependencies, mem_sortNames]
  cases d.mode <;> simp

/-- The rule `n` is defined and stands in what `u` needs. -/
theorem exists_of_edge {ws : Option String} {u v : String} (h : (dependencies defs ws).Edge u v) :
    ∃ d, defs[u]? = some d ∧ v ∈ d.dependencies ws := by
  cases hd : defs[u]? with
  | none =>
    have hu : u ∉ defs := by simpa using hd
    rw [Graph.Edge, successors_of_not_mem hu] at h
    cases h
  | some d => exact ⟨d, rfl, (mem_successors hd).mp h⟩

/-- The names in bodies suffice to get wherever white space between members leads. -/
theorem reach_names_iff {n : String} :
    (dependencies defs (some w)).Reach w n ↔ (dependencies defs none).Reach w n := by
  constructor
  · intro h
    induction h with
    | refl => exact .refl
    | tail _ hedge ih =>
      obtain ⟨d, hd, hmem⟩ := exists_of_edge hedge
      rcases mem_dependencies.mp hmem with hmem | ⟨-, he⟩
      · exact ih.tail ((mem_successors hd).mpr (mem_dependencies.mpr (.inl hmem)))
      · obtain rfl := Option.some.inj he
        exact .refl
  · intro h
    refine Relation.ReflTransGen.mono (fun u v hedge => ?_) w n h
    obtain ⟨d, hd, hmem⟩ := exists_of_edge hedge
    refine (mem_successors hd).mpr (mem_dependencies.mpr (.inl ?_))
    exact (mem_dependencies.mp hmem).resolve_right nofun

theorem whiteSpace_defined (h : RuleSet.ofDefinitions defs options = .ok rs)
    (hw : options.whiteSpace = some w) : ∃ d, defs[w]? = some d ∧ d.mode = .strict := by
  have hcheck : ∃ u, checkWhiteSpace defs (some w) = .ok u := by
    unfold RuleSet.ofDefinitions at h
    rw [hw] at h
    cases hc : checkWhiteSpace defs (some w) with
    | error e =>
      rw [hc] at h
      cases h
    | ok u => exact ⟨u, rfl⟩
  obtain ⟨u, hcheck⟩ := hcheck
  unfold checkWhiteSpace at hcheck
  cases hd : defs[w]? with
  | none =>
    simp only [hd] at hcheck
    cases hcheck
  | some d =>
    refine ⟨d, rfl, ?_⟩
    by_contra hm
    simp only [hd, if_neg hm] at hcheck
    cases hcheck

/-- A loose rule that the rule for white space needs is in the component of that rule. -/
theorem mem_component_of_loose (h : RuleSet.ofDefinitions defs options = .ok rs)
    (hw : options.whiteSpace = some w) {n : String} {d : Definition}
    (hr : (dependencies defs none).Reach w n) (hd : defs[n]? = some d) (hm : d.mode = .loose) :
    ∃ c ∈ rs.components, w ∈ c ∧ n ∈ c := by
  obtain ⟨dw, hdw, -⟩ := whiteSpace_defined h hw
  obtain rfl := ofDefinitions_eq h
  have hroot : w ∈ defs.keys := by
    rw [Std.TreeMap.mem_keys, Std.TreeMap.mem_iff_isSome_getElem?, hdw]
    rfl
  have hback : (dependencies defs (some w)).Edge n w :=
    (mem_successors hd).mpr (mem_dependencies.mpr (.inr ⟨hm, rfl⟩))
  have hforth := reach_names_iff.mpr hr
  rw [hw]
  obtain ⟨i, hi⟩ := Graph.exists_inComponent (Graph.root_mem_components _ _ hroot)
  obtain ⟨j, hji, hj⟩ := hi.reach hforth
  obtain rfl := Nat.le_antisymm hji (hj.le_of_reach hi (.single hback))
  exact hi.exists_component hj

/-- The rule for white space is strict. All that it needs is strict and has no white space put into
it exactly if nothing in its component is loose. -/
theorem whiteSpace_uninjected_iff (h : RuleSet.ofDefinitions defs options = .ok rs)
    (hw : options.whiteSpace = some w) :
    (∃ d, defs[w]? = some d ∧ d.mode = .strict) ∧
      ((∀ n d, (dependencies defs none).Reach w n → defs[n]? = some d → d.mode = .strict ∧
        ∀ table, express rs table n d.mode d.body =
          express { rs with options := ⟨none, .literal⟩ } table n d.mode d.body) ↔
      ∀ c ∈ rs.components, w ∈ c → ∀ n ∈ c, ∀ d, defs[n]? = some d → d.mode = .strict) := by
  refine ⟨whiteSpace_defined h hw, ?_⟩
  constructor
  · intro hall c hc hwc n hnc d hd
    obtain rfl := ofDefinitions_eq h
    rw [hw] at hc
    exact (hall n d (reach_names_iff.mp (Graph.reach_of_mem_component _ _ hc hwc hnc)) hd).1
  · intro hall n d hr hd
    have hm : d.mode = .strict := by
      cases hm : d.mode with
      | strict => rfl
      | loose =>
        obtain ⟨c, hc, hwc, hnc⟩ := mem_component_of_loose h hw hr hd hm
        exact hm.symm.trans (hall c hc hwc n hnc d hd)
    refine ⟨hm, fun table => ?_⟩
    rw [hm]
    exact express_strict rs _ table n d.body

end

/-- Pairs with blanks between them; the rule for white space needs another one. -/
def blankPairs : Definitions :=
  Std.TreeMap.empty
    |>.insert "pair" ⟨.conj [.lit "x", .lit "y"], .loose⟩
    |>.insert "ws" ⟨.plus (.name "blank"), .strict⟩
    |>.insert "blank" ⟨.disj [.lit " ", .lit "\t"], .strict⟩

theorem whiteSpace_uninjected_iff_blankPairs :
    ∃ rs, RuleSet.ofDefinitions blankPairs ⟨some "ws", .interleave⟩ = .ok rs ∧
      ∀ n d, (dependencies blankPairs none).Reach "ws" n → blankPairs[n]? = some d →
        d.mode = .strict ∧ ∀ table, express rs table n d.mode d.body =
          express { rs with options := ⟨none, .literal⟩ } table n d.mode d.body := by
  have hcomponents : (RuleSet.ofDefinitions blankPairs ⟨some "ws", .interleave⟩).toOption.map
      (·.components) = some [["blank"], ["ws"], ["pair"]] := by
    decide +kernel
  have hws : blankPairs["ws"]? = some ⟨.plus (.name "blank"), .strict⟩ := by decide +kernel
  rcases h : RuleSet.ofDefinitions blankPairs ⟨some "ws", .interleave⟩ with e | rs
  · rw [h] at hcomponents
    cases hcomponents
  · rw [h] at hcomponents
    have hcomponents : rs.components = _ := Option.some.inj hcomponents
    refine ⟨rs, rfl, (whiteSpace_uninjected_iff h rfl).2.mpr ?_⟩
    intro c hc hwc n hn d hd
    obtain rfl : c = ["ws"] := by
      rw [hcomponents] at hc
      simp only [List.mem_cons, List.not_mem_nil, or_false] at hc
      rcases hc with rfl | rfl | rfl
      · exact absurd hwc (by decide)
      · rfl
      · exact absurd hwc (by decide)
    obtain rfl := List.mem_singleton.mp hn
    obtain rfl := Option.some.inj (hws.symm.trans hd)
    rfl

/-- White space that may be a pair, which has white space put into it. -/
def pairBlanks : Definitions :=
  Std.TreeMap.empty
    |>.insert "pair" ⟨.conj [.lit "x", .lit "y"], .loose⟩
    |>.insert "ws" ⟨.disj [.lit " ", .name "pair"], .strict⟩

/-- That the rule for white space is strict does not keep white space out of what it needs. -/
theorem whiteSpace_injected :
    ¬∀ (defs : Definitions) (options : Options) (rs : RuleSet) (w : String),
      RuleSet.ofDefinitions defs options = .ok rs → options.whiteSpace = some w →
        ∀ n d, (dependencies defs none).Reach w n → defs[n]? = some d → d.mode = .strict := by
  intro hall
  have hok : (RuleSet.ofDefinitions pairBlanks ⟨some "ws", .interleave⟩).toOption.isSome := by
    decide +kernel
  have hws : pairBlanks["ws"]? = some ⟨.disj [.lit " ", .name "pair"], .strict⟩ := by
    decide +kernel
  have hpair : pairBlanks["pair"]? = some ⟨.conj [.lit "x", .lit "y"], .loose⟩ := by
    decide +kernel
  have hedge : (dependencies pairBlanks none).Edge "ws" "pair" :=
    (mem_successors hws).mpr (mem_dependencies.mpr (.inl (by decide)))
  rcases h : RuleSet.ofDefinitions pairBlanks ⟨some "ws", .interleave⟩ with e | rs
  · rw [h] at hok
    cases hok
  · have := hall _ _ _ "ws" h rfl "pair" _ (.single hedge) hpair
    cases this

end Peg.Bnf
