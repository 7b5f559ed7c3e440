import Peg.Proofs.Arena.WellFormed
import Peg.Proofs.Meaning.Flattening
import Peg.Proofs.Realization.Outcome
import Peg.Regex.Engine

/-!
# Realizing flat rules

Rules and their flat forms are realized alike. The expressions for them differ, and so do the arenas:
where a list comes down to a member, the one has a node of its own for what the other has in its place.
But they come to the same on every text, also when what is predefined refers to them by name.

Two realizations are compared by the depth of an evaluation in the first one. What was there before is
the same in both, and evaluates by the same rules. What was made for a rule means what the rule means,
and the rules mean the same in both.
-/

namespace Peg

universe u v

/-! ## Trees and verdicts -/

section
variable {a : Arena} {rules : RuleTable} {h : Handle} {t : List Char} {w : Verdict}

theorem Yields.hasTree (hy : Yields (silent a rules) false h t () w ()) :
    HasTree a rules (.expr h) t w := by
  obtain ⟨o, ho, n, hn⟩ := hy.settles ⟨0, t⟩ rfl
  have hv : (eval (silent a rules) n false h ⟨0, t⟩ ()).1.verdict? = some w := by
    rw [hn n (Nat.le_refl n)]
    exact ho
  exact haveTrees (silent a rules) n trivial hv

theorem HasTree.yields (ht : HasTree a rules (.expr h) t w) :
    Yields (silent a rules) false h t () w () := by
  obtain ⟨r, hr, ⟨e⟩⟩ := ht
  obtain ⟨w', hw', hy⟩ := e.comes (Actions.none : Actions Unit) false ()
  rw [hr.verdict_unique hw']
  exact hy

end

namespace Bnf

/-! ## Two realizations -/

/-- The expressions stand for the same: they were there before, or belong to the same name. -/
def Alike (base : Arena) (table table' : RuleTable) (k k' : Handle) : Prop :=
  k = k' ∧ k < base.size ∨ ∃ n : String, table[n]? = some k ∧ table'[n]? = some k'

/-- Rules that mean the same were realized with the same predefined ones, on the same base, for
grammars whose own rules are alike. -/
structure Twins (rs rs' : RuleSet) (predefined : RuleTable) (base : Arena)
    (table table' rules rules' : RuleTable) (a a' : Arena) : Prop where
  real : Realized rs predefined table a
  real' : Realized rs' predefined table' a'
  names : ∀ n : String, rs.definitions[n]? = none ↔ rs'.definitions[n]? = none
  meaning : ∀ {outer m goal t v}, Meaning rs.definitions rs.options outer m goal t v ↔
    Meaning rs'.definitions rs'.options outer m goal t v
  bounded : base.InBounds
  given : ∀ (n : String) (k : Handle), predefined[n]? = some k → k < base.size
  kept : ∀ i < base.size, a.node? i = base.node? i
  kept' : ∀ i < base.size, a'.node? i = base.node? i
  alike : ∀ n : String, Option.Rel (Alike base table table') rules[n]? rules'[n]?

section
variable {rs rs' : RuleSet} {predefined : RuleTable} {base : Arena}
  {table table' rules rules' : RuleTable} {a a' : Arena}

theorem Alike.symm {k k' : Handle} (h : Alike base table table' k k') :
    Alike base table' table k' k := by
  rcases h with ⟨rfl, hk⟩ | ⟨n, hk, hk'⟩
  · exact .inl ⟨rfl, hk⟩
  · exact .inr ⟨n, hk', hk⟩

variable (T : Twins rs rs' predefined base table table' rules rules' a a')
include T

theorem Twins.symm : Twins rs' rs predefined base table' table rules' rules a' a where
  real := T.real'
  real' := T.real
  names n := (T.names n).symm
  meaning := T.meaning.symm
  bounded := T.bounded
  given := T.given
  kept := T.kept'
  kept' := T.kept
  alike n := by
    have h := T.alike n
    generalize rules[n]? = k at h
    generalize rules'[n]? = k' at h
    cases h with
    | some h => exact .some h.symm
    | none => exact .none

/-- What the second realization makes of the predefined names. -/
def Elsewhere (predefined rules' : RuleTable) (a' : Arena) (n : String) (t : List Char) (v : Verdict) :
    Prop :=
  ∃ k, predefined[n]? = some k ∧ HasTree a' rules' (.expr k) t v

/-- What is evaluated in the first realization comes to the same in the second one. -/
theorem Twins.transfer {n : Nat} (hs : Sound rs table rules a (Elsewhere predefined rules' a') n)
    (H : HaveTrees (silent a rules) n (· < base.size) a' rules') {k k' : Handle}
    (hk : Alike base table table' k k') {quiet : Bool} {c : Cursor} {w : Verdict}
    (hw : (eval (silent a rules) n quiet k c ()).1.verdict? = some w) :
    HasTree a' rules' (.expr k') c.rest w := by
  rcases hk with ⟨rfl, hlt⟩ | ⟨m, hk, hk'⟩
  · exact H hlt hw
  · rw [eval_outcome (silent a rules) (silent a rules) rfl rfl n quiet false k c () ()] at hw
    have hm := hs (m := .strict) (b := .name m) hk hw
    refine (complete_of_outer T.real' ?_ (T.meaning.mp hm) k' hk').hasTree
    rintro m' j t v hd hj ⟨j', hj', htree⟩
    rw [T.real'.outer m' hd] at hj
    obtain rfl := Option.some.inj (hj.symm.trans hj')
    exact htree.yields

theorem Twins.rulesHaveTrees {n : Nat}
    (hs : Sound rs table rules a (Elsewhere predefined rules' a') n)
    (H : HaveTrees (silent a rules) n (· < base.size) a' rules') :
    RulesHaveTrees (silent a rules) n a' rules' := by
  intro name
  have h := T.alike name
  have hr : (silent a rules).rule? name = rules[name]? := rfl
  rw [hr]
  generalize rules[name]? = k at h ⊢
  generalize rules'[name]? = k' at h ⊢
  cases h with
  | none => exact ⟨fun _ => rfl, nofun⟩
  | some h =>
    refine ⟨nofun, fun target ht => ?_⟩
    obtain rfl := Option.some.inj ht
    exact ⟨_, rfl, fun hw => T.transfer hs H h hw⟩

theorem Twins.agrees {n : Nat} (H : HaveTrees (silent a rules) n (· < base.size) a' rules') :
    Agrees rs table rules a (Elsewhere predefined rules' a') n := by
  intro m h c v hd ht hv
  rw [T.real.outer m hd] at ht
  exact ⟨h, ht, H (T.given m h ht) hv⟩

theorem Twins.evaluations (n : Nat) : Sound rs table rules a (Elsewhere predefined rules' a') n ∧
    HaveTrees (silent a rules) n (· < base.size) a' rules' := by
  induction n with
  | zero =>
    refine ⟨sound_zero, ?_⟩
    intro quiet h c s w _ hw
    cases hw
  | succ n ih =>
    obtain ⟨hs, H⟩ := ih
    have H' : HaveTrees (silent a rules) (n + 1) (· < base.size) a' rules' := by
      intro quiet h c s w hh hw
      have hnode : a.node? h = a'.node? h := by rw [T.kept h hh, T.kept' h hh]
      refine H.expr (T.rulesHaveTrees hs H) hnode (fun node hn k hk => ?_) hw
      rw [T.kept' h hh] at hn
      exact T.bounded h k ⟨node, hn, hk⟩
    exact ⟨hs.deeper T.real (T.agrees H'), H'⟩

theorem Twins.verdict {k k' : Handle} (hk : Alike base table table' k k') {text : String} {w : Verdict}
    (hw : ((silent a rules).parse k text ()).1.verdict? = some w) :
    ((silent a' rules').parse k' text ()).1.verdict? = some w := by
  obtain ⟨hs, H⟩ := T.evaluations ((silent a rules).depth text)
  have htree : HasTree a' rules' (.expr k') text.toList w := T.transfer hs H hk hw
  obtain ⟨o, ho, hv⟩ := parse_iff_yields.mp htree.yields
  rw [ho]
  exact hv

theorem Twins.result_eq {k k' : Handle} (hk : Alike base table table' k k') {σ : Type u} {τ : Type v}
    {g : Grammar σ} {g' : Grammar τ} (ha : g.arena = a) (hr : g.rules = rules) (ha' : g'.arena = a')
    (hr' : g'.rules = rules') (text : String) (s : σ) (s' : τ) :
    (g.parse k text s).1.result? = (g'.parse k' text s').1.result? := by
  rw [parse_silent ha hr, parse_silent ha' hr']
  have hlies : ((silent a rules).parse k text ()).1.LiesFrom (.atStart text) := eval_liesFrom ..
  have hlies' : ((silent a' rules').parse k' text ()).1.LiesFrom (.atStart text) := eval_liesFrom ..
  apply Option.ext
  intro r
  rw [Outcome.result?_eq_some_iff hlies, Outcome.result?_eq_some_iff hlies']
  refine exists_congr fun w => and_congr_left fun _ => ?_
  exact ⟨T.verdict hk, T.symm.verdict hk.symm⟩

end

/-! ## Rules and their flat forms -/

section
variable {defs : Definitions} {options : Options} {rs : RuleSet} {predefined : RuleTable}

abbrev RuleSet.flat (rs : RuleSet) : RuleSet :=
  { rs with definitions := flatten rs.definitions }

theorem ofDefinitions_flat (h : RuleSet.ofDefinitions defs options = .ok rs) :
    RuleSet.ofDefinitions (flatten defs) options = .ok rs.flat := by
  rw [ofDefinitions_flatten, h, ofDefinitions_eq h]
  rfl

theorem unsupplied?_flat : rs.flat.unsupplied? predefined = rs.unsupplied? predefined := by
  simp only [RuleSet.unsupplied?, flatten, Std.TreeMap.contains_map]

/-- Both are realized, or the same name is missing for both. -/
theorem realize_flat (h : RuleSet.ofDefinitions defs options = .ok rs) (w : Workshop)
    (e : CompileError) : (rs.flat.realize predefined w).1 = .error e ↔
      (rs.realize predefined w).1 = .error e := by
  rw [realize_error_iff h, realize_error_iff (ofDefinitions_flat h), unsupplied?_flat]

theorem realize_kept (h : RuleSet.ofDefinitions defs options = .ok rs) {w w' : Workshop}
    {res : Except CompileError RuleTable} (hr : rs.realize predefined w = (res, w')) {i : Handle}
    (hi : i < w.arena.size) : w'.arena.node? i = w.arena.node? i := by
  unfold Arena.node?
  rcases realize_outcome h hr with ⟨table, -, hf⟩ | ⟨n, -, -, -, hl⟩
  · rw [hf.laid.kept i hi]
  · rw [hl.kept i hi]

theorem alike_tables {table table' : RuleTable} {base a a' : Arena}
    (hreal : Realized rs predefined table a) (hreal' : Realized rs.flat predefined table' a')
    (n : String) : Option.Rel (Alike base table table') table[n]? table'[n]? := by
  cases hd : rs.definitions[n]? with
  | some d =>
    obtain ⟨k, hk, -⟩ := hreal.defined n d hd
    have hd' : rs.flat.definitions[n]? = some { d with body := d.body.norm } := by
      rw [getElem?_flatten, hd, Option.map_some]
    obtain ⟨k', hk', -⟩ := hreal'.defined n _ hd'
    rw [hk, hk']
    exact .some (.inr ⟨n, hk, hk'⟩)
  | none =>
    have hd' : rs.flat.definitions[n]? = none := by
      rw [getElem?_flatten, hd, Option.map_none]
    have heq : table[n]? = table'[n]? := by
      rw [hreal.outer n hd, hreal'.outer n hd']
    cases hk : table[n]? with
    | none =>
      rw [← heq, hk]
      exact .none
    | some k =>
      rw [← heq, hk]
      exact .some (.inr ⟨n, hk, heq ▸ hk⟩)

/-- Rules and their flat forms need the same names and have the same components. For both, the
expressions can be made, or there is the same error. Where they are made, the two expressions for a
rule come to the same result on every text, and where the one does not come to an end the other one
does not either. This holds whatever the actions are, and also where what was there before refers to
rules by their names, as long as the grammars have the same for these names: such as the tables that
were made. -/
theorem flatten_keeps_results (h : RuleSet.ofDefinitions defs options = .ok rs)
    (hl : options.spacing = .literal) :
    ∃ rs', RuleSet.ofDefinitions (flatten defs) options = .ok rs' ∧
      rs'.dependencies = rs.dependencies ∧ rs'.components = rs.components ∧
      ∀ (predefined : RuleTable) (w : Workshop),
        (∃ e, (rs.realize predefined w).1 = .error e ∧ (rs'.realize predefined w).1 = .error e) ∨
        ∃ table table' w₁ w₂, rs.realize predefined w = (.ok table, w₁) ∧
          rs'.realize predefined w = (.ok table', w₂) ∧
          (∀ n : String, Option.Rel (Alike w.arena table table') table[n]? table'[n]?) ∧
          (w.arena.InBounds →
            (∀ (n : String) (k : Handle), predefined[n]? = some k → k < w.arena.size) →
            ∀ n ∈ defs, ∃ k k', table[n]? = some k ∧ table'[n]? = some k' ∧
              ∀ (σ : Type u) (τ : Type v) (g : Grammar σ) (g' : Grammar τ), g.arena = w₁.arena →
                g'.arena = w₂.arena →
                (∀ m : String, Option.Rel (Alike w.arena table table') g.rules[m]? g'.rules[m]?) →
                ∀ (text : String) (s : σ) (s' : τ),
                  (g.parse k text s).1.result? = (g'.parse k' text s').1.result?) := by
  have h' := ofDefinitions_flat h
  refine ⟨rs.flat, h', rfl, rfl, fun predefined w => ?_⟩
  have herror : ∀ e, (rs.flat.realize predefined w).1 = .error e ↔
      (rs.realize predefined w).1 = .error e := realize_flat h w
  rcases hr : rs.realize predefined w with ⟨res, w₁⟩
  rcases hr' : rs.flat.realize predefined w with ⟨res', w₂⟩
  rw [hr, hr'] at herror
  cases res with
  | error e => exact .inl ⟨e, rfl, (herror e).mpr rfl⟩
  | ok table =>
  cases res' with
  | error e => cases (herror e).mp rfl
  | ok table' =>
    have hreal := realize_spec h hr
    have hreal' := realize_spec h' hr'
    have hdefs := ofDefinitions_eq h
    refine .inr ⟨table, table', w₁, w₂, rfl, rfl, alike_tables hreal hreal', ?_⟩
    intro hb hin n hn
    obtain ⟨d, hd⟩ := mem_iff_entry.mp hn
    obtain ⟨k, hk, -⟩ := hreal.defined n d (by rw [hdefs]; exact hd)
    have hd' : rs.flat.definitions[n]? = some { d with body := d.body.norm } := by
      rw [getElem?_flatten, hdefs, hd, Option.map_some]
    obtain ⟨k', hk', -⟩ := hreal'.defined n _ hd'
    refine ⟨k, k', hk, hk', fun σ τ g g' ha ha' hrules text s s' => ?_⟩
    have T : Twins rs rs.flat predefined w.arena table table' g.rules g'.rules w₁.arena w₂.arena :=
      { real := hreal
        real' := hreal'
        names := fun m => by rw [getElem?_flatten, Option.map_eq_none_iff]
        meaning := (meaning_flatten_iff (by rw [hdefs]; exact hl)).symm
        bounded := hb
        given := hin
        kept := fun i hi => realize_kept h hr hi
        kept' := fun i hi => realize_kept h' hr' hi
        alike := hrules }
    exact T.result_eq (.inr ⟨n, hk, hk'⟩) ha rfl ha' rfl text s s'

end

/-- Sums of operands, written with more lists than they need. -/
def sums : Definitions :=
  Std.TreeMap.empty
    |>.insert "sum"
      ⟨.disj [.disj [.conj [.conj [.name "term", .lit "+"], .name "sum"], .lit "0"], .name "term"],
        .strict⟩
    |>.insert "term" ⟨.conj [.name "operand"], .strict⟩

/-- An operand is a digit or a sum in parentheses, and it is by its name that it refers to the sum. -/
def operand : RuleTable × Arena :=
  (Std.TreeMap.empty.insert "operand" 5, Operation.runAll
    [.oneOf "123456789", .literal "(", .rule "sum", .literal ")", .seq [1, 2, 3], .choice [0, 4]] ∅)

theorem inBounds_operand : operand.2.InBounds :=
  Arena.WellFormed.inBounds (Arena.wellFormed_runAll (by decide +kernel) Arena.wellFormed_empty)

theorem lt_size_operand (n : String) (k : Handle) (hk : operand.1[n]? = some k) :
    k < operand.2.size := by
  have hmem := Std.TreeMap.mem_toList_iff_getElem?_eq_some.mpr hk
  rw [show operand.1.toList = [("operand", 5)] by decide +kernel, List.mem_singleton] at hmem
  obtain rfl : k = 5 := congrArg Prod.snd hmem
  decide +kernel

theorem flatten_keeps_results_sums :
    ∃ rs rs' table table' w₁ w₂ k k', RuleSet.ofDefinitions sums ⟨none, .literal⟩ = .ok rs ∧
      RuleSet.ofDefinitions (flatten sums) ⟨none, .literal⟩ = .ok rs' ∧
      operand.2.InBounds ∧
      (∀ (n : String) (k : Handle), operand.1[n]? = some k → k < operand.2.size) ∧
      rs.realize operand.1 ⟨operand.2, #[]⟩ = (.ok table, w₁) ∧
      rs'.realize operand.1 ⟨operand.2, #[]⟩ = (.ok table', w₂) ∧
      table["sum"]? = some k ∧ table'["sum"]? = some k' ∧
      (∀ text, ((silent w₁.arena table).parse k text ()).1.result? =
        ((silent w₂.arena table').parse k' text ()).1.result?) ∧
      ((silent w₂.arena table').parse k' "(1+0)+2!" ()).1.result? = some (.took 7) := by
  have hparse : ((RuleSet.ofDefinitions sums ⟨none, .literal⟩).toOption.bind fun rs =>
      let made := rs.realize operand.1 ⟨operand.2, #[]⟩
      made.1.toOption.bind fun table => table["sum"]?.bind fun k =>
        ((silent made.2.arena table).parse k "(1+0)+2!" ()).1.result?) = some (.took 7) := by
    decide +kernel
  rcases h : RuleSet.ofDefinitions sums ⟨none, .literal⟩ with e | rs
  · rw [h] at hparse
    cases hparse
  · rw [h, Except.toOption, Option.bind_some] at hparse
    obtain ⟨rs', h', -, -, hall⟩ := flatten_keeps_results.{0, 0} h rfl
    rcases hall operand.1 ⟨operand.2, #[]⟩ with
      ⟨e, he, -⟩ | ⟨table, table', w₁, w₂, hr, hr', halike, hres⟩
    · simp only [he] at hparse
      cases hparse
    · obtain ⟨k, k', hk, hk', heq⟩ := hres inBounds_operand lt_size_operand "sum" (by decide +kernel)
      have hsame (text : String) := heq Unit Unit (silent w₁.arena table) (silent w₂.arena table') rfl rfl
        halike text () ()
      refine ⟨rs, rs', table, table', w₁, w₂, k, k', rfl, h', inBounds_operand, lt_size_operand, hr,
        hr', hk, hk', hsame, ?_⟩
      rw [← hsame]
      simp only [hr, Except.toOption, Option.bind_some, hk] at hparse
      exact hparse

end Bnf

end Peg
