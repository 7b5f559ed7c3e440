import Peg.Proofs.Graph.Partition
import Peg.Proofs.Meaning.Simulation
import Peg.Proofs.Realization.Stages

/-!
# How a realization ends

Every lookup finds its name, since a component is realized after all that its rules need, and every
promotion finds a forward declaration. All that can go wrong is that a name is neither defined nor
predefined. Nothing waits for its content then: such a name needs no other, so that it is alone in its
component.
-/

namespace Peg.Bnf

universe u

/-! ## Components -/

section
variable {defs : Definitions} {options : Options} {rs : RuleSet}

theorem successors_of_not_mem {ws : Option String} {n : String} (hn : n ∉ defs) :
    (dependencies defs ws).successors n = [] := by
  refine Std.TreeMap.getD_eq_fallback fun hmem => hn ?_
  rwa [dependencies, Std.TreeMap.mem_map] at hmem

/-- A name without a definition needs nothing, and so there is nothing else in its component. -/
theorem defined_or_alone (h : RuleSet.ofDefinitions defs options = .ok rs) {c : List String}
    (hc : c ∈ rs.components) :
    (∀ n ∈ c, n ∈ rs.definitions) ∨ ∃ n, c = [n] ∧ n ∉ rs.definitions := by
  obtain rfl := ofDefinitions_eq h
  by_cases hall : ∀ n ∈ c, n ∈ defs
  · exact .inl hall
  · push Not at hall
    obtain ⟨n, hn, hd⟩ := hall
    have heq (v : String) (hv : v ∈ c) : v = n := by
      rcases (Graph.reach_of_mem_component _ _ hc hn hv).cases_head with he | ⟨u, hu, -⟩
      · exact he.symm
      · rw [Graph.Edge, successors_of_not_mem hd] at hu
        cases hu
    obtain ⟨hne, hsorted⟩ := Graph.ne_nil_and_sorted_of_mem_components _ _ hc
    refine .inr ⟨n, ?_, hd⟩
    cases c with
    | nil => exact absurd rfl hne
    | cons v vs =>
      obtain rfl := heq v List.mem_cons_self
      refine congrArg (v :: ·) (List.eq_nil_iff_forall_not_mem.mpr fun u hu => ?_)
      have hlt := (List.pairwise_cons.mp hsorted).1 u hu
      rw [heq u (List.mem_cons_of_mem _ hu)] at hlt
      exact String.lt_irrefl v hlt

theorem mem_missing (h : RuleSet.ofDefinitions defs options = .ok rs) {n : String} :
    n ∈ rs.missing ↔ n ∈ rs.components.flatten ∧ n ∉ rs.definitions := by
  obtain rfl := ofDefinitions_eq h
  rw [RuleSet.missing, List.mem_filter, mem_sortNames, List.mem_flatten]
  simp only [Bool.not_eq_true', ← Bool.not_eq_true, Std.TreeMap.contains_iff_mem]
  refine and_congr_left fun hn => ?_
  rw [Graph.mem_components_iff, Graph.values_eq]
  constructor
  · rintro ⟨ns, hns, hmem⟩
    obtain ⟨⟨m, _⟩, hm, rfl⟩ := List.mem_map.mp hns
    have hm := Std.TreeMap.mem_toList_iff_getElem?_eq_some.mp hm
    have hdeps : m ∈ dependencies defs options.whiteSpace := mem_iff_entry.mpr ⟨_, hm⟩
    rw [dependencies, Std.TreeMap.mem_map] at hdeps
    refine ⟨m, Std.TreeMap.mem_keys.mpr hdeps, .single ?_⟩
    rw [Graph.Edge, Graph.successors, Std.TreeMap.getD_eq_getD_getElem?, hm]
    exact hmem
  · rintro ⟨r, hr, hreach⟩
    rcases hreach.cases_tail with rfl | ⟨u, -, hu⟩
    · exact absurd (Std.TreeMap.mem_keys.mp hr) hn
    · rw [Graph.Edge, Graph.successors, Std.TreeMap.getD_eq_getD_getElem?] at hu
      cases hd : (dependencies defs options.whiteSpace)[u]? with
      | none =>
        rw [hd] at hu
        cases hu
      | some ns =>
        rw [hd] at hu
        exact ⟨ns, List.mem_map.mpr ⟨_, Std.TreeMap.mem_toList_iff_getElem?_eq_some.mpr hd, rfl⟩, hu⟩

end

/-! ## Steps of a realization -/

section
variable {rs : RuleSet} {predefined known : RuleTable} {base : Arena} {done : List String}
  {waiting : List Handle} {w : Workshop}

theorem building_of_ok {α : Type} {x : ExceptT CompileError Building α} {r : α} {a : Arena}
    (hx : x w.arena = (.ok r, a)) : building x w = (.ok r, { w with arena := a }) := by
  change ((x w.arena).1, ({ w with arena := (x w.arena).2 } : Workshop)) = _
  rw [hx]

theorem promote_of_ok (fwd : Handle) {f : Arena → Except GrammarError Arena} {a : Arena}
    (hf : f w.arena = .ok a) : ∃ w', promote f fwd w = (.ok (), w') ∧ w'.arena = a := by
  have hu : (ExceptT.adapt CompileError.grammar (Building.update f)) w.arena = (.ok (), a) := by
    change ((Building.update f w.arena).1.mapError CompileError.grammar,
      (Building.update f w.arena).2) = _
    simp [Building.update, ExceptT.mk, hf, Except.mapError]
  unfold promote
  rw [bind_of_ok (building_of_ok hu)]
  exact ⟨_, rfl, rfl⟩

theorem define_succeeds {p : Pending}
    (h : Stage predefined base rs done (p.fwd :: waiting) known w.arena) (hp : p.name ∈ done)
    (hd : rs.definitions[p.name]? = some p.definition) (hk : known[p.name]? = some p.fwd)
    (hneeds : ∀ n, Needs rs p.definition n → n ∈ done) :
    ∃ w', rs.define known p w = (.ok (), w') ∧ Stage predefined base rs done waiting known w'.arena := by
  obtain ⟨e, a, he, hadds, hu⟩ : ∃ e a, express rs known p.name p.definition.mode
      p.definition.body w.arena = (.ok e, a) ∧ Adds predefined base w.arena a ∧
        InUse predefined base a e :=
    express_adds (fun n hn => h.supplied n (hneeds n (.inr hn))) h.laid.size_le (fun _ _ => h.inUse)
      fun n hn => h.supplied n (hneeds n (.inl hn))
  have hm := express_unpromoted he
  have hs := h.adds hadds
  unfold RuleSet.define
  rw [bind_of_ok (building_of_ok he)]
  cases hb : p.definition.body with
  | name n =>
    obtain ⟨a', ha, hs⟩ := hs.promote hp hd hk hneeds hu hm (.inl rfl)
    obtain ⟨w', hw, rfl⟩ := promote_of_ok p.fwd (w := { w with arena := a })
      (f := (·.makeAlias p.fwd e)) ha
    exact ⟨w', hw, hs⟩
  | _ =>
    obtain ⟨a', ha, hs⟩ := hs.promote hp hd hk hneeds hu hm (.inr ⟨rfl, by simp [hb]⟩)
    obtain ⟨w', hw, rfl⟩ := promote_of_ok p.fwd (w := { w with arena := a })
      (f := (·.implement p.fwd e)) ha
    exact ⟨w', hw, hs⟩

/-- A rule that is declared, and for which all that it needs is there. -/
def Ready (rs : RuleSet) (done : List String) (known : RuleTable) (p : Pending) : Prop :=
  p.name ∈ done ∧ rs.definitions[p.name]? = some p.definition ∧ known[p.name]? = some p.fwd ∧
    ∀ n, Needs rs p.definition n → n ∈ done

theorem defineAll_succeeds : ∀ {ps : List Pending} {w : Workshop},
    Stage predefined base rs done (ps.map (·.fwd)) known w.arena → (∀ p ∈ ps, Ready rs done known p) →
      ∃ w', rs.defineAll known ps w = (.ok (), w') ∧ Stage predefined base rs done [] known w'.arena
  | [], w, h, _ => ⟨w, rfl, h⟩
  | p :: ps, w, h, hps => by
    obtain ⟨⟨hp, hd, hk, hneeds⟩, hps⟩ := List.forall_mem_cons.mp hps
    obtain ⟨w₁, hdef, h₁⟩ := define_succeeds h hp hd hk hneeds
    obtain ⟨w', hdefs, h'⟩ := defineAll_succeeds h₁ hps
    refine ⟨w', ?_, h'⟩
    unfold RuleSet.defineAll
    rw [bind_of_ok hdef, hdefs]

theorem declare_succeeds : ∀ {names done : List String} {waiting : List Handle} {known : RuleTable}
    {w : Workshop}, Stage predefined base rs done waiting known w.arena → names.Nodup →
      (∀ n ∈ names, n ∉ done) → (∀ n ∈ names, n ∈ rs.definitions) →
      ∃ known' pending w', rs.declare known names w = (.ok (known', pending), w') ∧
        Stage predefined base rs (done ++ names) (waiting ++ pending.map (·.fwd)) known' w'.arena ∧
        (∀ n ∈ done, known'[n]? = known[n]?) ∧ ∀ p ∈ pending, p.name ∈ names ∧
          rs.definitions[p.name]? = some p.definition ∧ known'[p.name]? = some p.fwd
  | [], done, waiting, known, w, h, _, _, _ => by
    refine ⟨known, [], w, rfl, ?_, fun _ _ => rfl, nofun⟩
    rwa [List.append_nil, List.map_nil, List.append_nil]
  | n :: names, done, waiting, known, w, h, hnodup, hnew, hdef => by
    obtain ⟨hn, hnodup⟩ := List.nodup_cons.mp hnodup
    obtain ⟨hnd, hnew⟩ := List.forall_mem_cons.mp hnew
    obtain ⟨hdn, hdef⟩ := List.forall_mem_cons.mp hdef
    obtain ⟨d, hd⟩ := mem_iff_entry.mp hdn
    -- A report that something is replaced does not change the arena.
    obtain ⟨w₁, hw₁, hrun⟩ : ∃ w₁, w₁.arena = w.arena ∧ rs.declare known (n :: names) w =
        (do
          let fwd ← building (liftM Building.forward)
          let x ← rs.declare (known.insert n fwd) names
          pure (x.1, ⟨n, d, fwd⟩ :: x.2) : Making _) w₁ := by
      rw [RuleSet.declare.eq_def]
      simp only [hd]
      split
      · exact ⟨{ w with log := w.log.push (.replaces n) }, rfl, bind_of_ok (a := ()) rfl⟩
      · exact ⟨w, rfl, rfl⟩
    have h₁ := h.declare hnd hdn
    rw [← hw₁] at h₁
    have hnew' (m : String) (hm : m ∈ names) : m ∉ done ++ [n] := by
      rw [List.mem_append, List.mem_singleton, not_or]
      exact ⟨hnew m hm, fun he => hn (he ▸ hm)⟩
    have hfwd : building (liftM Building.forward) w₁ =
        (.ok w₁.arena.size, { w₁ with arena := (w₁.arena.push .forward).2 }) := building_of_ok rfl
    obtain ⟨known', pending, w', hrun', h', hkept, hpending⟩ :=
      declare_succeeds (w := { w₁ with arena := (w₁.arena.push .forward).2 }) h₁ hnodup hnew' hdef
    refine ⟨known', ⟨n, d, w₁.arena.size⟩ :: pending, w', ?_, ?_, fun m hm => ?_, fun p hp => ?_⟩
    · rw [hrun, bind_of_ok hfwd, bind_of_ok hrun']
      rfl
    · simpa using h'
    · rw [hkept m (List.mem_append_left _ hm), Std.TreeMap.getElem?_insert, if_neg]
      rw [Std.compare_eq_iff_eq]
      rintro rfl
      exact hnd hm
    · rcases List.mem_cons.mp hp with rfl | hp
      · refine ⟨List.mem_cons_self, hd, ?_⟩
        rw [hkept n (by simp), Std.TreeMap.getElem?_insert_self]
      · obtain ⟨hm, hrest⟩ := hpending p hp
        exact ⟨List.mem_cons_of_mem _ hm, hrest⟩

theorem realizeComponents_of_ok {known' : RuleTable} {pending : List Pending} {c : List String}
    (cs : List (List String)) {w₁ w₂ : Workshop}
    (hdecl : rs.declare known c w = (.ok (known', pending), w₁))
    (hdef : rs.defineAll known' pending w₁ = (.ok (), w₂)) :
    ∃ w₃, w₃.arena = w₂.arena ∧
      rs.realizeComponents known (c :: cs) w = rs.realizeComponents known' cs w₃ := by
  refine ⟨{ w₂ with log := w₂.log.push (.realized c) }, rfl, ?_⟩
  rw [RuleSet.realizeComponents, bind_of_ok hdecl]
  change (rs.defineAll known' pending >>= _) w₁ = _
  rw [bind_of_ok hdef]
  exact bind_of_ok rfl

end

/-! ## All components -/

section
variable {defs : Definitions} {options : Options} {rs : RuleSet} {predefined : RuleTable}
  {base : Arena}

def RuleSet.unsupplied? (rs : RuleSet) (predefined : RuleTable) : Option String :=
  rs.components.flatten.find? fun n => !rs.definitions.contains n && !predefined.contains n

theorem unsupplied?_eq_some (h : RuleSet.ofDefinitions defs options = .ok rs) {n : String}
    (hn : rs.unsupplied? predefined = some n) : n ∈ rs.missing ∧ n ∉ predefined := by
  have hmem := List.mem_of_find?_eq_some hn
  have hp := List.find?_some hn
  simp only [Bool.and_eq_true, Bool.not_eq_true', ← Bool.not_eq_true, Std.TreeMap.contains_iff_mem]
    at hp
  exact ⟨(mem_missing h).mpr ⟨hmem, hp.1⟩, hp.2⟩

/-- Where a realization stops, all names before that one were supplied. -/
theorem Stage.unsupplied? {before after : List (List String)} {known : RuleTable} {a : Arena} {n : String}
    (hs : Stage predefined base rs before.flatten [] known a)
    (he : rs.components = before ++ [n] :: after) (hn : n ∉ rs.definitions) (hp : n ∉ predefined) :
    rs.unsupplied? predefined = some n := by
  have hbefore : before.flatten.find? (fun n => !rs.definitions.contains n && !predefined.contains n) =
      none := by
    apply List.find?_eq_none.mpr
    intro n' hn'
    by_cases hd : n' ∈ rs.definitions
    · simp [hd]
    · have hk := hs.supplied n' hn'
      rw [mem_iff_entry, hs.outer n' (.inr hd), ← mem_iff_entry] at hk
      simp [hk]
  rw [RuleSet.unsupplied?, he, List.flatten_append, List.find?_append, hbefore]
  simp [← Bool.not_eq_true, hn, hp]

/-- Either everything is done, or a name was not supplied, and nothing waits. -/
theorem realizeComponents_outcome (h : RuleSet.ofDefinitions defs options = .ok rs) :
    ∀ {after before : List (List String)} {known : RuleTable} {w : Workshop},
      rs.components = before ++ after → Stage predefined base rs before.flatten [] known w.arena →
      (∃ table w', rs.realizeComponents known after w = (.ok table, w') ∧
        Stage predefined base rs rs.components.flatten [] table w'.arena) ∨
      ∃ n w', rs.realizeComponents known after w = (.error (.unpredefined n), w') ∧
        rs.unsupplied? predefined = some n ∧ Laid predefined base [] w'.arena
  | [], before, known, w, he, hs => by
    refine .inl ⟨known, w, rfl, ?_⟩
    rwa [he, List.append_nil]
  | c :: after, before, known, w, he, hs => by
    have hflat : (before ++ [c]).flatten = before.flatten ++ c := by simp
    have hcs : rs.components = before ++ [c] ++ after := by simp [he]
    have hc : c ∈ rs.components := by simp [he]
    have hnodup := nodup_components h
    rw [he, List.flatten_append, List.flatten_cons, ← List.append_assoc] at hnodup
    obtain ⟨-, hcnodup, hdisj⟩ := List.nodup_append.mp (List.nodup_append.mp hnodup).1
    have hnew (n : String) (hn : n ∈ c) : n ∉ before.flatten := fun hn' => hdisj n hn' n hn rfl
    rcases defined_or_alone h hc with hdef | ⟨n, rfl, hn⟩
    · obtain ⟨known', pending, w₁, hdecl, hs₁, -, hpending⟩ := declare_succeeds hs hcnodup hnew hdef
      obtain ⟨w₂, hdefs, hs₂⟩ := defineAll_succeeds hs₁ fun p hp => by
        obtain ⟨hp, hd, hk⟩ := hpending p hp
        obtain ⟨hnames, hspacer⟩ := closed_components h before c after he p.name hp p.definition hd
        exact ⟨List.mem_append_right _ hp, hd, hk, fun n hn => hn.elim (hnames n) (hspacer n)⟩
      obtain ⟨w₃, hw, hrun⟩ := realizeComponents_of_ok after hdecl hdefs
      rw [← hw, ← hflat] at hs₂
      rw [hrun]
      exact realizeComponents_outcome h hcs hs₂
    · have hdecl : rs.declare known [n] w =
          (do
            unless known.contains n do throw (.unpredefined n)
            rs.declare known [] : Making _) w := by
        rw [RuleSet.declare.eq_def]
        simp only [Std.TreeMap.getElem?_eq_none hn]
      by_cases hk : n ∈ known
      · have hrun : rs.declare known [n] w = (.ok (known, []), w) := by
          rw [hdecl, if_pos (Std.TreeMap.contains_iff_mem.mpr hk)]
          rfl
        obtain ⟨w₃, hw, hrun⟩ := realizeComponents_of_ok after hrun rfl
        have hs₂ := hs.skip hn hk
        rw [← hw, ← hflat] at hs₂
        rw [hrun]
        exact realizeComponents_outcome h hcs hs₂
      · have hrun : rs.declare known [n] w = (.error (.unpredefined n), w) := by
          rw [hdecl, if_neg (mt Std.TreeMap.contains_iff_mem.mp hk)]
          rfl
        refine .inr ⟨n, w, ?_, hs.unsupplied? he hn fun hp => hk ?_, hs.laid⟩
        · rw [RuleSet.realizeComponents]
          exact bind_of_error hrun
        · rw [mem_iff_entry] at hp ⊢
          rwa [hs.outer n (.inr hn)]

structure Finished (rs : RuleSet) (predefined : RuleTable) (base : Arena) (table : RuleTable)
    (a : Arena) : Prop where
  laid : Laid predefined base [] a
  stands : ∀ (n : String) (d : Definition), rs.definitions[n]? = some d →
    ∃ k, table[n]? = some k ∧ base.size ≤ k ∧ Stands rs table a d k
  distinct : ∀ n ∈ rs.definitions, ∀ n' ∈ rs.definitions, table[n]? = table[n']? → n = n'
  outer : ∀ n, n ∉ rs.definitions → table[n]? = predefined[n]?
  supplied : ∀ n ∈ rs.missing, n ∈ predefined
  inUse : ∀ (n : String) (k : Handle), table[n]? = some k → InUse predefined base a k

theorem Stage.finished (h : RuleSet.ofDefinitions defs options = .ok rs) {table : RuleTable} {a : Arena}
    (hs : Stage predefined base rs rs.components.flatten [] table a) :
    Finished rs predefined base table a := by
  have hmem (n : String) (hn : n ∈ rs.definitions) := defined_mem_components h hn
  refine ⟨hs.laid, fun n d hd => ?_, fun n hn n' hn' => ?_, fun n hn => hs.outer n (.inr hn),
    fun n hn => ?_, fun _ _ => hs.inUse⟩
  · obtain ⟨k, hk, hle, hw⟩ := hs.own n (hmem n (mem_iff_entry.mpr ⟨d, hd⟩)) d hd
    exact ⟨k, hk, hle, (hw.resolve_left List.not_mem_nil).1⟩
  · exact hs.distinct n (hmem n hn) n' (hmem n' hn') hn hn'
  · obtain ⟨hn, hd⟩ := (mem_missing h).mp hn
    rw [mem_iff_entry, ← hs.outer n (.inr hd), ← mem_iff_entry]
    exact hs.supplied n hn

theorem realize_outcome (h : RuleSet.ofDefinitions defs options = .ok rs) {w w' : Workshop}
    {res : Except CompileError RuleTable} (hr : rs.realize predefined w = (res, w')) :
    (∃ table, res = .ok table ∧ Finished rs predefined w.arena table w'.arena) ∨
      ∃ n ∈ rs.missing, n ∉ predefined ∧ res = .error (.unpredefined n) ∧
        Laid predefined w.arena [] w'.arena := by
  rcases realizeComponents_outcome h (List.nil_append _).symm .init with
    ⟨table, w₁, hrun, hs⟩ | ⟨n, w₁, hrun, hn, hl⟩
  · obtain ⟨rfl, rfl⟩ := Prod.mk.inj (hr.symm.trans hrun)
    exact .inl ⟨table, rfl, hs.finished h⟩
  · obtain ⟨rfl, rfl⟩ := Prod.mk.inj (hr.symm.trans hrun)
    obtain ⟨hn, hp⟩ := unsupplied?_eq_some h hn
    exact .inr ⟨n, hn, hp, rfl, hl⟩

/-- The error is the first name that was not supplied. -/
theorem realize_error_iff (h : RuleSet.ofDefinitions defs options = .ok rs) (w : Workshop)
    (e : CompileError) : (rs.realize predefined w).1 = .error e ↔
      ∃ n, rs.unsupplied? predefined = some n ∧ e = .unpredefined n := by
  have hs₀ : Stage predefined w.arena rs [] [] predefined w.arena := .init
  rcases realizeComponents_outcome h (List.nil_append _).symm hs₀ with
    ⟨table, w₁, hrun, hs⟩ | ⟨n, w₁, hrun, hn, -⟩
  · rw [RuleSet.realize, hrun]
    refine iff_of_false nofun ?_
    rintro ⟨n, hn, -⟩
    obtain ⟨hn, hp⟩ := unsupplied?_eq_some h hn
    exact hp ((hs.finished h).supplied n hn)
  · rw [RuleSet.realize, hrun, hn]
    simp [eq_comm]

/-- Rules are realized when all that is missing is predefined, and otherwise one of the names that
are not is the error. -/
theorem realize_ok_iff (h : RuleSet.ofDefinitions defs options = .ok rs) (predefined : RuleTable)
    (w : Workshop) :
    ((∃ table, (rs.realize predefined w).1 = .ok table) ↔ ∀ n ∈ rs.missing, n ∈ predefined) ∧
      ∀ e, (rs.realize predefined w).1 = .error e →
        ∃ n ∈ rs.missing, n ∉ predefined ∧ e = .unpredefined n := by
  rcases hr : rs.realize predefined w with ⟨res, w'⟩
  rcases realize_outcome h hr with ⟨table, rfl, hf⟩ | ⟨n, hn, hp, rfl, -⟩
  · exact ⟨iff_of_true ⟨table, rfl⟩ hf.supplied, nofun⟩
  · refine ⟨iff_of_false nofun fun hall => hp (hall n hn), fun e he => ⟨n, hn, hp, ?_⟩⟩
    exact (Except.error.inj he).symm

theorem realize_ok_iff_numberList :
    ∃ rs, RuleSet.ofDefinitions numberList ⟨some "ws", .interleave⟩ = .ok rs ∧
      (∃ table, (rs.realize digitOnly.1 ⟨digitOnly.2, #[]⟩).1 = .ok table) ∧
      (rs.realize ∅ ⟨∅, #[]⟩).1 = .error (.unpredefined "digit") := by
  have hmissing : (RuleSet.ofDefinitions numberList ⟨some "ws", .interleave⟩).toOption.map
      (·.missing) = some ["digit"] := by
    decide +kernel
  rcases h : RuleSet.ofDefinitions numberList ⟨some "ws", .interleave⟩ with e | rs
  · rw [h] at hmissing
    cases hmissing
  · rw [h] at hmissing
    have hmissing : rs.missing = ["digit"] := Option.some.inj hmissing
    refine ⟨rs, rfl, (realize_ok_iff h digitOnly.1 ⟨digitOnly.2, #[]⟩).1.mpr ?_, ?_⟩
    · rw [hmissing]
      decide +kernel
    · obtain ⟨hiff, herror⟩ := realize_ok_iff h ∅ ⟨∅, #[]⟩
      cases hr : (rs.realize ∅ ⟨∅, #[]⟩).1 with
      | ok table =>
        have := hiff.mp ⟨table, hr⟩ "digit" (by simp [hmissing])
        exact absurd this Std.TreeMap.not_mem_emptyc
      | error e =>
        obtain ⟨n, hn, -, rfl⟩ := herror e hr
        rw [hmissing] at hn
        rw [List.mem_singleton.mp hn]

/-! ## What is left behind -/

section
variable {a : Arena} (hl : Laid predefined base [] a) (hc : Clean predefined base)
include hl hc

theorem Laid.ne_forward {h : Handle} (hh : InUse predefined base a h) {node : Node}
    (hn : a.node? h = some node) : node ≠ .forward := by
  obtain ⟨slot, hs, rfl⟩ := Arena.node?_eq_some_iff.mp hn
  by_cases hle : base.size ≤ h
  · exact (hl.filled h slot hle hs List.not_mem_nil).1
  · rw [hl.kept h (Nat.lt_of_not_le hle)] at hs
    exact (hc h _ (hh.resolve_left fun hh => hle hh.1) (Arena.node?_of_slot hs)).1

theorem Laid.closed (rules : RuleTable) : a.Closed rules (InUse predefined base a) := by
  intro i j hi hr
  rcases hr with ⟨node, hn, hj⟩ | ⟨name, hn, -⟩
  · exact (hl.proper hc hi hn (hl.ne_forward hc hi hn)).2 j hj
  · exact absurd rfl ((hl.proper hc hi hn nofun).1 name)

theorem Laid.parse_ne_fault {σ : Type u} (hb : base.InBounds)
    (hin : ∀ (n : String) (k : Handle), predefined[n]? = some k → k < base.size) {g : Grammar σ}
    (hg : g.arena = a) {h : Handle} (hh : InUse predefined base a h) (text : String) (s : σ)
    (e : Fault) : (g.parse h text s).1 ≠ .fault e := by
  intro hf
  obtain ⟨tree⟩ := exists_evaluation (g := g) (r := .fault e) (congrArg Outcome.result? hf)
  rw [hg] at tree
  have hamong := (tree.among (hl.closed hc g.rules) hh).2 e rfl
  cases e with
  | unresolvedForward j =>
    obtain ⟨hj, hn⟩ := hamong
    have hlt : j < a.size := by
      rcases hj with ⟨-, hlt⟩ | hj
      · exact hlt
      · exact (hj.lt_size hb hin).trans_le hl.size_le
    have hnode : a.node? j = some a.slots[j].node := by
      rw [Arena.node?, Array.getElem?_eq_getElem hlt]
      rfl
    exact hl.ne_forward hc hj hnode (hn _ hnode)
  | noSuchRule name =>
    obtain ⟨k, hk, hn⟩ := hamong
    exact (hl.proper hc hk hn (by simp)).1 name rfl

end

/-- However a realization ends, all that was there before is as it was, and nothing that was added is
a forward declaration. If it succeeds, each defined name has an expression of its own, and the other
ones have what was predefined. Then no parse meets a mistake in the grammar, unless what is predefined
leads to one. -/
theorem realize_resolved {σ : Type u} (h : RuleSet.ofDefinitions defs options = .ok rs)
    {w w' : Workshop} (hin : ∀ (n : String) (k : Handle), predefined[n]? = some k → k < w.arena.size)
    {res : Except CompileError RuleTable} (hr : rs.realize predefined w = (res, w')) :
    (∀ i < w.arena.size, w'.arena.slots[i]? = w.arena.slots[i]?) ∧
      (∀ i, w.arena.size ≤ i → w'.arena.node? i ≠ some .forward) ∧
      ∀ table, res = .ok table →
        (∀ n, n ∈ table ↔ n ∈ predefined ∨ n ∈ defs) ∧
        (∀ n ∈ defs, ∃ k node, table[n]? = some k ∧ w.arena.size ≤ k ∧
          w'.arena.slots[k]? = some ⟨node, true⟩ ∧ ∀ n', table[n']? = some k → n' = n) ∧
        (∀ n ∉ defs, table[n]? = predefined[n]?) ∧
        (w.arena.InBounds → Clean predefined w.arena → ∀ n ∈ defs, ∀ k, table[n]? = some k →
          ∀ g : Grammar σ, g.arena = w'.arena → ∀ text s e, (g.parse k text s).1 ≠ .fault e) := by
  have hl : Laid predefined w.arena [] w'.arena := by
    rcases realize_outcome h hr with ⟨table, -, hf⟩ | ⟨n, -, -, -, hl⟩
    · exact hf.laid
    · exact hl
  refine ⟨hl.kept, fun i hi hn => ?_, fun table ht => ?_⟩
  · obtain ⟨slot, hs, hf⟩ := Arena.node?_eq_some_iff.mp hn
    exact (hl.filled i slot hi hs List.not_mem_nil).1 hf
  · subst ht
    rcases realize_outcome h hr with ⟨_, ht, hf⟩ | ⟨n, -, -, ht, -⟩
    · obtain rfl := Except.ok.inj ht
      obtain rfl := ofDefinitions_eq h
      refine ⟨fun n => ?_, fun n hn => ?_, hf.outer, fun hb hc n _ k hk g hg text s e => ?_⟩
      · by_cases hn : n ∈ defs
        · obtain ⟨d, hd⟩ := mem_iff_entry.mp hn
          obtain ⟨k, hk, -⟩ := hf.stands n d hd
          exact iff_of_true (mem_iff_entry.mpr ⟨k, hk⟩) (.inr hn)
        · rw [or_iff_left hn, mem_iff_entry, hf.outer n hn, ← mem_iff_entry]
      · obtain ⟨d, hd⟩ := mem_iff_entry.mp hn
        obtain ⟨k, hk, hle, hs⟩ := hf.stands n d hd
        obtain ⟨node, hnode⟩ := hs.slot
        refine ⟨k, node, hk, hle, hnode, fun n' hk' => ?_⟩
        by_cases hn' : n' ∈ defs
        · exact hf.distinct n' hn' n hn (hk'.trans hk.symm)
        · exact absurd (hin n' k ((hf.outer n' hn').symm.trans hk')) (Nat.not_lt.mpr hle)
      · exact hf.laid.parse_ne_fault hc hb hin hg (hf.inUse n k hk) text s e
    · cases ht

theorem lt_size_digitOnly (n : String) (k : Handle) (hk : digitOnly.1[n]? = some k) :
    k < digitOnly.2.size := by
  have hk : (Std.TreeMap.empty.insert "digit" 0 : RuleTable)[n]? = some k := hk
  rw [Std.TreeMap.getElem?_insert] at hk
  split at hk
  · obtain rfl := Option.some.inj hk
    exact Nat.zero_lt_one
  · rw [show (Std.TreeMap.empty : RuleTable)[n]? = none from Std.TreeMap.getElem?_emptyc] at hk
    cases hk

theorem node?_digitOnly {i : Handle} {node : Node} (hn : digitOnly.2.node? i = some node) :
    node = .oneOf "0123456789" := by
  have hi : i < 1 := Arena.lt_size_of_node? hn
  obtain rfl := Nat.lt_one_iff.mp hi
  exact (Option.some.inj hn).symm

theorem inBounds_digitOnly : digitOnly.2.InBounds := by
  rintro i j ⟨node, hn, hj⟩
  rw [node?_digitOnly hn] at hj
  cases hj

theorem realize_resolved_numberList :
    ∃ rs table w' k, RuleSet.ofDefinitions numberList ⟨some "ws", .interleave⟩ = .ok rs ∧
      rs.realize digitOnly.1 ⟨digitOnly.2, #[]⟩ = (.ok table, w') ∧
      (∀ (n : String) (k : Handle), digitOnly.1[n]? = some k → k < digitOnly.2.size) ∧
      digitOnly.2.InBounds ∧ Clean digitOnly.1 digitOnly.2 ∧ table["list"]? = some k ∧
      (∀ i, 1 ≤ i → w'.arena.node? i ≠ some .forward) ∧
      ∀ text e, ((silent w'.arena table).parse k text ()).1 ≠ .fault e := by
  have hclean : Clean digitOnly.1 digitOnly.2 := by
    intro j node _ hn
    rw [node?_digitOnly hn]
    exact ⟨nofun, nofun⟩
  have hok : ((RuleSet.ofDefinitions numberList ⟨some "ws", .interleave⟩).toOption.bind fun rs =>
      (rs.realize digitOnly.1 ⟨digitOnly.2, #[]⟩).1.toOption.map (·.size)) = some 4 := by
    decide +kernel
  rcases h : RuleSet.ofDefinitions numberList ⟨some "ws", .interleave⟩ with e | rs
  · rw [h] at hok
    cases hok
  · rw [h] at hok
    rcases hr : rs.realize digitOnly.1 ⟨digitOnly.2, #[]⟩ with ⟨e | table, w'⟩
    · rw [Except.toOption, Option.bind_some, hr] at hok
      cases hok
    · obtain ⟨-, hforward, hall⟩ := realize_resolved (σ := Unit) h lt_size_digitOnly hr
      obtain ⟨-, hown, -, hfault⟩ := hall table rfl
      have hlist : "list" ∈ numberList := by decide +kernel
      obtain ⟨k, -, hk, -⟩ := hown "list" hlist
      exact ⟨rs, table, w', k, rfl, hr, lt_size_digitOnly, inBounds_digitOnly, hclean, hk, hforward,
        fun text e => hfault inBounds_digitOnly hclean "list" hlist k hk _ rfl text () e⟩

end

end Peg.Bnf
