import Peg.Bnf.Compile
import Peg.Proofs.Graph.Components
import Peg.Proofs.Meaning.Expressed

/-!
# Realized rules

When all components are realized, every rule has an expression that was made for it. A component is
realized after all that its rules need, so that the names in a body are looked up in a table that
has their final entries, and what a node is copied from is either part of that component or done.
-/

namespace Peg

namespace Bnf

/-! ## Steps of the workshop -/

section
variable {α : Type} {w w' : Workshop}

theorem building_eq {x : ExceptT CompileError Building α} {r : α}
    (hb : building x w = (.ok r, w')) : x w.arena = (.ok r, w'.arena) := by
  rcases hx : x w.arena with ⟨r', a⟩
  have he : building x w = (r', { w with arena := a }) := by
    change ((x w.arena).1, ({ w with arena := (x w.arena).2 } : Workshop)) = _
    rw [hx]
  rw [he] at hb
  obtain ⟨rfl, rfl⟩ := Prod.mk.inj hb
  rfl

theorem report_eq {m : Message} {r : Unit} (hb : report m w = (.ok r, w')) :
    w'.arena = w.arena := by
  cases hb
  rfl

theorem promote_ok {f : Arena → Except GrammarError Arena} {fwd : Handle} {r : Unit}
    (hb : promote f fwd w = (.ok r, w')) : f w.arena = .ok w'.arena := by
  obtain ⟨_, w₁, hb, hr⟩ := bind_eq_ok.mp hb
  obtain ⟨w₂, w₃, hget, hr⟩ := bind_eq_ok.mp hr
  obtain ⟨-, rfl⟩ := Prod.mk.inj hget
  have hu := building_eq hb
  change ((Building.update f w.arena).1.mapError CompileError.grammar,
    (Building.update f w.arena).2) = _ at hu
  rw [report_eq hr]
  unfold Building.update at hu
  cases hf : f w.arena with
  | error e => simp [ExceptT.mk, hf, Except.mapError] at hu
  | ok a =>
    simp only [ExceptT.mk, hf, Except.mapError, Prod.mk.injEq] at hu
    rw [hu.2]

end

section
variable {rs : RuleSet} {table : RuleTable} {a a' : Arena} {ns : List String}

/-! ## Rules under way -/

/-- The rules of `ns` are declared, and have their final handles. One that is not a forward
declaration any more was made for its rule. -/
structure Underway (rs : RuleSet) (table : RuleTable) (ns : List String) (a : Arena) : Prop where
  begun : ∀ n ∈ ns, ∀ d, rs.definitions[n]? = some d → ∃ h node, table[n]? = some h ∧
    a.node? h = some node ∧ (node = .forward ∨ Made rs table a d h)
  distinct : ∀ n ∈ ns, ∀ n' ∈ ns, ∀ d d' h, rs.definitions[n]? = some d →
    rs.definitions[n']? = some d' → table[n]? = some h → table[n']? = some h → n = n'

def Settled (rs : RuleSet) (table : RuleTable) (ns : List String) (a : Arena) : Prop :=
  ∀ n ∈ ns, ∀ d, rs.definitions[n]? = some d → ∃ h node, table[n]? = some h ∧
    a.node? h = some node ∧ node ≠ .forward

theorem Settled.grow (hg : a.Grows a') (h : Settled rs table ns a) : Settled rs table ns a' := by
  intro n hn d hd
  obtain ⟨k, node, ht, hk, hf⟩ := h n hn d hd
  exact ⟨k, node, ht, hg k node hk hf, hf⟩

theorem Underway.extend (he : a.Extends a') (h : Underway rs table ns a) :
    Underway rs table ns a' where
  begun n hn d hd := by
    obtain ⟨k, node, ht, hk, hc⟩ := h.begun n hn d hd
    exact ⟨k, node, ht, he k node hk, hc.imp_right fun hc => hc.grow he.grows⟩
  distinct := h.distinct

theorem Underway.made (h : Underway rs table ns a) {d : Definition} {fwd e : Handle}
    (hns : ∀ n ∈ d.body.names, n ∈ ns) (hm : Means rs table a d.mode d.body e)
    (hp : a.implement fwd e = .ok a') : Made rs table a' d fwd := by
  have hg := Arena.promote_grows hp
  have hn : a'.node? fwd = some (a.contentOf e) := by rw [(Arena.promote_eq hp).2, if_pos rfl]
  unfold Arena.contentOf at hn
  split at hn
  · exact .refer (hm.grow hg) hn
  · exact .refer (hm.grow hg) hn
  · rename_i node hf he
    refine .copy (hm.grow hg) (hg e node he hf) hn hf fun n hn d' hd' ht => ?_
    obtain ⟨k, node', ht', hk, hmade⟩ := h.begun n (hns n hn) d' hd'
    obtain rfl := Option.some.inj (ht.symm.trans ht')
    obtain rfl := Option.some.inj (he.symm.trans hk)
    exact (hmade.resolve_left hf).grow hg

theorem Underway.promote (h : Underway rs table ns a) {n : String} {d : Definition} {fwd : Handle}
    {node : Node} (hn : n ∈ ns) (hd : rs.definitions[n]? = some d) (ht : table[n]? = some fwd)
    (hp : a.promote fwd node = .ok a') (hm : Made rs table a' d fwd) :
    Underway rs table ns a' where
  begun n' hn' d' hd' := by
    have hg := Arena.promote_grows hp
    obtain ⟨-, hnode⟩ := Arena.promote_eq hp
    obtain ⟨k, node', ht', hk, hm'⟩ := h.begun n' hn' d' hd'
    by_cases hkf : k = fwd
    · subst hkf
      obtain rfl := h.distinct n hn n' hn' d d' k hd hd' ht ht'
      obtain rfl := Option.some.inj (hd.symm.trans hd')
      exact ⟨k, node, ht, by rw [hnode, if_pos rfl], .inr hm⟩
    · exact ⟨k, node', ht', by rw [hnode, if_neg hkf, hk], hm'.imp_right fun hm => hm.grow hg⟩
  distinct := h.distinct

/-! ## Declaring a component -/

structure Declared (rs : RuleSet) (known known' : RuleTable) (ns : List String)
    (pending : List Pending) (a a' : Arena) : Prop where
  extend : a.Extends a'
  kept : ∀ n, n ∉ ns ∨ rs.definitions[n]? = none → known'[n]? = known[n]?
  all : ∀ n ∈ ns, ∀ d, rs.definitions[n]? = some d → ∃ fwd, ⟨n, d, fwd⟩ ∈ pending
  each : ∀ p ∈ pending, p.name ∈ ns ∧ rs.definitions[p.name]? = some p.definition ∧
    known'[p.name]? = some p.fwd ∧ a'.node? p.fwd = some .forward ∧ a.size ≤ p.fwd
  distinct : ∀ p ∈ pending, ∀ q ∈ pending, p.fwd = q.fwd → p.name = q.name

theorem Declared.nil {known : RuleTable} : Declared rs known known [] [] a a where
  extend := .refl a
  kept _ _ := rfl
  all := nofun
  each := nofun
  distinct := nofun

theorem Declared.cons_undefined {known known' : RuleTable} {pending : List Pending} {n : String}
    (h : Declared rs known known' ns pending a a') (hd : rs.definitions[n]? = none) :
    Declared rs known known' (n :: ns) pending a a' where
  extend := h.extend
  kept n' hn' := h.kept n' (hn'.imp_left (mt (List.mem_cons_of_mem _)))
  all n' hn' d hd' := by
    rcases List.mem_cons.mp hn' with rfl | hn'
    · cases hd.symm.trans hd'
    · exact h.all n' hn' d hd'
  each p hp := by
    obtain ⟨hn', hrest⟩ := h.each p hp
    exact ⟨List.mem_cons_of_mem _ hn', hrest⟩
  distinct := h.distinct

theorem Declared.cons_defined {known known' : RuleTable} {pending : List Pending} {n : String}
    {d : Definition}
    (h : Declared rs (known.insert n a.size) known' ns pending (a.push .forward).2 a')
    (hd : rs.definitions[n]? = some d) (hn : n ∉ ns) :
    Declared rs known known' (n :: ns) (⟨n, d, a.size⟩ :: pending) a a' := by
  -- All that is declared afterwards is allocated behind the declaration of `n`.
  obtain ⟨he, hf, -⟩ := Building.alloc_eq (show Building.alloc .forward a = (a.size, _) from rfl)
  have hlt (p : Pending) (hp : p ∈ pending) : a.size < p.fwd := by
    obtain ⟨-, -, -, -, hle⟩ := h.each p hp
    simpa [Arena.size, Arena.push, Nat.succ_le_iff] using hle
  refine ⟨he.trans h.extend, fun n' hn' => ?_, fun n' hn' d' hd' => ?_, fun p hp => ?_,
    fun p hp q hq hpq => ?_⟩
  · have hne : n ≠ n' := by
      rintro rfl
      rcases hn' with hn' | hn'
      · exact hn' List.mem_cons_self
      · cases hd.symm.trans hn'
    rw [h.kept n' (hn'.imp_left (mt (List.mem_cons_of_mem _))),
      Std.TreeMap.getElem?_insert, if_neg (mt Std.LawfulEqCmp.eq_of_compare hne)]
  · rcases List.mem_cons.mp hn' with rfl | hn'
    · obtain rfl := Option.some.inj (hd.symm.trans hd')
      exact ⟨a.size, List.mem_cons_self⟩
    · obtain ⟨fwd, hp⟩ := h.all n' hn' d' hd'
      exact ⟨fwd, List.mem_cons_of_mem _ hp⟩
  · rcases List.mem_cons.mp hp with rfl | hp
    · refine ⟨List.mem_cons_self, hd, ?_, h.extend _ _ hf, Nat.le_refl _⟩
      rw [h.kept n (.inl hn), Std.TreeMap.getElem?_insert_self]
    · obtain ⟨hn', hd', hk, hnode, -⟩ := h.each p hp
      exact ⟨List.mem_cons_of_mem _ hn', hd', hk, hnode, Nat.le_of_lt (hlt p hp)⟩
  · rcases List.mem_cons.mp hp with rfl | hp <;> rcases List.mem_cons.mp hq with rfl | hq
    · rfl
    · exact absurd hpq (Nat.ne_of_lt (hlt q hq))
    · exact absurd hpq.symm (Nat.ne_of_lt (hlt p hp))
    · exact h.distinct p hp q hq hpq

theorem declare_spec : ∀ {names : List String} {known known' : RuleTable} {pending : List Pending}
    {w w' : Workshop}, names.Nodup → rs.declare known names w = (.ok (known', pending), w') →
      Declared rs known known' names pending w.arena w'.arena
  | [], known, known', pending, w, w', _, hb => by
    obtain ⟨h, rfl⟩ := pure_eq_ok.mp hb
    obtain ⟨rfl, rfl⟩ := Prod.mk.inj h
    exact .nil
  | n :: names, known, known', pending, w, w', hnd, hb => by
    obtain ⟨hn, hnd⟩ := List.nodup_cons.mp hnd
    rw [RuleSet.declare.eq_def] at hb
    cases hd : rs.definitions[n]? with
    | none =>
      simp only [hd] at hb
      split at hb
      · exact (declare_spec hnd hb).cons_undefined hd
      · obtain ⟨_, _, ht, -⟩ := bind_eq_ok.mp hb
        cases ht
    | some d =>
      simp only [hd] at hb
      obtain ⟨w₁, hw, hb⟩ : ∃ w₁, w₁.arena = w.arena ∧ (do
          let fwd ← building (liftM Building.forward)
          let x ← rs.declare (known.insert n fwd) names
          pure (x.1, ⟨n, d, fwd⟩ :: x.2) : Making _) w₁ = (.ok (known', pending), w') := by
        split at hb
        · obtain ⟨_, w₁, hr, hb⟩ := bind_eq_ok.mp hb
          exact ⟨w₁, report_eq hr, hb⟩
        · exact ⟨w, rfl, hb⟩
      obtain ⟨fwd, w₂, hf, hb⟩ := bind_eq_ok.mp hb
      obtain ⟨x, w₃, hx, hb⟩ := bind_eq_ok.mp hb
      obtain ⟨he, rfl⟩ := pure_eq_ok.mp hb
      obtain ⟨rfl, rfl⟩ := Prod.mk.inj he
      have hf : w₁.arena.push .forward = (fwd, w₂.arena) := lift_eq_ok.mp (building_eq hf)
      rw [hw] at hf
      obtain rfl : w.arena.size = fwd := congrArg Prod.fst hf
      refine Declared.cons_defined ?_ hd hn
      rw [congrArg Prod.snd hf]
      exact declare_spec hnd hx

/-- The declared rules are under way besides those that were before. -/
theorem Declared.underway {known known' : RuleTable} {pending : List Pending} {c : List String}
    (h : Declared rs known known' c pending a a') (hu : Underway rs table ns a)
    (ht : ∀ n ∈ c, table[n]? = known'[n]?) : Underway rs table (ns ++ c) a' := by
  have hu' := hu.extend h.extend
  have hold (n : String) (hn : n ∈ ns) (d : Definition) (hd : rs.definitions[n]? = some d)
      (k : Handle) (hk : table[n]? = some k) : k < a.size := by
    obtain ⟨k', node, hk', hnode, -⟩ := hu.begun n hn d hd
    obtain rfl := Option.some.inj (hk'.symm.trans hk)
    exact Arena.lt_size_of_node? hnode
  have hnew (n : String) (hn : n ∈ c) (d : Definition) (hd : rs.definitions[n]? = some d) :
      ∃ p ∈ pending, p.name = n ∧ table[n]? = some p.fwd := by
    obtain ⟨fwd, hp⟩ := h.all n hn d hd
    obtain ⟨-, -, hk, -⟩ := h.each _ hp
    exact ⟨_, hp, rfl, (ht n hn).trans hk⟩
  have hapart (n : String) (hn : n ∈ ns) (n' : String) (hn' : n' ∈ c) (d d' : Definition)
      (k : Handle) (hd : rs.definitions[n]? = some d) (hd' : rs.definitions[n']? = some d')
      (hk : table[n]? = some k) (hk' : table[n']? = some k) : False := by
    obtain ⟨p, hp, -, htp⟩ := hnew n' hn' d' hd'
    obtain rfl := Option.some.inj (hk'.symm.trans htp)
    exact Nat.not_lt.mpr (h.each p hp).2.2.2.2 (hold n hn d hd _ hk)
  refine ⟨fun n hn d hd => ?_, fun n hn n' hn' d d' k hd hd' hk hk' => ?_⟩
  · rcases List.mem_append.mp hn with hn | hn
    · exact hu'.begun n hn d hd
    · obtain ⟨p, hp, rfl, htp⟩ := hnew n hn d hd
      exact ⟨p.fwd, .forward, htp, (h.each p hp).2.2.2.1, .inl rfl⟩
  · rcases List.mem_append.mp hn with hn | hn <;> rcases List.mem_append.mp hn' with hn' | hn'
    · exact hu.distinct n hn n' hn' d d' k hd hd' hk hk'
    · exact (hapart n hn n' hn' d d' k hd hd' hk hk').elim
    · exact (hapart n' hn' n hn d' d k hd' hd hk' hk).elim
    · obtain ⟨p, hp, rfl, htp⟩ := hnew n hn d hd
      obtain ⟨q, hq, rfl, htq⟩ := hnew n' hn' d' hd'
      refine h.distinct p hp q hq (Option.some.inj ?_)
      rw [← htp, ← htq, hk, hk']

/-! ## Defining a component -/

def Known (rs : RuleSet) (table known : RuleTable) (ns : List String) (d : Definition) : Prop :=
  (∀ n ∈ d.body.names, n ∈ ns ∧ known[n]? = table[n]?) ∧
    ∀ n, rs.options.spacer? d.mode = some n → known[n]? = table[n]?

theorem define_spec {known : RuleTable} {p : Pending} {r : Unit} {w w' : Workshop}
    (hb : rs.define known p w = (.ok r, w')) (hu : Underway rs table ns w.arena)
    (hn : p.name ∈ ns) (hd : rs.definitions[p.name]? = some p.definition)
    (ht : table[p.name]? = some p.fwd) (hk : Known rs table known ns p.definition) :
    Underway rs table ns w'.arena ∧ w.arena.Grows w'.arena ∧
      ∃ node, w'.arena.node? p.fwd = some node ∧ node ≠ .forward := by
  obtain ⟨e, w₁, he, hb⟩ := bind_eq_ok.mp hb
  obtain ⟨hext, hm⟩ := express_spec hk.2 (building_eq he) fun n hn => (hk.1 n hn).2
  have hu₁ := hu.extend hext
  obtain ⟨node, hp, hf, hmade⟩ : ∃ node, w₁.arena.promote p.fwd node = .ok w'.arena ∧
      node ≠ .forward ∧ Made rs table w'.arena p.definition p.fwd := by
    cases hbody : p.definition.body with
    | name n =>
      rw [hbody] at hb
      have hp := promote_ok hb
      refine ⟨_, hp, nofun, .refer (hm.grow (Arena.promote_grows hp)) ?_⟩
      rw [(Arena.promote_eq hp).2, if_pos rfl]
    | _ =>
      rw [hbody] at hb
      have hp := promote_ok hb
      exact ⟨_, hp, Arena.contentOf_ne_forward _ _, hu₁.made (fun n hn => (hk.1 n hn).1) hm hp⟩
  refine ⟨hu₁.promote hn hd ht hp hmade, hext.grows.trans (Arena.promote_grows hp), node, ?_, hf⟩
  rw [(Arena.promote_eq hp).2, if_pos rfl]

theorem defineAll_spec {known : RuleTable} : ∀ {ps : List Pending} {r : Unit} {w w' : Workshop},
    rs.defineAll known ps w = (.ok r, w') → Underway rs table ns w.arena →
      (∀ p ∈ ps, p.name ∈ ns ∧ rs.definitions[p.name]? = some p.definition ∧
        table[p.name]? = some p.fwd ∧ Known rs table known ns p.definition) →
      Underway rs table ns w'.arena ∧ w.arena.Grows w'.arena ∧
        ∀ p ∈ ps, ∃ node, w'.arena.node? p.fwd = some node ∧ node ≠ .forward
  | [], r, w, w', hb, hu, _ => by
    obtain ⟨-, rfl⟩ := pure_eq_ok.mp hb
    exact ⟨hu, .refl _, nofun⟩
  | p :: ps, r, w, w', hb, hu, hps => by
    obtain ⟨_, w₁, hb, hbs⟩ := bind_eq_ok.mp hb
    obtain ⟨hn, hd, ht, hk⟩ := hps p List.mem_cons_self
    obtain ⟨hu₁, hg, node, hnode, hf⟩ := define_spec hb hu hn hd ht hk
    obtain ⟨hu', hg', hall⟩ := defineAll_spec hbs hu₁ fun q hq => hps q (List.mem_cons_of_mem p hq)
    refine ⟨hu', hg.trans hg', fun q hq => ?_⟩
    rcases List.mem_cons.mp hq with rfl | hq
    · exact ⟨node, hg' _ _ hnode hf, hf⟩
    · exact hall q hq

/-! ## All components -/

theorem realizeComponents_cons {known : RuleTable} {c : List String} {cs : List (List String)}
    {w w' : Workshop} (hb : rs.realizeComponents known (c :: cs) w = (.ok table, w')) :
    ∃ known' pending w₁ w₂ w₃, rs.declare known c w = (.ok (known', pending), w₁) ∧
      rs.defineAll known' pending w₁ = (.ok (), w₂) ∧ w₃.arena = w₂.arena ∧
        rs.realizeComponents known' cs w₃ = (.ok table, w') := by
  obtain ⟨⟨known', pending⟩, w₁, hdecl, hb⟩ := bind_eq_ok.mp hb
  obtain ⟨_, w₂, hdef, hb⟩ := bind_eq_ok.mp hb
  obtain ⟨_, w₃, hrep, hb⟩ := bind_eq_ok.mp hb
  exact ⟨known', pending, w₁, w₂, w₃, hdecl, hdef, report_eq hrep, hb⟩

/-- The names that are not defined in the components keep what they stood for. -/
theorem realizeComponents_kept : ∀ {cs : List (List String)} {known : RuleTable} {w w' : Workshop},
    cs.flatten.Nodup → rs.realizeComponents known cs w = (.ok table, w') →
      ∀ n, n ∉ cs.flatten ∨ rs.definitions[n]? = none → table[n]? = known[n]?
  | [], known, w, w', _, hb, n, _ => by
    obtain ⟨rfl, -⟩ := pure_eq_ok.mp hb
    rfl
  | c :: cs, known, w, w', hnd, hb, n, hn => by
    obtain ⟨known', pending, w₁, w₂, w₃, hdecl, -, -, hb⟩ := realizeComponents_cons hb
    obtain ⟨hc, hcs, -⟩ := List.nodup_append.mp hnd
    rw [realizeComponents_kept hcs hb n (hn.imp_left (mt (List.mem_append_right c))),
      (declare_spec hc hdecl).kept n (hn.imp_left (mt (List.mem_append_left _)))]

/-- Every rule of a component is made of names in it, or in one before it. -/
def Closed (rs : RuleSet) (cs : List (List String)) : Prop :=
  ∀ before c after, cs = before ++ c :: after → ∀ n ∈ c, ∀ d, rs.definitions[n]? = some d →
    (∀ n' ∈ d.body.names, n' ∈ before.flatten ++ c) ∧
      ∀ n', rs.options.spacer? d.mode = some n' → n' ∈ before.flatten ++ c

theorem realizeComponents_spec {cs : List (List String)} (hcs : Closed rs cs)
    (hnd : cs.flatten.Nodup) : ∀ {after before : List (List String)} {known : RuleTable}
    {w w' : Workshop}, cs = before ++ after →
      rs.realizeComponents known after w = (.ok table, w') →
      Underway rs table before.flatten w.arena → Settled rs table before.flatten w.arena →
      Underway rs table cs.flatten w'.arena ∧ Settled rs table cs.flatten w'.arena
  | [], before, known, w, w', he, hb, hu, hs => by
    obtain ⟨-, rfl⟩ := pure_eq_ok.mp hb
    rw [he, List.append_nil]
    exact ⟨hu, hs⟩
  | c :: after, before, known, w, w', he, hb, hu, hs => by
    obtain ⟨known', pending, w₁, w₂, w₃, hdecl, hdef, hw, hb⟩ := realizeComponents_cons hb
    have hflat : (before ++ [c]).flatten = before.flatten ++ c := by simp
    -- What comes later has no name in common with `before` and `c`, so that nothing is replaced.
    have hnd' : (before.flatten ++ c ++ after.flatten).Nodup := by
      rw [he] at hnd
      simpa using hnd
    obtain ⟨hbc, hafter, hdisj⟩ := List.nodup_append.mp hnd'
    have hknown (n : String) (hn : n ∈ before.flatten ++ c) : known'[n]? = table[n]? :=
      (realizeComponents_kept hafter hb n (.inl fun hn' => hdisj n hn n hn' rfl)).symm
    have hdecl := declare_spec (List.nodup_append.mp hbc).2.1 hdecl
    have hu₁ := hdecl.underway hu fun n hn => (hknown n (List.mem_append_right _ hn)).symm
    obtain ⟨hu₂, hg, hdone⟩ := defineAll_spec hdef hu₁ fun p hp => by
      obtain ⟨hn, hd, hk, -⟩ := hdecl.each p hp
      obtain ⟨hnames, hspacing⟩ := hcs before c after he p.name hn p.definition hd
      have hn' := List.mem_append_right before.flatten hn
      exact ⟨hn', hd, (hknown _ hn').symm.trans hk,
        fun n hn => ⟨hnames n hn, hknown n (hnames n hn)⟩, fun n hn => hknown n (hspacing n hn)⟩
    have hs₂ : Settled rs table (before.flatten ++ c) w₂.arena := by
      intro n hn d hd
      rcases List.mem_append.mp hn with hn' | hn'
      · exact hs.grow (hdecl.extend.grows.trans hg) n hn' d hd
      · obtain ⟨fwd, hp⟩ := hdecl.all n hn' d hd
        obtain ⟨node, hnode, hf⟩ := hdone _ hp
        exact ⟨fwd, node, (hknown n hn).symm.trans (hdecl.each _ hp).2.2.1, hnode, hf⟩
    rw [← hflat, ← hw] at hu₂ hs₂
    exact realizeComponents_spec hcs hnd (by simp [he]) hb hu₂ hs₂

end

/-! ## A set of rules -/

/-- Every rule has an expression that was made for it, and all other names are as they were. -/
structure Realized (rs : RuleSet) (predefined table : RuleTable) (a : Arena) : Prop where
  defined : ∀ (n : String) (d : Definition), rs.definitions[n]? = some d → ∃ h,
    table[n]? = some h ∧ Made rs table a d h
  outer : ∀ n : String, rs.definitions[n]? = none → table[n]? = predefined[n]?

section
variable {defs : Definitions} {options : Options} {rs : RuleSet}

theorem ofDefinitions_eq (h : RuleSet.ofDefinitions defs options = .ok rs) :
    rs = ⟨defs, options, dependencies defs options.whiteSpace,
      (dependencies defs options.whiteSpace).components defs.keys⟩ := by
  unfold RuleSet.ofDefinitions at h
  cases hc : checkWhiteSpace defs options.whiteSpace with
  | error e =>
    rw [hc] at h
    cases h
  | ok _ =>
    rw [hc] at h
    exact (Except.ok.inj h).symm

theorem mem_successors {n n' : String} {d : Definition} {ws : Option String}
    (hd : defs[n]? = some d) :
    n' ∈ (dependencies defs ws).successors n ↔ n' ∈ d.dependencies ws := by
  rw [Graph.successors, dependencies, Std.TreeMap.getD_eq_getD_getElem?,
    Std.TreeMap.getElem?_map, hd]
  rfl

theorem spacer?_eq_some {m : Mode} {n : String} (h : rs.options.spacer? m = some n) :
    m = .loose ∧ rs.options.whiteSpace = some n := by
  unfold Options.spacer? at h
  split at h
  · exact ⟨rfl, h⟩
  · cases h

theorem closed_components (h : RuleSet.ofDefinitions defs options = .ok rs) :
    Closed rs rs.components := by
  obtain rfl := ofDefinitions_eq h
  intro before c after hcs n hn d hd
  have hmem (n' : String) (hn' : n' ∈ d.dependencies options.whiteSpace) :
      n' ∈ before.flatten ++ c :=
    List.mem_append.mpr
      (Graph.successors_mem_components _ _ hcs hn ((mem_successors hd).mpr hn')).symm
  refine ⟨fun n' hn' => hmem n' (mem_sortNames.mpr ?_),
    fun n' hn' => hmem n' (mem_sortNames.mpr ?_)⟩
  · cases d.mode with
    | strict => exact hn'
    | loose => exact List.mem_append_left _ hn'
  · obtain ⟨hm, hws⟩ := spacer?_eq_some hn'
    rw [hm]
    exact List.mem_append_right _ (Option.mem_toList.mpr hws)

theorem nodup_components (h : RuleSet.ofDefinitions defs options = .ok rs) :
    rs.components.flatten.Nodup := by
  rw [ofDefinitions_eq h]
  exact Graph.nodup_components _ _

theorem defined_mem_components (h : RuleSet.ofDefinitions defs options = .ok rs) {n : String}
    (hn : n ∈ rs.definitions) : n ∈ rs.components.flatten := by
  rw [ofDefinitions_eq h] at hn ⊢
  exact Graph.root_mem_components _ _ (Std.TreeMap.mem_keys.mpr hn)

theorem realize_spec {predefined table : RuleTable} {w w' : Workshop}
    (h : RuleSet.ofDefinitions defs options = .ok rs)
    (hb : rs.realize predefined w = (.ok table, w')) : Realized rs predefined table w'.arena := by
  have hnd := nodup_components h
  obtain ⟨hu, hs⟩ := realizeComponents_spec (closed_components h) hnd (List.nil_append _).symm hb
    ⟨nofun, nofun⟩ nofun
  refine ⟨fun n d hd => ?_, fun n hn => realizeComponents_kept hnd hb n (.inr hn)⟩
  have hn : n ∈ rs.components.flatten := by
    refine defined_mem_components h ?_
    rw [Std.TreeMap.mem_iff_isSome_getElem?, hd]
    rfl
  obtain ⟨k, node, ht, hnode, hm⟩ := hu.begun n hn d hd
  obtain ⟨k', node', ht', hnode', hf⟩ := hs n hn d hd
  obtain rfl := Option.some.inj (ht.symm.trans ht')
  obtain rfl := Option.some.inj (hnode.symm.trans hnode')
  exact ⟨k, ht, hm.resolve_left hf⟩

theorem make_eq {predefined table : RuleTable} {w w' : Workshop}
    (hb : make defs options predefined w = (.ok table, w')) :
    ∃ rs, RuleSet.ofDefinitions defs options = .ok rs ∧ Realized rs predefined table w'.arena := by
  obtain ⟨rs, w₁, hb, hr⟩ := bind_eq_ok.mp hb
  obtain ⟨rs', w₂, hrs, hb⟩ := bind_eq_ok.mp hb
  obtain ⟨_, w₃, -, hb⟩ := bind_eq_ok.mp hb
  obtain ⟨rfl, rfl⟩ := pure_eq_ok.mp hb
  exact ⟨rs', (Prod.mk.inj hrs).1, realize_spec (Prod.mk.inj hrs).1 hr⟩

end

end Bnf

end Peg
