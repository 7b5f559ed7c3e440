import Peg.Proofs.Meaning.Recital
import Peg.Proofs.Reading.NormalForm
import Peg.Proofs.Realization.Outcome

/-!
# What actions on rules see

When an action is attached to the expression of each defined rule, what the actions see is what the
rules say, read as they stand. An expression that was copied into the place of a rule has no action,
since it is no rule itself, and a rule whose body is a name refers to the named one.
-/

namespace Peg.Bnf

/-- A list of one member comes down to that member. -/
def Body.isSingle : Body → Bool
  | .conj [_] | .disj [_] => true
  | _ => false

theorem Body.not_isSingle_of_isNormal {b : Body} (h : b.isNormal) : ¬b.isSingle := by
  unfold isSingle
  split
  · simp [isNormal, Kind.isProper] at h
  · simp [isNormal, Kind.isProper] at h
  · exact Bool.false_ne_true

/-! ## Actions -/

def record (n : String) : Action (List (String × String)) :=
  fun text log => log ++ [(n, text)]

def recording (table : RuleTable) : List String → Actions (List (String × String))
  | [] => .none
  | n :: ns =>
    match table[n]? with
    | some h => (recording table ns).on h (record n)
    | none => recording table ns

/-- The grammar in which all defined rules write down their matches. -/
def noting (a : Arena) (table : RuleTable) (defs : Definitions) : Grammar (List (String × String)) :=
  ⟨a, table, recording table defs.keys⟩

theorem firedOn_record (n : String) (t : List Char) (s : List (String × String)) (v : Verdict) :
    firedOn false (some (record n)) t s v = s ++ noted n t v := by
  cases v <;> simp [firedOn, record, noted]

section
variable {table : RuleTable} {k : Handle}

theorem recording_rule (ns : List String) (name : String) : (recording table ns).rule name = none := by
  induction ns with
  | nil => rfl
  | cons n ns ih =>
    unfold recording
    split
    · exact ih
    · exact ih

theorem recording_node_eq_none {ns : List String} (hk : ∀ n ∈ ns, table[n]? ≠ some k) :
    (recording table ns).node k = none := by
  induction ns with
  | nil => rfl
  | cons n ns ih =>
    obtain ⟨hn, hns⟩ := List.forall_mem_cons.mp hk
    unfold recording
    split
    · rename_i h hh
      have hne : k ≠ h := by
        rintro rfl
        exact hn hh
      exact (if_neg hne).trans (ih hns)
    · exact ih hns

theorem recording_node {ns : List String} {n : String} (hn : n ∈ ns) (ht : table[n]? = some k)
    (hk : ∀ n' ∈ ns, table[n']? = some k → n' = n) :
    (recording table ns).node k = some (record n) := by
  induction ns with
  | nil => cases hn
  | cons n' ns ih =>
    obtain ⟨hk', hns⟩ := List.forall_mem_cons.mp hk
    unfold recording
    by_cases he : n' = n
    · subst he
      rw [ht]
      exact if_pos rfl
    · have hmem : n ∈ ns := (List.mem_cons.mp hn).resolve_left (Ne.symm he)
      split
      · rename_i h hh
        have hne : k ≠ h := by
          rintro rfl
          exact he (hk' hh)
        exact (if_neg hne).trans (ih hmem hns)
      · exact ih hmem hns

end

/-- An expression that is made for a body has content, unless the body comes down to a name. -/
theorem Means.content {rs : RuleSet} {table : RuleTable} {a : Arena} {m : Mode} {b : Body} {e : Handle}
    (hm : Means rs table a m b e) (hs : ¬b.isSingle) (hb : ∀ n, b ≠ .name n) :
    ∃ node, a.node? e = some node ∧ node ≠ .forward := by
  cases b with
  | name n => exact absurd rfl (hb n)
  | lit text => exact ⟨_, hm, by simp⟩
  | opt b =>
    obtain ⟨e', nothing, -, -, hc⟩ := hm
    exact ⟨_, hc, by simp⟩
  | plus b =>
    obtain ⟨e', -, hc⟩ := hm
    exact ⟨_, hc, by simp⟩
  | conj bs =>
    obtain ⟨es, ws, hm, -, hj⟩ := hm
    rcases hj.cases with he | hc
    · obtain ⟨rfl, rfl⟩ := interleave_eq_singleton he
      obtain ⟨b, rfl, -⟩ := hm.eq_singleton
      exact absurd rfl hs
    · exact ⟨_, hc, by simp⟩
  | disj bs =>
    obtain ⟨es, hm, hj⟩ := hm
    rcases hj.cases with rfl | hc
    · obtain ⟨b, rfl, -⟩ := hm.eq_singleton
      exact absurd rfl hs
    · exact ⟨_, hc, by simp⟩

/-! ## What is predefined -/

section
variable {predefined : RuleTable} {base a : Arena}

/-- What was added does not come into what is predefined. -/
theorem Laid.closed_given {waiting : List Handle} (hl : Laid predefined base waiting a)
    (hb : base.InBounds)
    (hin : ∀ (n : String) (k : Handle), predefined[n]? = some k → k < base.size)
    (hrule : ∀ k name, Given predefined base k → base.node? k ≠ some (.rule name))
    (rules : RuleTable) : a.Closed rules (Given predefined base) := by
  have hnode {i : Handle} (hi : Given predefined base i) : a.node? i = base.node? i := by
    unfold Arena.node?
    rw [hl.kept i (hi.lt_size hb hin)]
  intro i j hi hr
  rcases hr with ⟨node, hn, hj⟩ | ⟨name, hn, -⟩
  · rw [hnode hi] at hn
    obtain ⟨n, k, hk, hw⟩ := hi
    exact ⟨n, k, hk, hw.tail ⟨node, hn, hj⟩⟩
  · rw [hnode hi] at hn
    exact absurd hn (hrule i name hi)

end

/-! ## What is recorded -/

section
variable {rs : RuleSet} {predefined table : RuleTable} {base a : Arena}

/-- All rules are realized, and what is predefined does not lead to a rule by its name. -/
structure Apart (rs : RuleSet) (predefined table : RuleTable) (base a : Arena) : Prop where
  inside : ∀ (n : String) (k : Handle), predefined[n]? = some k → k < base.size
  bounded : base.InBounds
  nameless : ∀ k name, Given predefined base k → base.node? k ≠ some (.rule name)
  finished : Finished rs predefined base table a
  several : ∀ (n : String) (d : Definition), rs.definitions[n]? = some d → ¬d.body.isSingle

variable (ha : Apart rs predefined table base a)
include ha

theorem Apart.action {n : String} (hn : n ∈ rs.definitions) {k : Handle} (hk : table[n]? = some k) :
    (noting a table rs.definitions).actions.node k = some (record n) := by
  refine recording_node (Std.TreeMap.mem_keys.mpr hn) hk fun n' hn' hk' => ?_
  exact ha.finished.distinct n' (Std.TreeMap.mem_keys.mp hn') n hn (hk'.trans hk.symm)

/-- Only rules have actions, and these were added and promoted. -/
theorem Apart.no_action {k : Handle} (hk : k < base.size ∨ ∀ node, a.slots[k]? ≠ some ⟨node, true⟩) :
    (noting a table rs.definitions).actions.node k = none := by
  refine recording_node_eq_none fun n hn ht => ?_
  obtain ⟨d, hd⟩ := mem_iff_entry.mp (Std.TreeMap.mem_keys.mp hn)
  obtain ⟨k', hk', hle, hs⟩ := ha.finished.stands n d hd
  obtain rfl := Option.some.inj (ht.symm.trans hk')
  obtain ⟨node, hnode⟩ := hs.slot
  exact hk.elim (Nat.not_lt.mpr hle) fun hk => hk node hnode

theorem Apart.unpromoted {k : Handle} {node : Node} (hn : a.unpromoted.node? k = some node)
    (hf : node ≠ .forward) :
    a.node? k = some node ∧ (noting a table rs.definitions).actions.node k = none := by
  have hs := (Arena.node?_unpromoted hf).mp hn
  refine ⟨Arena.node?_of_slot hs, ha.no_action (.inr fun node' hs' => ?_)⟩
  cases hs.symm.trans hs'

theorem Apart.outer {n : String} {k : Handle} (hk : predefined[n]? = some k) {t : List Char}
    {v : Verdict} {s s' : List (String × String)}
    (hy : Yields (noting a table rs.definitions) false k t s v s') : s' = s := by
  refine hy.untouched (S := Given predefined base) ?_ ?_ (recording_rule _) ⟨n, k, hk, .refl⟩
  · exact ha.finished.laid.closed_given ha.bounded ha.inside ha.nameless table
  · exact fun j hj => ha.no_action (.inl (hj.lt_size ha.bounded ha.inside))

theorem Apart.yields_rule {n : String} {d : Definition} (hd : rs.definitions[n]? = some d) {k : Handle}
    (hk : table[n]? = some k) {t : List Char} {v : Verdict} {s s' : List (String × String)}
    (hb : ∀ e, Means rs table a.unpromoted d.mode d.body e →
      Yields (noting a table rs.definitions) false e t s v s') :
    Yields (noting a table rs.definitions) false k t s v (s' ++ noted n t v) := by
  obtain ⟨k', hk', -, e, node, hslot, hm, hc⟩ := ha.finished.stands n d hd
  obtain rfl := Option.some.inj (hk.symm.trans hk')
  have hnode := Arena.node?_of_slot hslot
  rw [← firedOn_record, ← ha.action (mem_iff_entry.mpr ⟨d, hd⟩) hk]
  rcases hc with rfl | ⟨hf, he, hname⟩
  · exact yields_aliasOf hnode (hb e hm)
  · -- The body is not a name, so that `e` is no rule, and nothing is recorded for it.
    obtain ⟨node', he', hf'⟩ := hm.content (ha.several n d hd) hname
    obtain ⟨-, hnone⟩ := ha.unpromoted he' hf'
    exact yields_node hnode ((hb e hm).content he hnone hf k)

def Recited (rs : RuleSet) (table : RuleTable) (a : Arena) (m : Mode) :
    Goal → List Char → Verdict → List (String × String) → Prop
  | .body b, t, v, log => ∀ h s, Means rs table a.unpromoted m b h →
      Yields (noting a table rs.definitions) false h t s v (s ++ log)
  | .all bs, t, v, log => ∀ es s, MeansAll rs table a.unpromoted m bs es →
      YieldsAll (noting a table rs.definitions) false es t s v (s ++ log)
  | .first bs, t, v, log => ∀ es s, MeansAll rs table a.unpromoted m bs es →
      YieldsFirst (noting a table rs.definitions) false es t s v (s ++ log)
  | .more b enough, t, v, log => ∀ h s, Means rs table a.unpromoted m b h →
      YieldsMany (noting a table rs.definitions) false h enough t s v (s ++ log)

theorem Apart.recited {m : Mode} {goal : Goal} {t : List Char} {v : Verdict}
    {log : List (String × String)} (h : Recital rs.definitions rs.options
      ((noting a table rs.definitions).Predefined [] predefined) m goal t v log) :
    Recited rs table a m goal t v log := by
  induction h with
  | litTook h =>
    intro k s hm
    obtain ⟨hn, hnone⟩ := ha.unpromoted hm (by simp)
    rw [h, List.append_nil]
    exact (yields_literal (g := noting a table rs.definitions) _ hn _).plain hnone
  | litRefused h =>
    intro k s hm
    obtain ⟨hn, -⟩ := ha.unpromoted hm (by simp)
    rw [List.append_nil]
    exact yields_literal_refused hn h
  | defined hd _ ih =>
    intro k s hm
    rw [← List.append_assoc]
    exact ha.yields_rule hd hm fun e he => ih e s he
  | outer hd h =>
    intro k s hm
    obtain ⟨k', hk', hv⟩ := h
    have hm : table[_]? = some k := hm
    rw [ha.finished.outer _ ((getElem?_eq_none_iff ..).mp hd), hk'] at hm
    obtain rfl := Option.some.inj hm
    have hy := parse_iff_yields.mpr ⟨_, rfl, hv⟩
    rw [String.toList_ofList] at hy
    obtain ⟨s', hy⟩ := hy.course rfl rfl false s
    obtain rfl := ha.outer hk' hy
    rwa [List.append_nil]
  | optHead _ hv ih =>
    intro k s hk
    obtain ⟨e, nothing, hm, -, hc⟩ := hk
    obtain ⟨hn, hnone⟩ := ha.unpromoted hc (by simp)
    exact (yields_choice hn (yieldsFirst_head (ih e s hm) hv)).plain hnone
  | @optNothing _ _ t log _ ih =>
    intro k s hk
    obtain ⟨e, nothing, hm, hn', hc⟩ := hk
    obtain ⟨hn, hnone⟩ := ha.unpromoted hc (by simp)
    obtain ⟨hn', hnone'⟩ := ha.unpromoted hn' (by simp)
    have hnothing : Yields (noting a table rs.definitions) false nothing t (s ++ log) (.took t)
        (s ++ log) := (yields_sequence hn' yieldsAll_nil).plain hnone'
    exact (yields_choice hn (yieldsFirst_cons (ih e s hm) (yieldsFirst_head hnothing (by simp)))).plain hnone
  | plus _ ih =>
    intro k s hk
    obtain ⟨e, hm, hc⟩ := hk
    obtain ⟨hn, hnone⟩ := ha.unpromoted hc (by simp)
    exact (yields_oneOrMore hn (ih e s hm)).plain hnone
  | conj _ ih =>
    intro k s hk
    obtain ⟨es, ws, hm, hws, hj⟩ := hk
    have hall := ih _ s (hm.spaced hws)
    rcases hj.cases with hs | hc
    · rw [hs] at hall
      exact yieldsAll_singleton hall
    · obtain ⟨hn, hnone⟩ := ha.unpromoted hc (by simp)
      exact (yields_sequence hn hall).plain hnone
  | disj _ ih =>
    intro k s hk
    obtain ⟨es, hm, hj⟩ := hk
    have hfirst := ih _ s hm
    rcases hj.cases with hs | hc
    · rw [hs] at hfirst
      exact yieldsFirst_singleton hfirst
    · obtain ⟨hn, hnone⟩ := ha.unpromoted hc (by simp)
      exact (yields_choice hn hfirst).plain hnone
  | allNil =>
    intro es s hes
    obtain rfl := hes
    rw [List.append_nil]
    exact yieldsAll_nil
  | allCons _ _ ih ihs =>
    intro es s hes
    obtain ⟨e, es, hm, hms, rfl⟩ := hes
    rw [← List.append_assoc]
    exact yieldsAll_cons (ih e s hm) (ihs es _ hms)
  | @allStop _ _ _ _ v _ _ hv ih =>
    intro es s hes
    obtain ⟨e, es, hm, hms, rfl⟩ := hes
    cases v with
    | took rest => exact absurd rfl (hv rest)
    | refused => exact yieldsAll_refused (ih e s hm)
    | fault f => exact yieldsAll_fault (ih e s hm)
  | firstNil =>
    intro es s hes
    obtain rfl := hes
    rw [List.append_nil]
    exact yieldsFirst_nil
  | firstCons _ _ ih ihs =>
    intro es s hes
    obtain ⟨e, es, hm, hms, rfl⟩ := hes
    rw [← List.append_assoc]
    exact yieldsFirst_cons (ih e s hm) (ihs es _ hms)
  | firstHead _ hv ih =>
    intro es s hes
    obtain ⟨e, es, hm, hms, rfl⟩ := hes
    exact yieldsFirst_head (ih e s hm) hv
  | moreStop _ ih => exact fun k s hm => yieldsMany_stop (ih k s hm)
  | moreFault _ ih => exact fun k s hm => yieldsMany_fault (ih k s hm)
  | moreIdle _ ih => exact fun k s hm => yieldsMany_idle (ih k s hm)
  | moreStep _ hne _ ih ihs =>
    intro k s hm
    rw [← List.append_assoc]
    exact yieldsMany_step (ih k s hm) hne (ihs k _ hm)

theorem Apart.parse_iff (hreal : Realized rs predefined table a) {n : String} {k : Handle}
    (hk : table[n]? = some k) (m : Mode) (text : String) (v : Verdict) (log : List (String × String)) :
    ((noting a table rs.definitions).parse k text []).1.verdict? = some v ∧
        ((noting a table rs.definitions).parse k text []).2 = log ↔
      Recital rs.definitions rs.options ((noting a table rs.definitions).Predefined [] predefined) m
        (.body (.name n)) text.toList v log := by
  have complete {v : Verdict} {log : List (String × String)} (hl : Recital rs.definitions rs.options
      ((noting a table rs.definitions).Predefined [] predefined) m (.body (.name n)) text.toList v log) :
      ((noting a table rs.definitions).parse k text []).1.verdict? = some v ∧
        ((noting a table rs.definitions).parse k text []).2 = log := by
    obtain ⟨o, hp, ho⟩ := parse_iff_yields.mp (ha.recited hl k [] hk)
    rw [hp]
    exact ⟨ho, rfl⟩
  constructor
  · rintro ⟨hv, rfl⟩
    -- The rules come to the same verdict, and whatever they record is what was recorded.
    have hv' := hv
    rw [parse_silent rfl rfl] at hv'
    have hm := sound_of_realized hreal _ (m := m) (b := .name n) hk hv'
    have hsilent : (noting a table rs.definitions).Predefined [] predefined =
        (silent a table).Predefined () predefined := predefined_silent rfl rfl
    rw [← hsilent] at hm
    obtain ⟨log, hl⟩ := meaning_iff_recital.mp hm
    rw [(complete hl).2]
    exact hl
  · exact complete

end

/-- A rule whose body is a name is recorded behind the named one. -/
theorem Recital.name {defs : Definitions} {o : Options} {outer : String → List Char → Verdict → Prop}
    {m : Mode} {n n' : String} {d : Definition} {t : List Char} {v : Verdict}
    {log : List (String × String)} (h : Recital defs o outer m (.body (.name n)) t v log)
    (hd : defs[n]? = some d) (hb : d.body = .name n') (hn' : n' ∈ defs) :
    ∃ before, log = before ++ (noted n' t v ++ noted n t v) := by
  cases h with
  | defined hd' h =>
    obtain rfl := Option.some.inj (hd.symm.trans hd')
    rw [hb] at h
    cases h with
    | defined _ h => exact ⟨_, List.append_assoc ..⟩
    | outer hd' _ => exact absurd hn' ((getElem?_eq_none_iff ..).mp hd')
  | outer hd' _ => cases hd.symm.trans hd'

/-- What the actions on the rules record is what the rules say, read as they stand. Where the body of
a rule is the name of another one, that one is recorded just before it. -/
theorem realize_records {defs : Definitions} {options : Options} {rs : RuleSet}
    (h : RuleSet.ofDefinitions defs options = .ok rs) {predefined table : RuleTable} {w w' : Workshop}
    (hr : rs.realize predefined w = (.ok table, w'))
    (hs : ∀ (n : String) (d : Definition), defs[n]? = some d → ¬d.body.isSingle)
    (hin : ∀ (n : String) (k : Handle), predefined[n]? = some k → k < w.arena.size)
    (hb : w.arena.InBounds)
    (hrule : ∀ k name, Given predefined w.arena k → w.arena.node? k ≠ some (.rule name))
    {n : String} {d : Definition} (hd : defs[n]? = some d) :
    ∃ k, table[n]? = some k ∧
      (∀ (m : Mode) (text : String) (v : Verdict) (log : List (String × String)),
        ((noting w'.arena table defs).parse k text []).1.verdict? = some v ∧
            ((noting w'.arena table defs).parse k text []).2 = log ↔
          Recital defs options ((noting w'.arena table defs).Predefined [] predefined) m
            (.body (.name n)) text.toList v log) ∧
      ∀ (n' text : String) (rest : List Char), d.body = .name n' → n' ∈ defs →
        ((noting w'.arena table defs).parse k text []).1.verdict? = some (.took rest) →
        ∃ before, ((noting w'.arena table defs).parse k text []).2 = before ++
          [(n', String.ofList (taken text.toList rest)), (n, String.ofList (taken text.toList rest))] := by
  have hreal := realize_spec h hr
  have hf : Finished rs predefined w.arena table w'.arena := by
    rcases realize_outcome h hr with ⟨_, ht, hf⟩ | ⟨_, -, -, ht, -⟩
    · exact Except.ok.inj ht ▸ hf
    · cases ht
  obtain rfl := ofDefinitions_eq h
  have ha : Apart _ predefined table w.arena w'.arena := ⟨hin, hb, hrule, hf, hs⟩
  obtain ⟨k, hk, -⟩ := hreal.defined n d hd
  refine ⟨k, hk, ha.parse_iff hreal hk, fun n' text rest hbody hn' hv => ?_⟩
  exact ((ha.parse_iff hreal hk .strict text _ _).mp ⟨hv, rfl⟩).name hd hbody hn'

/-- Lists of numbers, with a rule that is another name for one of its own component, and one that is
another name for what was realized before. -/
def renamed : Definitions :=
  Std.TreeMap.empty
    |>.insert "list" ⟨.name "items", .loose⟩
    |>.insert "items"
      ⟨.disj [.conj [.name "number", .lit ",", .name "list"], .name "number"], .loose⟩
    |>.insert "number" ⟨.name "digits", .strict⟩
    |>.insert "digits" ⟨.plus (.name "digit"), .strict⟩
    |>.insert "ws" ⟨.opt (.plus (.lit " ")), .strict⟩

theorem ofDefinitions_renamed : RuleSet.ofDefinitions renamed ⟨some "ws", .interleave⟩ =
    .ok ⟨renamed, ⟨some "ws", .interleave⟩, dependencies renamed (some "ws"),
      [["digit"], ["digits"], ["ws"], ["number"], ["items", "list"]]⟩ := by
  have hfound : ((dependencies renamed (some "ws")).walk renamed.keys).found =
      [["list", "items"], ["number"], ["ws"], ["digits"], ["digit"]] := by
    decide +kernel
  have hcomponents : (dependencies renamed (some "ws")).components renamed.keys =
      [["digit"], ["digits"], ["ws"], ["number"], ["items", "list"]] := by
    rw [Graph.components, hfound]
    simp [List.mergeSort, List.MergeSort.Internal.splitInTwo, List.splitAt, List.splitAt.go]
  have hcheck : checkWhiteSpace renamed (some "ws") = .ok () := by decide +kernel
  simp only [RuleSet.ofDefinitions, hcheck, hcomponents]
  rfl

theorem realize_records_renamed :
    ∃ rs table w', RuleSet.ofDefinitions renamed ⟨some "ws", .interleave⟩ = .ok rs ∧
      rs.realize digitOnly.1 ⟨digitOnly.2, #[]⟩ = (.ok table, w') ∧
      Recital renamed ⟨some "ws", .interleave⟩
        ((noting w'.arena table renamed).Predefined [] digitOnly.1) .strict (.body (.name "list"))
        "1, 2".toList (.took [])
        [("ws", ""), ("digits", "1"), ("number", "1"), ("ws", ""), ("ws", " "),
          ("ws", ""), ("digits", "2"), ("number", "2"), ("ws", ""),
          ("digits", "2"), ("number", "2"), ("items", "2"), ("list", "2"),
          ("items", "1, 2"), ("list", "1, 2")] := by
  have hparse : ((RuleSet.ofDefinitions renamed ⟨some "ws", .interleave⟩).toOption.bind fun rs =>
      let made := rs.realize digitOnly.1 ⟨digitOnly.2, #[]⟩
      made.1.toOption.bind fun table => table["list"]?.bind fun h =>
        let parsed := (noting made.2.arena table renamed).parse h "1, 2" []
        parsed.1.verdict?.map (·, parsed.2)) = some (.took [],
      [("ws", ""), ("digits", "1"), ("number", "1"), ("ws", ""), ("ws", " "),
        ("ws", ""), ("digits", "2"), ("number", "2"), ("ws", ""),
        ("digits", "2"), ("number", "2"), ("items", "2"), ("list", "2"),
        ("items", "1, 2"), ("list", "1, 2")]) := by
    rw [ofDefinitions_renamed]
    decide +kernel
  have hnormal : ∀ e ∈ renamed.toList, e.2.body.isNormal := by decide +kernel
  have hs (n : String) (d : Definition) (hd : renamed[n]? = some d) : ¬d.body.isSingle :=
    Body.not_isSingle_of_isNormal
      (hnormal (n, d) (Std.TreeMap.mem_toList_iff_getElem?_eq_some.mpr hd))
  have hrule (k : Handle) (name : String) (_ : Given digitOnly.1 digitOnly.2 k) :
      digitOnly.2.node? k ≠ some (.rule name) := fun hn => nomatch node?_digitOnly hn
  rcases h : RuleSet.ofDefinitions renamed ⟨some "ws", .interleave⟩ with e | rs
  · rw [h] at hparse
    cases hparse
  · rw [h] at hparse
    rcases hr : rs.realize digitOnly.1 ⟨digitOnly.2, #[]⟩ with ⟨e | table, w'⟩
    · simp only [Except.toOption, Option.bind_some, hr] at hparse
      cases hparse
    · have hd : renamed["list"]? = some ⟨.name "items", .loose⟩ := by decide +kernel
      obtain ⟨k, hk, hiff, -⟩ :=
        realize_records h hr hs lt_size_digitOnly inBounds_digitOnly hrule hd
      simp only [Except.toOption, Option.bind_some, hr, hk] at hparse
      obtain ⟨v, hv, he⟩ := Option.map_eq_some_iff.mp hparse
      obtain ⟨rfl, hlog⟩ := Prod.mk.inj he
      exact ⟨rs, table, w', rfl, hr, (hiff .strict "1, 2" _ _).mp ⟨hv, hlog⟩⟩

end Peg.Bnf
