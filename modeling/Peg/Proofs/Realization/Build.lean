import Peg.Proofs.Arena.Builtins
import Peg.Proofs.Realization.Outcome
import Peg.Proofs.Realization.WhiteSpaceRule

/-!
# Building the rules of a source

A name may be defined in the source, be predefined, or be one of the builtin rules, and it is looked
up in this order. What is built is built behind all that the arena holds before, and the names of
the source do not get to the arena until it has been read and analysed without an error.
-/

namespace Peg

universe u

/-! ## Builtin rules -/

namespace Builtin

theorem getElem?_among (table : RuleTable) (ns : List String) (n : String) :
    (among table ns)[n]? = if n ∈ ns then table[n]? else none := by
  rw [among, Std.TreeMap.getElem?_filter', List.contains_eq_mem]
  by_cases hn : n ∈ ns
  · cases table[n]? <;> simp [hn]
  · cases table[n]? <;> simp [hn]

end Builtin

namespace Bnf

/-! ## Analysis -/

def Mentioned (defs : Definitions) (n : String) : Prop :=
  ∃ (m : String) (d : Definition), defs[m]? = some d ∧ n ∈ d.body.names

def WhiteSpaceFits (defs : Definitions) (options : Options) : Prop :=
  ∀ w, options.whiteSpace = some w → ∃ d, defs[w]? = some d ∧ d.mode = .strict

def BuildError.IsEarly : BuildError → Prop
  | .read _ | .compile (.whiteSpaceUndefined _) | .compile (.whiteSpaceNotStrict _) => True
  | .compile _ => False

section
variable {defs : Definitions} {options : Options} {rs : RuleSet}

theorem ofDefinitions_of_fits (h : WhiteSpaceFits defs options) :
    ∃ rs, RuleSet.ofDefinitions defs options = .ok rs := by
  have hcheck : checkWhiteSpace defs options.whiteSpace = .ok () := by
    cases hw : options.whiteSpace with
    | none => rfl
    | some w =>
      obtain ⟨d, hd, hm⟩ := h w hw
      simp only [checkWhiteSpace, hd, hm, if_pos]
  unfold RuleSet.ofDefinitions
  rw [hcheck]
  exact ⟨_, rfl⟩

theorem ofDefinitions_error {e : CompileError} (h : RuleSet.ofDefinitions defs options = .error e) :
    ¬WhiteSpaceFits defs options ∧ (BuildError.compile e).IsEarly := by
  constructor
  · intro hfits
    obtain ⟨rs, hrs⟩ := ofDefinitions_of_fits hfits
    cases hrs.symm.trans h
  · have hcheck : checkWhiteSpace defs options.whiteSpace = .error e := by
      unfold RuleSet.ofDefinitions at h
      cases hc : checkWhiteSpace defs options.whiteSpace with
      | error e' =>
        rw [hc] at h
        exact congrArg Except.error (Except.error.inj h)
      | ok _ =>
        rw [hc] at h
        cases h
    unfold checkWhiteSpace at hcheck
    split at hcheck
    · cases hcheck
    · split at hcheck
      · cases hcheck
        trivial
      · split at hcheck
        · cases hcheck
        · cases hcheck
          trivial

/-- White space needs no mention, since it is always defined. -/
theorem mem_missing_iff (h : RuleSet.ofDefinitions defs options = .ok rs) {n : String} :
    n ∈ rs.missing ↔ Mentioned defs n ∧ n ∉ defs := by
  rw [mem_missing h]
  obtain rfl := ofDefinitions_eq h
  refine and_congr_left fun hn => ?_
  rw [Graph.mem_components_iff]
  constructor
  · rintro ⟨r, hr, hreach⟩
    rcases hreach.cases_tail with rfl | ⟨m, -, hedge⟩
    · exact absurd (Std.TreeMap.mem_keys.mp hr) hn
    · obtain ⟨d, hd, hmem⟩ := exists_of_edge hedge
      refine ⟨m, d, hd, (mem_dependencies.mp hmem).resolve_right fun ⟨_, hw⟩ => hn ?_⟩
      obtain ⟨dw, hdw, -⟩ := whiteSpace_defined h hw
      exact mem_iff_entry.mpr ⟨dw, hdw⟩
  · rintro ⟨m, d, hd, hmem⟩
    refine ⟨m, Std.TreeMap.mem_keys.mpr (mem_iff_entry.mpr ⟨d, hd⟩), .single ?_⟩
    exact (mem_successors hd).mpr (mem_dependencies.mpr (.inl hmem))

end

/-! ## The table that is supplied -/

/-- What rules are realized with: what is predefined, and builtin rules for what is missing. -/
def supply (a : Arena) (rs : RuleSet) (predefined : RuleTable) : RuleTable :=
  Builtin.among (Builtin.init a).1 rs.missing ∪ predefined

section
variable {a : Arena} {rs : RuleSet} {predefined : RuleTable} {n : String}

theorem getElem?_supply : (supply a rs predefined)[n]? =
    predefined[n]?.or (if n ∈ rs.missing then (Builtin.init a).1[n]? else none) := by
  rw [supply, Std.TreeMap.getElem?_union, Builtin.getElem?_among]

theorem mem_supply : n ∈ supply a rs predefined ↔
    n ∈ predefined ∨ n ∈ rs.missing ∧ n ∈ Builtin.names := by
  rw [← Builtin.mem_init (a := a), Std.TreeMap.mem_iff_isSome_getElem?, getElem?_supply,
    Option.isSome_or, Bool.or_eq_true, ← Std.TreeMap.mem_iff_isSome_getElem?]
  refine or_congr_right ?_
  by_cases hn : n ∈ rs.missing
  · rw [if_pos hn, ← Std.TreeMap.mem_iff_isSome_getElem?, and_iff_right hn]
  · rw [if_neg hn]
    simp [hn]

end

/-! ## The course of a build -/

section
variable {defs : Definitions} {options : Options} {rs : RuleSet} {w : Workshop}

theorem adapt_eq {α : Type} (x : Making α) (w : Workshop) :
    (ExceptT.adapt BuildError.compile x : Compiling α) w = ((x w).1.mapError .compile, (x w).2) :=
  rfl

theorem analyse_of_error {e : CompileError} (h : RuleSet.ofDefinitions defs options = .error e) :
    analyse defs options w = (.error e, w) := by
  apply bind_of_error
  rw [h]
  rfl

theorem analyse_of_ok (h : RuleSet.ofDefinitions defs options = .ok rs) :
    analyse defs options w = (.ok rs, { w with log := w.log.push rs.summary }) := by
  unfold analyse
  rw [h]
  rfl

end

section
variable (source : String) (options : Options) (predefined : RuleTable) (base : Arena)

/-- How a build may end, with the arena that it leaves. The first two ways do not get to the
arena. -/
inductive Ending : Except BuildError RuleTable → Arena → Prop
  | unread {e : ReadError} (hread : (readAll source).value = .error e) :
    Ending (.error (.read e)) base
  | unfit {defs : Definitions} {e : CompileError} (hread : (readAll source).value = .ok defs)
    (hrs : RuleSet.ofDefinitions defs options = .error e) : Ending (.error (.compile e)) base
  | unsupplied {defs : Definitions} {rs : RuleSet} {n : String} {a : Arena}
    (hread : (readAll source).value = .ok defs)
    (hrs : RuleSet.ofDefinitions defs options = .ok rs) (hn : n ∈ rs.missing)
    (hp : n ∉ supply base rs predefined)
    (hl : Laid (supply base rs predefined) (Builtin.init base).2 [] a) :
    Ending (.error (.compile (.unpredefined n))) a
  | done {defs : Definitions} {rs : RuleSet} {table : RuleTable} {a : Arena}
    (hread : (readAll source).value = .ok defs)
    (hrs : RuleSet.ofDefinitions defs options = .ok rs)
    (hf : Finished rs (supply base rs predefined) (Builtin.init base).2 table a)
    (hreal : Realized rs (supply base rs predefined) table a) : Ending (.ok table) a

end

section
variable {source : String} {options : Options} {predefined : RuleTable} {w w' : Workshop}
  {res : Except BuildError RuleTable}

theorem ending_realize {defs : Definitions} {rs : RuleSet}
    (hread : (readAll source).value = .ok defs)
    (hrs : RuleSet.ofDefinitions defs options = .ok rs) {base : Arena}
    (ha : w.arena = (Builtin.init base).2) {res : Except CompileError RuleTable}
    (hr : rs.realize (supply base rs predefined) w = (res, w')) :
    Ending source options predefined base (res.mapError .compile) w'.arena := by
  rcases realize_outcome hrs hr with ⟨table, rfl, hf⟩ | ⟨n, hn, hp, rfl, hl⟩
  · rw [ha] at hf
    exact .done hread hrs hf (realize_spec hrs hr)
  · rw [ha] at hl
    exact .unsupplied hread hrs hn hp hl

theorem buildRules_ending (hb : buildRules source options predefined w = (res, w')) :
    Ending source options predefined w.arena res w'.arena := by
  unfold buildRules at hb
  cases hread : (readAll source).value with
  | error e =>
    have hlogged : ofLogged (readAll source) w =
        (.error (.read e), { w with log := w.log ++ (readAll source).log.toArray }) := by
      simp only [ofLogged, ExceptT.mk, hread, Except.mapError]
    rw [bind_of_error hlogged] at hb
    obtain ⟨rfl, rfl⟩ := Prod.mk.inj hb
    exact .unread hread
  | ok defs =>
    have hlogged : ofLogged (readAll source) w =
        (.ok defs, { w with log := w.log ++ (readAll source).log.toArray }) := by
      simp only [ofLogged, ExceptT.mk, hread, Except.mapError]
    rw [bind_of_ok hlogged] at hb
    cases hrs : RuleSet.ofDefinitions defs options with
    | error e =>
      rw [adapt_eq, bind_of_error (analyse_of_error hrs)] at hb
      obtain ⟨rfl, rfl⟩ := Prod.mk.inj hb
      exact .unfit hread hrs
    | ok rs =>
      rw [adapt_eq, bind_of_ok (analyse_of_ok hrs)] at hb
      obtain ⟨rfl, rfl⟩ := Prod.mk.inj hb
      exact ending_realize hread hrs rfl rfl

end

/-! ## What is built -/

/-- The rules of a source in the arena `a`, which was `base` before. Names that are not defined in
the source mean what the table has for them, and those that are mean their bodies. -/
structure Built (defs : Definitions) (options : Options) (predefined : RuleTable) (base : Arena)
    (table : RuleTable) (a : Arena) : Prop where
  names : ∀ n, n ∈ table ↔ n ∈ defs ∨ n ∈ predefined ∨
    Mentioned defs n ∧ n ∉ defs ∧ n ∈ Builtin.names
  given : ∀ n ∉ defs, ∀ k, predefined[n]? = some k → table[n]? = some k
  builtin : ∀ n ∉ defs, n ∉ predefined → ∀ k, table[n]? = some k →
    (Builtin.init base).1[n]? = some k
  kept : ∀ i < (Builtin.init base).2.size, a.slots[i]? = (Builtin.init base).2.slots[i]?
  own : ∀ n ∈ defs, ∃ k, table[n]? = some k ∧ base.size ≤ k ∧
    ∀ {σ : Type u} (g : Grammar σ), g.arena = a → g.rules = table →
      ∀ (s : σ) (m : Mode) (text : String) (v : Verdict), (g.parse k text s).1.verdict? = some v ↔
        Meaning defs options (g.Predefined s table) m (.body (.name n)) text.toList v

section
variable {defs : Definitions} {options : Options} {rs : RuleSet} {predefined table : RuleTable}

theorem Realized.parse_iff {a : Arena} (hreal : Realized rs predefined table a) {σ : Type u}
    {g : Grammar σ} (ha : g.arena = a) (hr : g.rules = table) (s : σ) {n : String} {k : Handle}
    (hk : table[n]? = some k) (m : Mode) (text : String) (v : Verdict) :
    (g.parse k text s).1.verdict? = some v ↔
      Meaning rs.definitions rs.options (g.Predefined s predefined) m (.body (.name n))
        text.toList v := by
  rw [predefined_silent ha hr, parse_silent ha hr]
  constructor
  · exact fun hv => sound_of_realized hreal _ (m := m) (b := .name n) hk hv
  · intro hm
    obtain ⟨o, he, ho⟩ := parse_iff_yields.mp (complete_of_realized hreal hm k hk)
    rwa [he]

theorem Finished.built (h : RuleSet.ofDefinitions defs options = .ok rs) {base a : Arena}
    (hf : Finished rs (supply base rs predefined) (Builtin.init base).2 table a)
    (hreal : Realized rs (supply base rs predefined) table a) :
    Built.{u} defs options predefined base table a := by
  have hmissing {n : String} := mem_missing_iff h (n := n)
  obtain rfl := ofDefinitions_eq h
  have houter (n : String) (hn : n ∉ defs) := hf.outer n hn
  refine ⟨fun n => ?_, fun n hn k hk => ?_, fun n hn hp k hk => ?_, hf.laid.kept, fun n hn => ?_⟩
  · by_cases hn : n ∈ defs
    · obtain ⟨d, hd⟩ := mem_iff_entry.mp hn
      obtain ⟨k, hk, -⟩ := hf.stands n d hd
      exact iff_of_true (mem_iff_entry.mpr ⟨k, hk⟩) (.inl hn)
    · rw [mem_iff_entry, houter n hn, ← mem_iff_entry, mem_supply, hmissing, and_assoc,
        or_iff_right hn]
  · rw [houter n hn, getElem?_supply, hk, Option.some_or]
  · rw [houter n hn, getElem?_supply, Std.TreeMap.getElem?_eq_none hp, Option.none_or] at hk
    split at hk
    · exact hk
    · cases hk
  · obtain ⟨d, hd⟩ := mem_iff_entry.mp hn
    obtain ⟨k, hk, hle, -⟩ := hf.stands n d hd
    rw [Builtin.size_init] at hle
    refine ⟨k, hk, Nat.le_of_add_right_le hle, fun g ha hr s m text v => ?_⟩
    -- on names without a definition the table agrees with what was supplied, and can replace it
    have hself : Realized _ table table a := ⟨hreal.defined, fun _ _ => rfl⟩
    exact hself.parse_iff ha hr s hk m text v

theorem Laid.kept_old {supplied : RuleTable} {base a : Arena}
    (hl : Laid supplied (Builtin.init base).2 [] a) {i : Handle} (hi : i < base.size) :
    a.slots[i]? = base.slots[i]? := by
  have hlt : i < (Builtin.init base).2.size := by
    rw [Builtin.size_init]
    exact Nat.lt_add_right 11 hi
  rw [hl.kept i hlt, Builtin.slot_init hi]

end

namespace Ending

section
variable {source : String} {options : Options} {predefined : RuleTable} {base a : Arena}
  {res : Except BuildError RuleTable} (h : Ending source options predefined base res a)
include h

theorem ok_iff : (∃ table, res = .ok table) ↔ ∃ defs, (readAll source).value = .ok defs ∧
    WhiteSpaceFits defs options ∧
      ∀ n, Mentioned defs n → n ∉ defs → n ∈ predefined ∨ n ∈ Builtin.names := by
  cases h with
  | unread hread =>
    refine iff_of_false nofun ?_
    rintro ⟨defs, hread', -⟩
    cases hread.symm.trans hread'
  | unfit hread hrs =>
    refine iff_of_false nofun ?_
    rintro ⟨defs, hread', hfits, -⟩
    obtain rfl := Except.ok.inj (hread.symm.trans hread')
    exact (ofDefinitions_error hrs).1 hfits
  | @unsupplied defs rs n _ hread hrs hn hp hl =>
    refine iff_of_false nofun ?_
    rintro ⟨defs, hread', -, hall⟩
    obtain rfl := Except.ok.inj (hread.symm.trans hread')
    obtain ⟨hm, hd⟩ := (mem_missing_iff hrs).mp hn
    exact hp (mem_supply.mpr ((hall n hm hd).imp_right fun hb => ⟨hn, hb⟩))
  | @done defs rs table _ hread hrs hf hreal =>
    refine iff_of_true ⟨table, rfl⟩ ⟨defs, hread, fun w => whiteSpace_defined hrs, ?_⟩
    intro n hm hn
    have hs := hf.supplied n ((mem_missing_iff hrs).mpr ⟨hm, hn⟩)
    exact (mem_supply.mp hs).imp_right And.right

theorem built {table : RuleTable} (ht : res = .ok table) :
    ∃ defs, (readAll source).value = .ok defs ∧
      Built.{u} defs options predefined base table a := by
  cases h with
  | done hread hrs hf hreal =>
    obtain rfl := Except.ok.inj ht
    exact ⟨_, hread, hf.built hrs hreal⟩
  | _ => cases ht

theorem error {e : BuildError} (he : res = .error e) : (e.IsEarly → a = base) ∧
    (¬e.IsEarly → ∃ n, e = .compile (.unpredefined n) ∧ n ∉ predefined ∧ n ∉ Builtin.names) := by
  cases h with
  | unread hread =>
    obtain rfl := Except.error.inj he
    exact ⟨fun _ => rfl, fun hlate => absurd trivial hlate⟩
  | unfit hread hrs =>
    obtain rfl := Except.error.inj he
    exact ⟨fun _ => rfl, fun hlate => absurd (ofDefinitions_error hrs).2 hlate⟩
  | @unsupplied _ _ n _ hread hrs hn hp hl =>
    obtain rfl := Except.error.inj he
    have hp := mt mem_supply.mpr hp
    rw [not_or, not_and] at hp
    exact ⟨False.elim, fun _ => ⟨n, rfl, hp.1, hp.2 hn⟩⟩
  | done => cases he

theorem kept {i : Handle} (hi : i < base.size) : a.slots[i]? = base.slots[i]? := by
  cases h with
  | unread hread => rfl
  | unfit hread hrs => rfl
  | unsupplied hread hrs hn hp hl => exact hl.kept_old hi
  | done hread hrs hf hreal => exact hf.laid.kept_old hi

end

end Ending

/-- A build succeeds when the source can be read, white space is all right, and every name that is
not defined is predefined or builtin. Whatever comes of it, what was in the arena before stays. -/
theorem buildRules_result {source : String} {options : Options} {predefined : RuleTable}
    {w w' : Workshop} {res : Except BuildError RuleTable}
    (hb : buildRules source options predefined w = (res, w')) :
    ((∃ table, res = .ok table) ↔ ∃ defs, (readAll source).value = .ok defs ∧
      WhiteSpaceFits defs options ∧
        ∀ n, Mentioned defs n → n ∉ defs → n ∈ predefined ∨ n ∈ Builtin.names) ∧
      (∀ table, res = .ok table → ∃ defs, (readAll source).value = .ok defs ∧
        Built.{u} defs options predefined w.arena table w'.arena) ∧
      (∀ e, res = .error e → (e.IsEarly → w'.arena = w.arena) ∧
        (¬e.IsEarly → ∃ n, e = .compile (.unpredefined n) ∧ n ∉ predefined ∧ n ∉ Builtin.names)) ∧
      ∀ i < w.arena.size, w'.arena.slots[i]? = w.arena.slots[i]? := by
  have h := buildRules_ending hb
  exact ⟨h.ok_iff, fun _ => h.built, fun _ => h.error, fun _ => h.kept⟩

/-- The name `item` is defined and predefined, `Dot` is predefined and builtin. -/
def marked : String :=
  "<marked> :== <Dot> <item> <EOI>\n\n<item> :== x"

def fullStop : RuleTable × Arena :=
  (.ofList [("Dot", 1), ("item", 0)], (Building.literal "." (Building.oneOf "q" ∅).2).2)

theorem buildRules_result_marked :
    ∃ table w' k, buildRules marked ⟨none, .literal⟩ fullStop.1 ⟨fullStop.2, #[]⟩ = (.ok table, w') ∧
      table["Dot"]? = some 1 ∧ "EOI" ∈ table ∧ table["item"]? = some k ∧ 2 ≤ k ∧
      ∀ i < 2, w'.arena.slots[i]? = fullStop.2.slots[i]? := by
  have hok : (buildRules marked ⟨none, .literal⟩ fullStop.1 ⟨fullStop.2, #[]⟩).1.toOption.isSome := by
    decide +kernel
  have hnames : (readAll marked).value.toOption.map (·.keys) = some ["item", "marked"] := by
    decide +kernel
  have hbody : ((readAll marked).value.toOption.bind (·["marked"]?)).map (·.body.names) =
      some ["Dot", "item", "EOI"] := by
    decide +kernel
  rcases hb : buildRules marked ⟨none, .literal⟩ fullStop.1 ⟨fullStop.2, #[]⟩ with ⟨e | table, w'⟩
  · rw [hb] at hok
    cases hok
  · obtain ⟨-, hbuilt, -, hkept⟩ := buildRules_result.{0} hb
    obtain ⟨defs, hread, h⟩ := hbuilt table rfl
    rw [hread] at hnames hbody
    have hkeys : defs.keys = ["item", "marked"] := Option.some.inj hnames
    have hmem (n : String) : n ∈ defs ↔ n ∈ ["item", "marked"] := by
      rw [← hkeys, Std.TreeMap.mem_keys]
    obtain ⟨d, hd, hnames⟩ := Option.map_eq_some_iff.mp hbody
    have hmentioned : Mentioned defs "EOI" := ⟨"marked", d, hd, by simp [hnames]⟩
    obtain ⟨k, hk, hle, -⟩ := h.own "item" (by simp [hmem])
    refine ⟨table, w', k, rfl, h.given "Dot" (by simp [hmem]) 1 (by decide +kernel), ?_, hk, hle,
      hkept⟩
    exact (h.names "EOI").mpr (.inr (.inr ⟨hmentioned, by simp [hmem], by decide⟩))

end Bnf

end Peg
