import Peg.Proofs.Meaning.Realized

/-!
# Realized rules mean what their bodies mean

What the engine makes of the expression for a rule is what the rule means. One direction is by
induction on the depth of the evaluation, the other one by induction on the meaning. Actions and
states have no part in this, so that both are proved in a grammar without actions.
-/

namespace Peg

universe u

def Grammar.Predefined {σ : Type u} (g : Grammar σ) (s : σ) (predefined : RuleTable) (n : String)
    (t : List Char) (v : Verdict) : Prop :=
  ∃ h, predefined[n]? = some h ∧ (g.parse h (String.ofList t) s).1.verdict? = some v

def silent (a : Arena) (table : RuleTable) : Grammar Unit :=
  ⟨a, table, .none⟩

section
variable {a : Arena} {table : RuleTable} {n : Nat} {h : Handle} {c : Cursor}

theorem eval_silent {node : Node} (hn : a.node? h = some node) :
    eval (silent a table) (n + 1) false h c () =
      evalNode (silent a table) (eval (silent a table) n) false h node c () := by
  simp only [eval, silent, hn, Actions.none, fire_none]

/-- Expressions with the same node differ at most in what a forward declaration reports. -/
theorem eval_silent_congr {k : Handle} {node : Node} (hh : a.node? h = some node)
    (hk : a.node? k = some node) (hf : node ≠ .forward) :
    eval (silent a table) (n + 1) false h c () = eval (silent a table) (n + 1) false k c () := by
  rw [eval_silent hh, eval_silent hk, evalNode_congr hf]

theorem yields_congr {k : Handle} {node : Node} (hh : a.node? h = some node)
    (hk : a.node? k = some node) (hf : node ≠ .forward) {t : List Char} {v : Verdict}
    (hy : Yields (silent a table) false k t () v ()) :
    Yields (silent a table) false h t () v () :=
  (yields_node (g := silent a table) hh (hy.content hk rfl hf h)).plain rfl

theorem parse_silent {σ : Type u} {g : Grammar σ} (ha : g.arena = a) (hr : g.rules = table)
    {text : String} {s : σ} :
    (g.parse h text s).1 = ((silent a table).parse h text ()).1 := by
  have hdepth : g.depth text = (silent a table).depth text := by rw [Grammar.depth, ha]; rfl
  rw [Grammar.parse, hdepth]
  exact eval_outcome g (silent a table) ha hr _ _ _ h _ s ()

theorem predefined_silent {σ : Type u} {g : Grammar σ} (ha : g.arena = a) (hr : g.rules = table)
    {s : σ} {predefined : RuleTable} :
    g.Predefined s predefined = (silent a table).Predefined () predefined := by
  funext m t v
  simp only [Grammar.Predefined, parse_silent ha hr]

theorem predefined_iff {predefined : RuleTable} {m : String} {t : List Char} {v : Verdict} :
    (silent a table).Predefined () predefined m t v ↔
      ∃ h, predefined[m]? = some h ∧ Yields (silent a table) false h t () v () := by
  refine exists_congr fun h => and_congr_right fun _ => ?_
  have hy : Yields (silent a table) false h (String.ofList t).toList () v () ↔ _ := parse_iff_yields
  rw [String.toList_ofList] at hy
  rw [hy]
  constructor
  · exact fun ho => ⟨_, rfl, ho⟩
  · rintro ⟨o, he, ho⟩
    rwa [he]

end

namespace Bnf

section
variable {rs : RuleSet} {predefined table rules : RuleTable} {a : Arena}
  {outer : String → List Char → Verdict → Prop}

/-- What the rules mean when names without a definition mean what is predefined for them. -/
abbrev RuleSet.Says (rs : RuleSet) (predefined table : RuleTable) (a : Arena) :
    Mode → Goal → List Char → Verdict → Prop :=
  Meaning rs.definitions rs.options ((silent a table).Predefined () predefined)

/-! ## From evaluations to meanings -/

theorem meaning_lit {m : Mode} {text : String} {c : Cursor} {v : Verdict}
    (hv : (c.takeText text.toList).verdict? = some v) :
    Meaning rs.definitions rs.options outer m (.body (.lit text)) c.rest v := by
  unfold Cursor.takeText at hv
  split at hv
  · rename_i hp
    obtain ⟨rest, hrest⟩ := List.isPrefixOf_iff_prefix.mp hp
    obtain rfl := Option.some.inj hv
    rw [Cursor.advance, ← hrest, List.drop_left]
    exact .litTook rfl
  · rename_i hp
    obtain rfl := Option.some.inj hv
    exact .litRefused (mt List.isPrefixOf_iff_prefix.mpr hp)

theorem verdict_nothing {n : Nat} {nothing : Handle} {c : Cursor} {v : Verdict}
    (hn : a.node? nothing = some (.sequence []))
    (hv : (firstOf (eval (silent a rules) n false) [nothing] c ()).1.verdict? = some v) :
    v = .took c.rest := by
  cases n with
  | zero => cases hv
  | succ n =>
    simp only [firstOf, eval_silent hn] at hv
    exact (Option.some.inj hv).symm

/-- Evaluations to the depth `n` agree with the rules, when names without a definition mean what
`outer` says. -/
def Sound (rs : RuleSet) (table rules : RuleTable) (a : Arena)
    (outer : String → List Char → Verdict → Prop) (n : Nat) : Prop :=
  ∀ {m b h c v}, Means rs table a m b h →
    (eval (silent a rules) n false h c ()).1.verdict? = some v →
    Meaning rs.definitions rs.options outer m (.body b) c.rest v

section
variable {n : Nat} (hs : Sound rs table rules a outer n) {m : Mode}
include hs

theorem Sound.all : ∀ {bs : List Body} {es : List Handle} {c : Cursor} {v : Verdict},
    MeansAll rs table a m bs es →
    (allOf (eval (silent a rules) n false) es c ()).1.verdict? = some v →
    Meaning rs.definitions rs.options outer m (.all bs) c.rest v
  | [], _, c, v, rfl, hv => by
    obtain rfl := Option.some.inj hv
    exact .allNil
  | b :: bs, _, c, v, ⟨e, es, hm, hms, rfl⟩, hv => by
    rcases he : eval (silent a rules) n false e c () with ⟨o, _⟩
    simp only [allOf, he] at hv
    cases o with
    | matched d => exact .allCons (hs hm (by rw [he]; rfl)) (Sound.all hms hv)
    | exhausted => cases hv
    | _ =>
      obtain rfl := Option.some.inj hv
      exact .allStop (hs hm (by rw [he]; rfl)) (by simp)

theorem Sound.first : ∀ {bs : List Body} {es : List Handle} {c : Cursor} {v : Verdict},
    MeansAll rs table a m bs es →
    (firstOf (eval (silent a rules) n false) es c ()).1.verdict? = some v →
    Meaning rs.definitions rs.options outer m (.first bs) c.rest v
  | [], _, c, v, rfl, hv => by
    obtain rfl := Option.some.inj hv
    exact .firstNil
  | b :: bs, _, c, v, ⟨e, es, hm, hms, rfl⟩, hv => by
    rcases he : eval (silent a rules) n false e c () with ⟨o, _⟩
    simp only [firstOf, he] at hv
    cases o with
    | failed d => exact .firstCons (hs hm (by rw [he]; rfl)) (Sound.first hms hv)
    | exhausted => cases hv
    | _ =>
      obtain rfl := Option.some.inj hv
      exact .firstHead (hs hm (by rw [he]; rfl)) (by simp)

theorem Sound.more {b : Body} {e : Handle} (hm : Means rs table a m b e) :
    ∀ {ahead : List Char} {enough : Bool} {c : Cursor} {v : Verdict},
      (many (eval (silent a rules) n false) e ahead enough c ()).1.verdict? = some v →
      Meaning rs.definitions rs.options outer m (.more b enough) c.rest v
  | ahead, enough, c, v, hv => by
    rcases he : eval (silent a rules) n false e c () with ⟨o, _⟩
    have hb {v : Verdict} (ho : o.verdict? = some v) :
        Meaning rs.definitions rs.options outer m (.body b) c.rest v :=
      hs hm (by rw [he]; exact ho)
    rw [many.eq_def] at hv
    simp only [he] at hv
    cases o with
    | failed d =>
      have : v = if enough then .took c.rest else .refused := by
        cases enough <;> exact (Option.some.inj hv).symm
      rw [this]
      exact .moreStop (hb rfl)
    | fault f =>
      obtain rfl := Option.some.inj hv
      exact .moreFault (hb rfl)
    | exhausted => cases hv
    | matched d =>
      have hr : c.Reaches d := by
        have := eval_liesFrom (silent a rules) n false e c ()
        rwa [he] at this
      by_cases hd : d.offset = c.offset
      · simp only [if_pos hd] at hv
        obtain rfl := Option.some.inj hv
        have hrest := hr.offset_eq_iff.mp hd
        rw [hrest]
        exact .moreIdle (hrest ▸ hb rfl)
      · simp only [if_neg hd] at hv
        cases ahead with
        | nil => cases hv
        | cons _ ahead =>
          exact .moreStep (hb rfl) (mt hr.offset_eq_iff.mpr hd) (Sound.more hm hv)

/-- What the engine makes of names without a definition, at the depth `n`, is what they mean. -/
def Agrees (rs : RuleSet) (table rules : RuleTable) (a : Arena)
    (outer : String → List Char → Verdict → Prop) (n : Nat) : Prop :=
  ∀ {m h c v}, rs.definitions[m]? = none → table[m]? = some h →
    (eval (silent a rules) n false h c ()).1.verdict? = some v → outer m c.rest v

/-- One level deeper, an expression agrees with the body that it stands for if it does so with the
rules whose expression it is. -/
theorem Sound.succ (ho : Agrees rs table rules a outer (n + 1)) {h : Handle} {c : Cursor} {v : Verdict}
    (hv : (eval (silent a rules) (n + 1) false h c ()).1.verdict? = some v) :
    ∀ {b : Body} {m : Mode}, Means rs table a m b h →
      (∀ n' ∈ b.names, ∀ d, rs.definitions[n']? = some d → table[n']? = some h →
        Meaning rs.definitions rs.options outer d.mode (.body d.body) c.rest v) →
      Meaning rs.definitions rs.options outer m (.body b) c.rest v
  | .name n', m, hm, hn => by
    cases hd : rs.definitions[n']? with
    | some d => exact .defined hd (hn n' List.mem_cons_self d hd hm)
    | none => exact .outer hd (ho hd hm hv)
  | .lit text, m, hm, _ => by
    rw [eval_silent hm] at hv
    exact meaning_lit hv
  | .opt b, m, ⟨e, nothing, hm, hn, hc⟩, _ => by
    rw [eval_silent hc] at hv
    rcases he : eval (silent a rules) n false e c () with ⟨o, _⟩
    simp only [evalNode, firstOf, he] at hv
    cases o with
    | failed d =>
      have hv : (firstOf (eval (silent a rules) n false) [nothing] c ()).1.verdict? = some v := hv
      obtain rfl := verdict_nothing hn hv
      exact .optNothing (hs hm (by rw [he]; rfl))
    | exhausted => cases hv
    | _ =>
      obtain rfl := Option.some.inj hv
      exact .optHead (hs hm (by rw [he]; rfl)) (by simp)
  | .plus b, m, ⟨e, hm, hc⟩, _ => by
    rw [eval_silent hc] at hv
    exact .plus (hs.more hm hv)
  | .disj bs, m, ⟨es, hm, hj⟩, hn => by
    rcases hj.cases with rfl | hc
    · obtain ⟨b, rfl, hb⟩ := hm.eq_singleton
      exact .disj (.firstSingle (Sound.succ ho hv hb fun n' hb =>
        hn n' (List.mem_append_left _ hb)))
    · rw [eval_silent hc] at hv
      exact .disj (hs.first hm hv)
  | .conj bs, m, ⟨es, ws, hm, hws, hj⟩, hn => by
    rcases hj.cases with hsingle | hc
    · obtain ⟨rfl, rfl⟩ := interleave_eq_singleton hsingle
      obtain ⟨b, rfl, hb⟩ := hm.eq_singleton
      refine .conj ?_
      rw [Options.spaced, hws.2 rfl]
      exact .allSingle (Sound.succ ho hv hb fun n' hb => hn n' (List.mem_append_left _ hb))
    · rw [eval_silent hc] at hv
      exact .conj (hs.all (hm.spaced hws) hv)

theorem Sound.made (ho : Agrees rs table rules a outer (n + 1)) {d : Definition} {h : Handle}
    {c : Cursor} {v : Verdict} (hm : Made rs table a d h)
    (hv : (eval (silent a rules) (n + 1) false h c ()).1.verdict? = some v) :
    Meaning rs.definitions rs.options outer d.mode (.body d.body) c.rest v := by
  induction hm with
  | refer hm hn =>
    rw [eval_silent hn] at hv
    exact hs hm hv
  | copy hm he hn hf _ ih =>
    -- At this depth it is `e` that is evaluated. It may belong to a rule that was made before, and
    -- `ih` is about that one.
    rw [eval_silent_congr hn he hf] at hv
    exact hs.succ ho hv hm fun n' hn' d' hd' ht => ih n' hn' d' hd' ht hv

theorem Sound.deeper (hreal : Realized rs predefined table a)
    (ho : Agrees rs table rules a outer (n + 1)) : Sound rs table rules a outer (n + 1) := by
  intro m b h c v hm hv
  refine hs.succ ho hv hm fun n' _ d hd ht => ?_
  obtain ⟨k, hk, hmade⟩ := hreal.defined n' d hd
  obtain rfl := Option.some.inj (ht.symm.trans hk)
  exact hs.made ho hmade hv

end

theorem sound_zero : Sound rs table rules a outer 0 := by
  intro m b h c v _ hv
  cases hv

theorem agrees_of_realized (hreal : Realized rs predefined table a) (n : Nat) :
    Agrees rs table table a ((silent a table).Predefined () predefined) n := by
  intro m h c v hd ht hv
  rw [hreal.outer m hd] at ht
  exact predefined_iff.mpr ⟨h, ht, yields_of_eval rfl hv⟩

theorem sound_of_realized (hreal : Realized rs predefined table a) (n : Nat) :
    Sound rs table table a ((silent a table).Predefined () predefined) n := by
  induction n with
  | zero => exact sound_zero
  | succ n ih => exact ih.deeper hreal (agrees_of_realized hreal (n + 1))

/-! ## From meanings to evaluations -/

/-- The engine comes to the verdict in all that was made for the goal. -/
def Complete (rs : RuleSet) (table rules : RuleTable) (a : Arena) (m : Mode) :
    Goal → List Char → Verdict → Prop
  | .body b, t, v => ∀ h, Means rs table a m b h → Yields (silent a rules) false h t () v ()
  | .all bs, t, v => ∀ es, MeansAll rs table a m bs es →
      YieldsAll (silent a rules) false es t () v ()
  | .first bs, t, v => ∀ es, MeansAll rs table a m bs es →
      YieldsFirst (silent a rules) false es t () v ()
  | .more b enough, t, v => ∀ h, Means rs table a m b h →
      YieldsMany (silent a rules) false h enough t () v ()

theorem complete_of_outer (hreal : Realized rs predefined table a)
    (ho : ∀ {n h t v}, rs.definitions[n]? = none → table[n]? = some h → outer n t v →
      Yields (silent a rules) false h t () v ()) {m : Mode} {goal : Goal}
    {t : List Char} {v : Verdict} (h : Meaning rs.definitions rs.options outer m goal t v) :
    Complete rs table rules a m goal t v := by
  induction h with
  | litTook h =>
    intro k hm
    rw [h]
    exact yields_literal (g := silent a rules) _ hm _
  | litRefused h => exact fun k hm => yields_literal_refused hm h
  | defined hd _ ih =>
    intro k hm
    obtain ⟨k', hk, hmade⟩ := hreal.defined _ _ hd
    obtain rfl := Option.some.inj (hm.symm.trans hk)
    cases hmade with
    | refer hm hn => exact yields_aliasOf hn (ih _ hm)
    | copy hm he hn hf _ => exact yields_congr hn he hf (ih _ hm)
  | outer hd h =>
    exact fun k hm => ho hd hm h
  | optHead _ hv ih =>
    intro k hk
    obtain ⟨e, nothing, hm, hn, hc⟩ := hk
    exact yields_choice hc (yieldsFirst_head (ih e hm) hv)
  | optNothing _ ih =>
    intro k hk
    obtain ⟨e, nothing, hm, hn, hc⟩ := hk
    exact yields_choice hc (yieldsFirst_cons (ih e hm)
      (yieldsFirst_head (yields_sequence hn yieldsAll_nil) nofun))
  | plus _ ih =>
    intro k hk
    obtain ⟨e, hm, hc⟩ := hk
    exact yields_oneOrMore hc (ih e hm)
  | conj _ ih =>
    intro k hk
    obtain ⟨es, ws, hm, hws, hj⟩ := hk
    have hall := ih _ (hm.spaced hws)
    rcases hj.cases with hs | hc
    · rw [hs] at hall
      exact yieldsAll_singleton hall
    · exact yields_sequence hc hall
  | disj _ ih =>
    intro k hk
    obtain ⟨es, hm, hj⟩ := hk
    have hfirst := ih _ hm
    rcases hj.cases with hs | hc
    · rw [hs] at hfirst
      exact yieldsFirst_singleton hfirst
    · exact yields_choice hc hfirst
  | allNil =>
    intro es hes
    obtain rfl := hes
    exact yieldsAll_nil
  | allCons _ _ ih ihs =>
    intro es hes
    obtain ⟨e, es, hm, hms, rfl⟩ := hes
    exact yieldsAll_cons (ih e hm) (ihs es hms)
  | @allStop _ _ _ _ v _ hv ih =>
    intro es hes
    obtain ⟨e, es, hm, hms, rfl⟩ := hes
    cases v with
    | took rest => exact absurd rfl (hv rest)
    | refused => exact yieldsAll_refused (ih e hm)
    | fault f => exact yieldsAll_fault (ih e hm)
  | firstNil =>
    intro es hes
    obtain rfl := hes
    exact yieldsFirst_nil
  | firstCons _ _ ih ihs =>
    intro es hes
    obtain ⟨e, es, hm, hms, rfl⟩ := hes
    exact yieldsFirst_cons (ih e hm) (ihs es hms)
  | firstHead _ hv ih =>
    intro es hes
    obtain ⟨e, es, hm, hms, rfl⟩ := hes
    exact yieldsFirst_head (ih e hm) hv
  | moreStop _ ih => exact fun k hm => yieldsMany_stop (ih k hm)
  | moreFault _ ih => exact fun k hm => yieldsMany_fault (ih k hm)
  | moreIdle _ ih => exact fun k hm => yieldsMany_idle (ih k hm)
  | moreStep _ hne _ ih ihs => exact fun k hm => yieldsMany_step (ih k hm) hne (ihs k hm)

theorem complete_of_realized (hreal : Realized rs predefined table a) {m : Mode} {goal : Goal}
    {t : List Char} {v : Verdict} (h : rs.Says predefined table a m goal t v) :
    Complete rs table table a m goal t v := by
  refine complete_of_outer hreal (fun {n k t v} hd ht ho => ?_) h
  obtain ⟨k', hk, hy⟩ := predefined_iff.mp ho
  rw [← hreal.outer n hd] at hk
  obtain rfl := Option.some.inj (ht.symm.trans hk)
  exact hy

end

/-! ## Compilation -/

/-- Lists of numbers with blanks between them, up to what a digit is. -/
def numberList : Definitions :=
  Std.TreeMap.empty
    |>.insert "list"
      ⟨.disj [.conj [.name "number", .lit ",", .name "list"], .name "number"], .loose⟩
    |>.insert "number" ⟨.conj [.plus (.name "digit")], .strict⟩
    |>.insert "ws" ⟨.opt (.plus (.lit " ")), .strict⟩

def digitOnly : RuleTable × Arena :=
  (Std.TreeMap.empty.insert "digit" 0, (Building.oneOf "0123456789" ∅).2)

/-- In a grammar that has the rules of a source, what the engine makes of the expression for a rule
is what the rule means, where other names mean what is predefined for them. -/
theorem make_preserves_meaning {σ : Type u} {defs : Definitions} {options : Options}
    {predefined table : RuleTable} {w w' : Workshop}
    (hb : make defs options predefined w = (.ok table, w')) {g : Grammar σ}
    (ha : g.arena = w'.arena) (hr : g.rules = table) (s : σ) {n : String} {d : Definition}
    (hd : defs[n]? = some d) :
    ∃ h, table[n]? = some h ∧
      (∀ (m : Mode) (text : String) (v : Verdict), (g.parse h text s).1.verdict? = some v ↔
        Meaning defs options (g.Predefined s predefined) m (.body (.name n)) text.toList v) ∧
      ∀ (text : String) (rest : List Char), (g.parse h text s).1.verdict? = some (.took rest) →
        ∃ u, text.toList = u ++ rest ∧ (g.parse h text s).1.consumed? = some (byteLength u) := by
  obtain ⟨rs, hrs, hreal⟩ := make_eq hb
  obtain rfl := ofDefinitions_eq hrs
  obtain ⟨h, ht, -⟩ := hreal.defined n d hd
  refine ⟨h, ht, fun m text v => ?_, fun text rest hv => parse_consumed? hv⟩
  rw [predefined_silent ha hr, parse_silent ha hr]
  constructor
  · exact fun hv => sound_of_realized hreal _ (m := m) (b := .name n) ht hv
  · intro hm
    obtain ⟨o, he, ho⟩ := parse_iff_yields.mp (complete_of_realized hreal hm h ht)
    rwa [he]

theorem make_preserves_meaning_numberList :
    ∃ table w', make numberList ⟨some "ws", .interleave⟩ digitOnly.1 ⟨digitOnly.2, #[]⟩ =
        (.ok table, w') ∧
      Meaning numberList ⟨some "ws", .interleave⟩
        ((silent w'.arena table).Predefined () digitOnly.1) .strict (.body (.name "list"))
        "1, 23!".toList (.took ['!']) := by
  have hparse : (let made := make numberList ⟨some "ws", .interleave⟩ digitOnly.1 ⟨digitOnly.2, #[]⟩
      made.1.toOption.bind fun table => table["list"]?.bind fun h =>
        ((silent made.2.arena table).parse h "1, 23!" ()).1.verdict?) = some (.took ['!']) := by
    decide +kernel
  rcases hb : make numberList ⟨some "ws", .interleave⟩ digitOnly.1 ⟨digitOnly.2, #[]⟩ with
    ⟨e | table, w'⟩
  · rw [hb] at hparse
    cases hparse
  · rw [hb] at hparse
    have hparse : (table["list"]?.bind fun h =>
        ((silent w'.arena table).parse h "1, 23!" ()).1.verdict?) = some (.took ['!']) := hparse
    have hd : numberList["list"]? = some
        ⟨.disj [.conj [.name "number", .lit ",", .name "list"], .name "number"], .loose⟩ := by
      decide +kernel
    obtain ⟨h, ht, hiff, -⟩ :=
      make_preserves_meaning hb (g := silent w'.arena table) rfl rfl () hd
    obtain ⟨k, hk, hv⟩ := Option.bind_eq_some_iff.mp hparse
    obtain rfl := Option.some.inj (ht.symm.trans hk)
    exact ⟨table, w', rfl, (hiff .strict "1, 23!" _).mp hv⟩

end Bnf

end Peg
