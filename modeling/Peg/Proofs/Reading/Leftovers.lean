import Peg.Proofs.Reading.NormalForm
import Peg.Proofs.Reading.Agreement

/-!
# What failed attempts leave

An attempt to read an expression that fails leaves the words that it has read on the stack. It
leaves nothing exactly where no word begins behind the brackets that the text opens with. Since a
graphic literal is read after such an attempt, this decides whether the rule is read.
-/

namespace Peg.Bnf

namespace Direct

/-! ## Texts without a word at their front -/

/-- What stands behind white space and opening brackets. -/
def inside : List Char → List Char
  | [] => []
  | c :: t =>
    if ((blankLine (c :: t)).isNone && isGap c) || c == '[' || c == '\x7b' then inside t else c :: t

/-- A word begins here: a quoted literal, a bare one, or a name, which need not be closed. -/
def opensWord (t : List Char) : Bool :=
  (quoted t).isSome || (bare t).isSome || ((symbol '<' t).bind (run isNameChar)).isSome

def isWordless (t : List Char) : Bool :=
  !opensWord (inside t)

theorem inside_skip (t : List Char) : inside (skip t) = inside t := by
  induction t with
  | nil => rfl
  | cons c t ih =>
    rw [skip]
    split
    · rename_i h
      rw [ih, inside, h]
      rfl
    · rfl

theorem isWordless_skip (t : List Char) : isWordless (skip t) = isWordless t := by
  rw [isWordless, inside_skip, isWordless]

theorem isWordless_bracket {c : Char} (hc : c = '[' ∨ c = '\x7b') (t : List Char) :
    isWordless (c :: t) = isWordless t := by
  have : inside (c :: t) = inside t := by
    rw [inside, if_pos]
    rcases hc with rfl | rfl <;> simp
  rw [isWordless, this, isWordless]

theorem isWordless_iff_not_opensWord {c : Char} {t : List Char} (ht : skip (c :: t) = c :: t)
    (ho : c ≠ '[') (hb : c ≠ '\x7b') : isWordless (c :: t) ↔ opensWord (c :: t) = false := by
  have : inside (c :: t) = c :: t := by
    have hgap : ((blankLine (c :: t)).isNone && isGap c) = false := by
      rw [← Bool.not_eq_true]
      intro h
      rw [skip, if_pos h] at ht
      have := congrArg List.length ht
      have := length_skip_le t
      simp only [List.length_cons] at *
      omega
    rw [inside, hgap, if_neg]
    simp [ho, hb]
  rw [isWordless, this, Bool.not_eq_true']

theorem symbol_of_ne {c d : Char} (h : d ≠ c) (t : List Char) : symbol c (d :: t) = none :=
  if_neg h

theorem no_literal_bracket {c : Char} (hc : c = '[' ∨ c = '\x7b') (t : List Char) :
    quoted (c :: t) = none ∧ bare (c :: t) = none := by
  rcases hc with rfl | rfl
  · exact ⟨rfl, rfl⟩
  · exact ⟨rfl, rfl⟩

/-- At the front of a text or behind the bracket there. -/
theorem isWordless_iff {t : List Char} (ht : skip t = t) :
    isWordless t ↔ quoted t = none ∧ bare t = none ∧
      (symbol '<' t).bind (run isNameChar) = none ∧
        (∀ r, symbol '[' t = some r → isWordless r) ∧
          ∀ r, symbol '\x7b' t = some r → isWordless r := by
  cases t with
  | nil => simp [isWordless, inside, opensWord, symbol, quoted, bare, run]
  | cons c t =>
    by_cases ho : c = '['
    · subst ho
      obtain ⟨hq, hb⟩ := no_literal_bracket (.inl rfl) t
      rw [isWordless_bracket (.inl rfl), symbol_self, hq, hb]
      simp [symbol]
    · by_cases hc : c = '\x7b'
      · subst hc
        obtain ⟨hq, hb⟩ := no_literal_bracket (.inr rfl) t
        rw [isWordless_bracket (.inr rfl), symbol_self, hq, hb]
        simp [symbol]
      · rw [isWordless_iff_not_opensWord ht ho hc, symbol_of_ne ho, symbol_of_ne hc]
        simp [opensWord, and_assoc]

/-! ## Expressions that are not read -/

section
variable {inner : List Char → Option (Body × List Char)} {t : List Char}

theorem name_eq_none (h : (symbol '<' t).bind (run isNameChar) = none) : name t = none := by
  cases hs : symbol '<' t with
  | none => simp [name, hs]
  | some r =>
    rw [hs, Option.bind_some] at h
    simp [name, hs, h]

theorem primary_eq_none_iff : primary inner t = none ↔
    name t = none ∧ quoted t = none ∧ bare t = none ∧ enclosed inner '[' ']' t = none ∧
      enclosed inner '\x7b' '\x7d' t = none := by
  unfold primary
  cases name t <;> cases quoted t <;> cases bare t <;> cases enclosed inner '[' ']' t <;> simp

/-- Only the first part of an expression can keep it from being read. -/
theorem choice_eq_none_iff : choice inner t = none ↔ primary inner (skip t) = none := by
  unfold choice sequence postfixed
  rw [skip_skip]
  cases primary inner (skip t) with
  | none => exact iff_of_true rfl rfl
  | some r => exact iff_of_false nofun nofun

theorem expressionAt_of_wordless (n : Nat) (h : isWordless t) : expressionAt n t = none := by
  induction n generalizing t with
  | zero => rfl
  | succ n ih =>
    have enclosed_none {o c : Char} (hr : ∀ r, symbol o (skip t) = some r → isWordless r) :
        enclosed (expressionAt n) o c (skip t) = none := by
      cases hs : symbol o (skip t) with
      | none => simp [enclosed, skip_skip, hs]
      | some r =>
        have : expressionAt n (skip r) = none := ih (by rw [isWordless_skip]; exact hr r hs)
        simp [enclosed, skip_skip, hs, this]
    rw [← isWordless_skip, isWordless_iff (skip_skip t)] at h
    obtain ⟨hq, hb, hn, ho, hc⟩ := h
    exact choice_eq_none_iff.mpr (primary_eq_none_iff.mpr
      ⟨name_eq_none hn, hq, hb, enclosed_none ho, enclosed_none hc⟩)

end

/-! ## Right-hand sides -/

def heading (t : List Char) : Option ((String × Mode) × List Char) := do
  let (n, t) ← name (skip t)
  let (m, t) ← assigns (skip t)
  return ((n, m), t)

def sideText (t : List Char) : Option (List Char) :=
  (heading t).map fun r => skip r.2

theorem heading_eq_some_iff {t t₂ : List Char} {n : String} {m : Mode} :
    heading t = some ((n, m), t₂) ↔
      ∃ t₁, name (skip t) = some (n, t₁) ∧ assigns (skip t₁) = some (m, t₂) := by
  simp only [heading, Option.bind_eq_bind, Option.bind_eq_some_iff, Prod.exists]
  constructor
  · rintro ⟨n', t₁, hn, m', t₂', ha, he⟩
    cases he
    exact ⟨t₁, hn, ha⟩
  · rintro ⟨t₁, hn, ha⟩
    exact ⟨_, t₁, hn, _, t₂, ha, rfl⟩

theorem rule_eq_some_iff_heading {t : List Char} {r : Reading} : rule t = some r ↔
    ∃ t₂ t₃, heading t = some ((r.name, r.definition.mode), t₂) ∧
      side (skip t₂) = some (r.side, r.definition.body, t₃) ∧ stop (skip t₃) = some r.rest := by
  rw [rule_eq_some_iff]
  constructor
  · rintro ⟨t₁, t₂, t₃, hn, ha, h⟩
    exact ⟨t₂, t₃, heading_eq_some_iff.mpr ⟨t₁, hn, ha⟩, h⟩
  · rintro ⟨t₂, t₃, hh, h⟩
    obtain ⟨t₁, hn, ha⟩ := heading_eq_some_iff.mp hh
    exact ⟨t₁, t₂, t₃, hn, ha, h⟩

theorem side_eq_graphic {t rest : List Char} {b : Body} (h : side t = some (.graphic, b, rest)) :
    expression t = none ∧ ∃ u, graphic t = some (u, rest) ∧ b = .lit u := by
  unfold side at h
  split at h
  · cases h
  · rename_i he
    obtain ⟨⟨u, r⟩, hg, he'⟩ := Option.map_eq_some_iff.mp h
    cases he'
    exact ⟨he, u, hg, rfl⟩

end Direct

namespace Layout

open Direct

variable {t : List Char} {s : Reductions}

/-! ## What an expression leaves that is not read -/

/-- The expression is given up, and leaves nothing only if the text is without a word. -/
def Leaves (h : Handle) (t : List Char) (s : Reductions) : Prop :=
  ∃ js, Yields grammar false h t s .refused (atop s js) ∧ (js = [] ↔ isWordless t)

theorem atop_inj {js ks : List Body} (h : atop s js = atop s ks) : js = ks := by
  have hstack : js.map Item.body ++ s.stack = ks.map Item.body ++ s.stack :=
    congrArg Reductions.stack h
  exact List.map_injective_iff.mpr (fun _ _ => Item.body.inj) (List.append_cancel_right hstack)

/-- The parts before the first one of an expression take only white space. -/
theorem refused_expression {s' : Reductions}
    (h : Yields grammar false primary (skip t) s .refused s') :
    Yields grammar false Layout.expression t s .refused s' := by
  have hpostfixed : Yields grammar false postfixed (skip t) s .refused s' :=
    (yields_sequence rfl (yieldsAll_refused h)).plain rfl
  have hsequence : Yields grammar false Layout.sequence (skip t) s .refused s' := by
    rw [← skip_skip] at hpostfixed
    exact (yields_sequence rfl (yieldsAll_cons yields_ws (yieldsAll_refused hpostfixed))).plain rfl
  exact (yields_sequence rfl (yieldsAll_cons yields_ws (yieldsAll_refused hsequence))).plain rfl

section
variable {n : Nat}
variable (ih : ∀ {t : List Char} {s : Reductions}, t.length < n → expressionAt n t = none →
  Leaves Layout.expression t s)
include ih

theorem LeftBy.eq_nil_iff {o : Char} {js : List Body} (h : LeftBy (expressionAt n) o t s js)
    (hn : t.length ≤ n) :
    js = [] ↔ ∀ r, symbol o (skip t) = some r → isWordless r := by
  unfold LeftBy at h
  cases hs : symbol o (skip t) with
  | none =>
    rw [hs] at h
    exact iff_of_true h nofun
  | some r =>
    have hlen : (skip r).length < n :=
      (length_skip_le r).trans_lt ((length_lt_of_symbol hs).trans_le hn)
    have hr : (∀ r', some r = some r' → isWordless r') ↔ isWordless (skip r) := by
      rw [isWordless_skip]
      exact ⟨fun h => h r rfl, fun h r' hr' => Option.some.inj hr' ▸ h⟩
    rw [hs] at h
    rw [hr]
    cases hi : expressionAt n (skip r) with
    | none =>
      simp only [hi] at h
      obtain ⟨ks, hy, hks⟩ := ih (s := s) hlen hi
      rw [atop_inj (h.unique hy).2]
      exact hks
    | some r' =>
      simp only [hi] at h
      refine iff_of_false h fun hw => ?_
      rw [expressionAt_of_wordless n hw] at hi
      cases hi

theorem leaves_primary (hn : t.length ≤ n) (ht : skip t = t)
    (hp : Direct.primary (expressionAt n) t = none) : Leaves primary t s := by
  obtain ⟨hname, hquoted, hbare, hoptional, hbraces⟩ := primary_eq_none_iff.mp hp
  have yname := yields_name (t := t) (s := s)
  rw [hname] at yname
  obtain ⟨js, yname, hjs⟩ := yname
  have yquoted := pushes_quoted (t := t) (s := atop s js)
  have ybare := pushes_bare (t := t) (s := atop s js)
  rw [hquoted] at yquoted
  rw [hbare] at ybare
  have yoptional := yields_optional (fun _ _ => reads_expressionAt) (s := atop s js) hn
  rw [hoptional] at yoptional
  obtain ⟨ks, yoptional, hks⟩ := yoptional
  have ybraces := yields_braces (fun _ _ => reads_expressionAt) (s := atop (atop s js) ks) hn
  rw [hbraces] at ybraces
  obtain ⟨ls, ybraces, hls⟩ := ybraces
  refine ⟨ls ++ (ks ++ js), ?_, ?_⟩
  · rw [← atop_atop, ← atop_atop]
    exact (yields_choice rfl (yieldsFirst_cons yname (yieldsFirst_cons yquoted (yieldsFirst_cons
      ybare (yieldsFirst_cons yoptional (yieldsFirst_cons ybraces yieldsFirst_nil)))))).plain rfl
  · rw [List.append_eq_nil_iff, List.append_eq_nil_iff, hls.eq_nil_iff ih hn,
      hks.eq_nil_iff ih hn, hjs, ht, isWordless_iff ht]
    simp only [hquoted, hbare, true_and]
    exact ⟨fun ⟨hc, ho, hj⟩ => ⟨hj, ho, hc⟩, fun ⟨hj, ho, hc⟩ => ⟨hc, ho, hj⟩⟩

end

theorem leaves_expressionAt {n : Nat} (hn : t.length < n) (h : expressionAt n t = none) :
    Leaves Layout.expression t s := by
  induction n generalizing t s with
  | zero => exact absurd hn (Nat.not_lt_zero _)
  | succ n ih =>
    have hlen : (skip t).length ≤ n := (length_skip_le t).trans (Nat.le_of_lt_succ hn)
    obtain ⟨js, hy, hjs⟩ := leaves_primary (s := s) ih hlen (skip_skip t) (choice_eq_none_iff.mp h)
    rw [isWordless_skip] at hjs
    exact ⟨js, refused_expression hy, hjs⟩

theorem leaves_expression (h : Direct.expression t = none) : Leaves Layout.expression t s :=
  leaves_expressionAt (Nat.lt_succ_self _) h

/-! ## Rules -/

/-- A graphic literal is defined on top of what the attempt to read an expression has left. -/
theorem yields_declaration_graphic {r : Reading} (hr : Direct.rule t = some r)
    (hg : r.side = .graphic) :
    ∃ u js, sideText t = some u ∧ (js = [] ↔ isWordless u) ∧
      Yields grammar false declaration t .init (.took r.rest)
        (atop ⟨[.body (.name r.name)], r.definition.mode, none⟩ (r.definition.body :: js)).define := by
  obtain ⟨t₂, t₃, hh, hs, hstop⟩ := rule_eq_some_iff_heading.mp hr
  obtain ⟨t₁, hn, ha⟩ := heading_eq_some_iff.mp hh
  rw [hg] at hs
  obtain ⟨he, u, hu, hb⟩ := side_eq_graphic hs
  obtain ⟨js, hy, hjs⟩ := leaves_expression (s := ⟨[.body (.name r.name)], r.definition.mode, none⟩) he
  have hgraphic := pushes_graphic (t := skip t₂)
    (s := atop ⟨[.body (.name r.name)], r.definition.mode, none⟩ js)
  rw [hu, Option.map_some, Pushes, push_eq_atop, atop_atop] at hgraphic
  have hside := (yields_choice (h := Layout.side) rfl
    (yieldsFirst_cons hy (yieldsFirst_head hgraphic (by simp)))).plain rfl
  have hend := yields_stop (q := false) (t := skip t₃)
    (s := atop ⟨[.body (.name r.name)], r.definition.mode, none⟩ (.lit u :: js))
  rw [hstop] at hend
  refine ⟨skip t₂, js, by rw [sideText, hh]; rfl, hjs, ?_⟩
  rw [hb]
  exact yields_sequence rfl (yieldsAll_heading hn ha
    (yieldsAll_cons hside (yieldsAll_cons yields_ws (yieldsAll_single hend))))

/-- Of the faults, only a body in the place of the name can arise. -/
theorem fault_define_atop {js : List Body} (hjs : 2 ≤ js.length) (b : Body) (m : Mode) :
    (atop ⟨[.body b], m, none⟩ js).define.fault = none ∨
      (atop ⟨[.body b], m, none⟩ js).define.fault = some .noName := by
  match js, hjs with
  | j₁ :: j₂ :: js, _ =>
    cases j₂ with
    | name n => exact .inl rfl
    | _ => exact .inr rfl

end Layout

/-! ## What reading a rule comes to -/

/-- A rule is read as its direct reading, which for a graphic literal needs a right-hand side
without a word. -/
theorem readRule_eq_ok_iff_rule {text : String} {n : String} {d : Definition} :
    readRule text = .ok (n, d) ↔ ∃ r, Direct.rule text.toList = some r ∧ r.name = n ∧
      r.definition = d ∧ r.rest.all isWhiteSpace ∧
        (r.side = .graphic → ∃ u, Direct.sideText text.toList = some u ∧ Direct.isWordless u) := by
  constructor
  · intro h
    obtain ⟨r, hr, hrest, hn, hd⟩ := exists_rule_of_readRule h
    refine ⟨r, hr, hn, hd, hrest, fun hg => ?_⟩
    obtain ⟨u, js, hu, hjs, hy⟩ := Layout.yields_declaration_graphic hr hg
    refine ⟨u, hu, hjs.mp ?_⟩
    obtain ⟨-, -, hf, hres, -⟩ := (readRule_eq_ok_iff hy).mp h
    cases js with
    | nil => rfl
    | cons j js =>
      have hlen : 2 ≤ (r.definition.body :: j :: js).length := by simp
      have hlost := Layout.result?_define_atop hlen (.name r.name) r.definition.mode hf
      rw [hlost] at hres
      cases hres
  · rintro ⟨r, hr, rfl, rfl, hrest, hword⟩
    cases hs : r.side with
    | expression => exact readRule_of_rule hr hs hrest
    | graphic =>
      obtain ⟨u, hu, hw⟩ := hword hs
      obtain ⟨u', js, hu', hjs, hy⟩ := Layout.yields_declaration_graphic hr hs
      obtain rfl : u = u' := Option.some.inj (hu.symm.trans hu')
      obtain rfl := hjs.mpr hw
      exact (readRule_eq_ok_iff hy).mpr ⟨_, rfl, rfl, rfl, hrest⟩

/-- Every text is read as a rule, or is reported as unreadable, or lacks the name of the rule when
a graphic literal is defined. -/
theorem readRule_outcome (text : String) :
    (∃ n d, readRule text = .ok (n, d)) ∨
      readRule text = .error (.unreadable 1 (String.ofList (trim text.toList))) ∨
        readRule text = .error (.reduction .noName) ∧
          ∃ r, Direct.rule text.toList = some r ∧ r.side = .graphic := by
  have h := Layout.yields_declaration (t := text.toList)
  cases hr : Direct.rule text.toList with
  | none =>
    rw [hr] at h
    obtain ⟨js, m, hy⟩ := h
    exact .inr (.inl (readRule_of_yields hy))
  | some r =>
    rw [hr] at h
    obtain ⟨js, hy, rfl | ⟨hjs, hg⟩⟩ := h
    · have hread := readRule_of_yields hy
      by_cases hrest : r.rest.all isWhiteSpace
      · exact .inl ⟨r.name, r.definition, hread.trans (if_pos hrest)⟩
      · exact .inr (.inl (hread.trans (if_neg hrest)))
    · have hread := readRule_of_yields hy
      unfold Reductions.answer at hread
      have hlost := Layout.result?_define_atop hjs (.name r.name) r.definition.mode
      rcases Layout.fault_define_atop hjs (.name r.name) r.definition.mode with hf | hf
      · rw [hf, hlost hf] at hread
        exact .inr (.inl hread)
      · rw [hf] at hread
        exact .inr (.inr ⟨hread, r, rfl, hg⟩)

end Peg.Bnf
