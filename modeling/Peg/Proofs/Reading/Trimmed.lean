import Peg.Proofs.Reading.Tails

/-!
# Rules and the white space around them

A rule that is read with white space around its text is read without it, and reading ends in the
white space behind it.
-/

namespace Peg.Bnf

namespace Direct

/-! ## Parts of rules -/

section
variable {t w : List Char}

theorem exists_of_run_suffix {p : Char → Bool} {u : String} {r : List Char}
    (h : run p t = some (u, r)) : ∃ c v, t = c :: (v ++ r) ∧ p c := by
  obtain ⟨c, t', rfl, hc, -⟩ := exists_of_run h
  unfold run at h
  split at h
  · cases h
  · rw [List.dropWhile_cons_of_pos hc] at h
    obtain ⟨-, rfl⟩ := Prod.mk.injEq .. ▸ Option.some.inj h
    exact ⟨c, t'.takeWhile p, by rw [List.takeWhile_append_dropWhile], hc⟩

theorem exists_of_heading {x : String × Mode} {r : List Char} (h : heading t = some (x, r)) :
    ∃ u v, skip t = '<' :: u ∧ t = v ++ r := by
  obtain ⟨t₁, hn, ha⟩ := heading_eq_some_iff.mp h
  obtain ⟨z, hz, -⟩ := exists_gaps t
  obtain ⟨z₁, hz₁, -⟩ := exists_gaps t₁
  obtain ⟨t₂, he, hrun⟩ := exists_of_name hn
  obtain ⟨c, v, rfl, -⟩ := exists_of_run_suffix hrun
  rw [assigns_eq_some.mp ha] at hz₁
  refine ⟨_, z ++ '<' :: c :: (v ++ '>' :: (z₁ ++ x.2.sign.toList)), he, ?_⟩
  rw [hz, he, hz₁]
  simp

theorem heading_skip (t : List Char) : heading (skip t) = heading t := by
  rw [heading, heading, skip_skip]

theorem primary_of_gap {inner : List Char → Option (Body × List Char)} {c : Char} (hc : isGap c)
    (ht : skip (c :: t) = c :: t) : primary inner (c :: t) = none := by
  have hgap : ∀ c ∈ " \t\r\n\x0c\x0b".toList, c ≠ '<' ∧ c ≠ '"' ∧ c ≠ '[' ∧ c ≠ '\x7b' ∧
      (c != ' ' && isNameChar c) = false := by simp [isNameChar]
  obtain ⟨hless, hquote, hopen, hbrace, hname⟩ := hgap c (List.contains_iff_mem.mp hc)
  have hbare : bare (c :: t) = none := by
    rw [bare, run, List.takeWhile_cons_of_neg (Bool.not_eq_true _ ▸ hname)]
    rfl
  refine primary_eq_none_iff.mpr ⟨?_, ?_, hbare, ?_, ?_⟩
  · rw [name, symbol_of_ne hless]
    rfl
  · rw [quoted, symbol_of_ne hquote]
    rfl
  · rw [enclosed, ht, symbol_of_ne hopen]
    rfl
  · rw [enclosed, ht, symbol_of_ne hbrace]
    rfl

theorem assigns_of_white (ht : t.all isWhiteSpace) : assigns t = none := by
  cases h : assigns t with
  | none => rfl
  | some r =>
    have hsign : r.1.sign.toList.all isWhiteSpace = false := by cases r.1 <;> decide
    rw [assigns_eq_some.mp h, List.all_append, hsign] at ht
    cases ht

theorem exists_of_side {k : Side} {b : Body} {r : List Char} (h : side (skip t) = some (k, b, r)) :
    ∃ c u v, skip t = c :: u ∧ isGap c = false ∧ skip t = v ++ r := by
  have hsuffix : ∃ v, skip t = v ++ r := by
    have hy := Layout.reads_side (t := skip t) (s := .init)
    rw [h] at hy
    rcases hy with hy | ⟨js, -, hy, -⟩
    · exact hy.suffix
    · exact hy.suffix
  obtain ⟨v, hv⟩ := hsuffix
  cases ht : skip t with
  | nil =>
    rw [ht] at h
    cases h
  | cons c u =>
    refine ⟨c, u, v, rfl, ?_, ht ▸ hv⟩
    rw [← Bool.not_eq_true]
    intro hc
    have hskip : skip (c :: u) = c :: u := by rw [← ht, skip_skip]
    have hexpression : expression (c :: u) = none :=
      choice_eq_none_iff.mpr (hskip.symm ▸ primary_of_gap hc hskip)
    have hgraphic : graphic (c :: u) = none := by
      rw [graphic, run, List.takeWhile_cons_of_neg (by simp [hc])]
      rfl
    rw [ht, side, hexpression, hgraphic] at h
    cases h

theorem exists_of_stop {r : List Char} (h : stop (skip t) = some r) :
    ∃ y, t = y ++ r ∧ y.all isGap ∧ (y = [] → t = []) := by
  obtain ⟨z, hz, hgaps⟩ := exists_gaps t
  unfold stop at h
  cases hb : blankLine (skip t) with
  | some r' =>
    rw [hb] at h
    obtain rfl := Option.some.inj h
    obtain ⟨u, v, he, hu, hv⟩ := blankLine_eq_some hb
    refine ⟨z ++ (u ++ v), by rw [hz, he]; simp, ?_, fun hy => ?_⟩
    · rw [List.all_append, List.all_append, hgaps, all_isGap_of_isLineEnd hu,
        all_isGap_of_isLineEnd hv]
      rfl
    · rcases hu with rfl | rfl <;> simp at hy
  | none =>
    rw [hb] at h
    cases hs : skip t with
    | nil =>
      rw [hs] at h hz
      obtain rfl := Option.some.inj h
      exact ⟨z, hz, hgaps, fun hy => by rw [hz, hy]; rfl⟩
    | cons c u =>
      rw [hs] at h
      cases h

theorem exists_visible {k : Side} {b : Body} {r t₃ : List Char}
    (hs : side (skip t) = some (k, b, t₃)) (hstop : stop (skip t₃) = some r) :
    ∃ v, t = v ++ r ∧ v.all isGap = false := by
  obtain ⟨c, u, v, he, hc, hv⟩ := exists_of_side hs
  obtain ⟨y, rfl, -, hy⟩ := exists_of_stop hstop
  obtain ⟨z, hz, -⟩ := exists_gaps t
  refine ⟨z ++ (v ++ y), by rw [hz, hv]; simp, ?_⟩
  have hfirst : ∃ x, v ++ y = c :: x := by
    rw [he, ← List.append_assoc] at hv
    cases hvy : v ++ y with
    | nil =>
      have hnil := hy (List.append_eq_nil_iff.mp hvy).2
      rw [hvy, (List.append_eq_nil_iff.mp hnil).2] at hv
      cases hv
    | cons d x =>
      rw [hvy] at hv
      exact ⟨x, by rw [(List.cons.inj hv).1]⟩
  obtain ⟨x, hx⟩ := hfirst
  rw [List.all_append, hx, List.all_cons, hc, Bool.false_and, Bool.and_false]

/-! ## Rules before a tail -/

section
variable (hw : IsTail w)
include hw

theorem heading_append : heading (t ++ w) = withTail w (heading t) := by
  have hname := read_of_meets (meets_append t w) hw.white (name_append_tail hw)
    (fun _ => name_of_white) fun _ => name_of_white
  unfold heading
  rw [hname]
  cases name (skip t) with
  | none => rfl
  | some r =>
    obtain ⟨n, t₁⟩ := r
    have hassigns := read_of_meets (meets_append t₁ w) hw.white (assigns_append hw)
      (fun _ => assigns_of_white) fun _ => assigns_of_white
    simp only [withTail_some, Option.bind_eq_bind, Option.bind_some]
    rw [hassigns]
    cases assigns (skip t₁) <;> rfl

theorem side_append : (side t = none ∧ side (t ++ w) = none) ∨
    ∃ k b r r', side t = some (k, b, r) ∧ side (t ++ w) = some (k, b, r') ∧ Meets w r r' := by
  have he := expression_append (t := t) hw
  have hg := graphic_append (t := t) hw
  unfold side
  cases hr : expression t with
  | none =>
    rw [hr] at he
    rw [he.eq_none, hg]
    cases graphic t with
    | none => exact .inl ⟨rfl, rfl⟩
    | some r => exact .inr ⟨_, _, _, _, rfl, rfl, meets_append r.2 w⟩
  | some r =>
    rw [hr] at he
    obtain ⟨r', hr', hmeets⟩ := he.eq_some
    rw [hr']
    exact .inr ⟨_, _, _, _, rfl, rfl, hmeets⟩

omit hw in
theorem opensWord_of_white (ht : t.all isWhiteSpace) : opensWord t = false := by
  rw [opensWord, quoted_of_white ht, bare_of_white ht, symbol_of_white (by decide) ht]
  rfl

omit hw in
theorem inside_suffix (t : List Char) : inside t <:+ t := by
  induction t with
  | nil => exact List.suffix_refl _
  | cons c t ih =>
    rw [inside]
    split
    · exact ih.trans (List.suffix_cons c t)
    · exact List.suffix_refl _

omit hw in
theorem isWordless_of_white (ht : t.all isWhiteSpace) : isWordless t := by
  have hinside : (inside t).all isWhiteSpace := List.all_eq_true.mpr fun c hc =>
    List.all_eq_true.mp ht c ((inside_suffix t).subset hc)
  rw [isWordless, opensWord_of_white hinside]
  rfl

theorem opensWord_append : opensWord (t ++ w) = opensWord t := by
  have hword : ((symbol '<' (t ++ w)).bind (run isNameChar)).isSome =
      ((symbol '<' t).bind (run isNameChar)).isSome := by
    rw [symbol_append hw (by decide)]
    cases symbol '<' t with
    | none => rfl
    | some r =>
      rw [Option.map_some, Option.bind_some, Option.bind_some,
        run_append_tail hw (by decide) (by decide), withTail, Option.isSome_map]
  rw [opensWord, opensWord, quoted_append_tail hw, bare_append hw, hword, withTail, withTail,
    Option.isSome_map, Option.isSome_map]

theorem isWordless_append : isWordless (t ++ w) = isWordless t := by
  induction t with
  | nil => rw [List.nil_append, isWordless_of_white hw.white]; rfl
  | cons c t ih =>
    cases hgaps : (c :: t).all isGap with
    | true =>
      have hwhite := all_isWhiteSpace_of_isGap hgaps
      rw [isWordless_of_white hwhite, isWordless_of_white]
      rw [List.all_append, hwhite, hw.white]
      rfl
    | false =>
      have hblank := blankLine_append (w := w) hgaps
      unfold isWordless at ih ⊢
      rw [List.cons_append] at hblank ⊢
      rw [inside, inside, hblank, Option.isNone_map]
      split
      · exact ih
      · rw [← List.cons_append, opensWord_append hw]

omit hw in
theorem stop_append (ht : t.all isGap = false) : stop (t ++ w) = (stop t).map (· ++ w) := by
  unfold stop
  rw [blankLine_append ht]
  cases blankLine t with
  | some r => rfl
  | none =>
    cases t with
    | nil => cases ht
    | cons c t => rfl

omit hw in
theorem exists_stop_of_gaps (ht : t.all isGap) : ∃ r, stop (skip t) = some r ∧ r.all isGap := by
  rw [← all_isGap_skip] at ht
  have hskip := skip_skip t
  cases hs : skip t with
  | nil => exact ⟨[], rfl, rfl⟩
  | cons c u =>
    rw [hs] at ht hskip
    cases hb : blankLine (c :: u) with
    | some r =>
      obtain ⟨v, v', he, -⟩ := blankLine_eq_some hb
      rw [he, List.all_append] at ht
      exact ⟨r, by rw [stop, hb], (Bool.and_eq_true_iff.mp ht).2⟩
    | none =>
      have hc : isGap c := (Bool.and_eq_true_iff.mp (List.all_cons ▸ ht)).1
      rw [skip, hb, if_pos (by rw [hc]; rfl)] at hskip
      have := congrArg List.length hskip
      have := length_skip_le u
      rw [List.length_cons] at *
      omega

/-- A rule is read without the tail if all that it takes of the tail are gaps. -/
theorem rule_of_append {r : Reading} (h : rule (t ++ w) = some r) (hrest : r.rest.all isWhiteSpace)
    (hgaps : ∀ v, w = v ++ r.rest → v.all isGap) :
    (∃ rest, rule t = some ⟨r.name, r.definition, r.side, rest⟩ ∧ rest.all isWhiteSpace) ∧
      sideText (t ++ w) = (sideText t).map (· ++ w) := by
  obtain ⟨t₂', t₃', hh, hs, hstop⟩ := rule_eq_some_iff_heading.mp h
  have happend := heading_append (t := t) hw
  rw [hh] at happend
  obtain ⟨⟨x, t₂⟩, hh', he⟩ := Option.map_eq_some_iff.mp happend.symm
  obtain ⟨rfl, rfl⟩ := Prod.mk.injEq .. ▸ he
  have ht₂ : t₂.all isGap = false := by
    obtain ⟨v, hv, hvisible⟩ := exists_visible hs hstop
    rcases List.append_eq_append_iff.mp hv with ⟨y, rfl, hy⟩ | ⟨y, rfl, -⟩
    · rwa [List.all_append, hgaps y hy, Bool.and_true] at hvisible
    · rw [List.all_append, hvisible, Bool.false_and]
  have hskip : skip (t₂ ++ w) = skip t₂ ++ w := skip_append ht₂
  have htext : sideText (t ++ w) = (sideText t).map (· ++ w) := by
    rw [sideText, sideText, hh, hh']
    exact congrArg some hskip
  rw [hskip] at hs
  refine ⟨?_, htext⟩
  rcases side_append (t := skip t₂) hw with ⟨-, hnone⟩ | ⟨k, b, t₃, t₃'', hs', hs'', hmeets⟩
  · rw [hnone] at hs
    cases hs
  · rw [hs''] at hs
    cases hs
    have hread {rest} (h : stop (skip t₃) = some rest) :
        rule t = some ⟨r.name, r.definition, r.side, rest⟩ :=
      rule_eq_some_iff_heading.mpr ⟨t₂, t₃, hh', hs', h⟩
    cases ht₃ : t₃.all isGap with
    | true =>
      obtain ⟨rest, hstop', hwhite⟩ := exists_stop_of_gaps ht₃
      exact ⟨rest, hread hstop', all_isWhiteSpace_of_isGap hwhite⟩
    | false =>
      rw [hmeets.front ht₃, stop_append ((all_isGap_skip t₃).trans ht₃)] at hstop
      obtain ⟨rest, hstop', he⟩ := Option.map_eq_some_iff.mp hstop
      rw [← he, List.all_append] at hrest
      exact ⟨rest, hread hstop', (Bool.and_eq_true_iff.mp hrest).1⟩

omit hw in
theorem all_isGap_of_stop {r : List Char} (h : stop (skip t) = some r)
    (hcut : ∀ u sep v, t = u ++ sep ++ v → ¬IsSeparator sep) : t.all isGap := by
  obtain ⟨z, hz, hgaps⟩ := exists_gaps t
  unfold stop at h
  cases hb : blankLine (skip t) with
  | some r' =>
    obtain ⟨u, v, he, hu, hv⟩ := blankLine_eq_some hb
    have hsep : IsSeparator (u ++ v) :=
      ⟨u, [v], by simp, hu, nofun, List.forall_mem_singleton.mpr ⟨[], v, rfl, nofun, hv⟩⟩
    exact absurd hsep (hcut z (u ++ v) r' (by rw [List.append_assoc, ← he, ← hz]))
  | none =>
    cases hs : skip t with
    | nil => rw [hz, hs, List.append_nil, hgaps]
    | cons c u =>
      rw [hb, hs] at h
      cases h

/-- Reading ends in the tail if no separator stands before it. -/
theorem dropWhile_rest {r r' : Reading} (h : rule t = some r) (h' : rule (t ++ w) = some r')
    (hcut : ∀ u sep v, t = u ++ sep ++ v → ¬IsSeparator sep) :
    r'.rest.dropWhile isGap = w.dropWhile isGap := by
  obtain ⟨t₂, t₃, hh, hs, hstop⟩ := rule_eq_some_iff_heading.mp h
  obtain ⟨t₂', t₃', hh', hs', hstop'⟩ := rule_eq_some_iff_heading.mp h'
  rw [heading_append hw, hh, withTail_some] at hh'
  obtain ⟨-, rfl⟩ := Prod.mk.injEq .. ▸ Option.some.inj hh'
  obtain ⟨c, u, v, hu, hc, hv⟩ := exists_of_side hs
  have ht₂ : t₂.all isGap = false := by
    rw [← all_isGap_skip, hu, List.all_cons, hc, Bool.false_and]
  have ht₃ : t₃.all isGap := by
    obtain ⟨-, p, -, hp⟩ := exists_of_heading hh
    obtain ⟨z, hz, -⟩ := exists_gaps t₂
    refine all_isGap_of_stop hstop fun u' sep v' he => hcut (p ++ z ++ v ++ u') sep v' ?_
    rw [hp, hz, hv, he]
    simp
  obtain ⟨y, hy, hgaps, -⟩ := exists_of_stop hstop'
  rw [skip_append ht₂] at hs'
  rcases side_append (t := skip t₂) hw with ⟨hnone, -⟩ | ⟨k, b, t₄, t₄', hs₁, hs₂, hmeets⟩
  · rw [hs] at hnone
    cases hnone
  · rw [hs] at hs₁
    rw [hs'] at hs₂
    cases hs₁
    obtain ⟨-, -, rfl⟩ : _ ∧ _ ∧ t₃' = t₄' := by simpa using hs₂
    have htext := hmeets.text
    rwa [hy, List.dropWhile_append_of_pos (List.all_eq_true.mp hgaps),
      List.dropWhile_append_of_pos (List.all_eq_true.mp ht₃)] at htext

end

/-- White space before a rule is skipped, so that there are only gaps. -/
theorem skip_white_append {z : List Char} {r : Reading} (hz : z.all isWhiteSpace)
    (h : rule (z ++ t) = some r) : z.all isGap ∧ skip (z ++ t) = skip t := by
  obtain ⟨t₂, -, hh, -⟩ := rule_eq_some_iff_heading.mp h
  obtain ⟨u, -, hu, -⟩ := exists_of_heading hh
  clear h hh
  induction z with
  | nil => exact ⟨rfl, rfl⟩
  | cons c z ih =>
    obtain ⟨hc, hz⟩ := Bool.and_eq_true_iff.mp (List.all_cons ▸ hz)
    have hless : isWhiteSpace '<' = false := by decide
    rw [List.cons_append, skip] at hu ⊢
    split at hu
    · rename_i hgap
      obtain ⟨hgaps, hskip⟩ := ih hz hu
      rw [if_pos hgap, List.all_cons, (Bool.and_eq_true_iff.mp hgap).2, hgaps]
      exact ⟨rfl, hskip⟩
    · obtain ⟨rfl, -⟩ := List.cons.inj hu
      rw [hless] at hc
      cases hc

theorem rule_of_skip_eq {t' : List Char} (h : skip t = skip t') : rule t = rule t' := by
  rw [rule, rule, h]

theorem sideText_of_skip_eq {t' : List Char} (h : skip t = skip t') : sideText t = sideText t' := by
  rw [sideText, sideText, ← heading_skip t, ← heading_skip t', h]

end

end Direct

/-! ## Texts without the white space around them -/

theorem readRule_of_white_append {z t : List Char} {n : String} {d : Definition}
    (hz : z.all isWhiteSpace) (h : readRule (String.ofList (z ++ t)) = .ok (n, d)) :
    readRule (String.ofList t) = .ok (n, d) := by
  rw [readRule_eq_ok_iff_rule, String.toList_ofList] at h ⊢
  obtain ⟨r, hr, h⟩ := h
  obtain ⟨-, hskip⟩ := Direct.skip_white_append hz hr
  rw [Direct.rule_of_skip_eq hskip] at hr
  rw [Direct.sideText_of_skip_eq hskip] at h
  exact ⟨r, hr, h⟩

theorem readRule_of_append {t w : List Char} {n : String} {d : Definition}
    (hw : Direct.IsTail w) (h : readRule (String.ofList (t ++ w)) = .ok (n, d))
    (hgaps : ∀ r, Direct.rule (t ++ w) = some r → ∀ v, w = v ++ r.rest → v.all Direct.isGap) :
    readRule (String.ofList t) = .ok (n, d) := by
  rw [readRule_eq_ok_iff_rule, String.toList_ofList] at h ⊢
  obtain ⟨r, hr, hn, hd, hrest, hword⟩ := h
  obtain ⟨⟨rest, hr', hrest'⟩, htext⟩ := Direct.rule_of_append hw hr hrest (hgaps r hr)
  refine ⟨_, hr', hn, hd, hrest', fun hg => ?_⟩
  obtain ⟨u, hu, hwordless⟩ := hword hg
  rw [htext] at hu
  obtain ⟨u', hu', rfl⟩ := Option.map_eq_some_iff.mp hu
  rw [Direct.isWordless_append hw] at hwordless
  exact ⟨u', hu', hwordless⟩

end Peg.Bnf
