import Peg.Proofs.Reading.Trimmed
import Peg.Proofs.Reading.Verdict

/-!
# Sources of one rule

A text that is read as one rule is a source of that rule alone, unless a separator stands inside
the rule. While a rule is read, only two line ends next to each other end it, whereas the blank
lines of a separator may hold spaces and tabs. Nor do quoted literals end at a blank line.
-/

namespace Peg.Bnf

/-- A separator stands inside the rule that is read: on both sides there is more than gaps. -/
def IsSplit (t : List Char) : Prop :=
  ∃ r u sep v, Direct.rule t = some r ∧ t = u ++ sep ++ (v ++ r.rest) ∧ IsSeparator sep ∧
    u.all Direct.isGap = false ∧ v.all Direct.isGap = false

/-! ## Tails of groups -/

theorem isTail_of_cut {w : List Char} (hwhite : w.all isWhiteSpace)
    (hw : w = [] ∨ ∃ sep v, w = sep ++ v ∧ IsSeparator sep) : Direct.IsTail w where
  white := hwhite
  breaks c r he := by
    rcases hw with rfl | ⟨sep, v, rfl, lineEnd, lines, rfl, hend, -⟩
    · cases he
    · rcases hend with rfl | rfl
      · exact .inl (List.cons.inj he).1.symm
      · exact .inr (List.cons.inj he).1.symm

/-- What stands between gaps and is not gaps itself on both of its sides lies inside. -/
theorem exists_inside {u sep v z g y : List Char} (h : u ++ sep ++ v = z ++ g ++ y)
    (hu : u.all Direct.isGap = false) (hv : v.all Direct.isGap = false) (hz : z.all Direct.isGap)
    (hy : y.all Direct.isGap) : ∃ u' v', g = u' ++ sep ++ v' := by
  rw [List.append_assoc, List.append_assoc] at h
  rcases List.append_eq_append_iff.mp h with ⟨x, rfl, -⟩ | ⟨x, rfl, hx⟩
  · rw [List.all_append, hu, Bool.false_and] at hz
    cases hz
  · rw [← List.append_assoc] at hx
    rcases List.append_eq_append_iff.mp hx with ⟨x', -, rfl⟩ | ⟨x', rfl, -⟩
    · rw [List.all_append, hv, Bool.and_false] at hy
      cases hy
    · exact ⟨x, x', rfl⟩

/-! ## Agreement -/

section
variable {text : String} {n : String} {d : Definition}

theorem not_isSplit_of_readAll {D : Definitions} (h : (readAll text).value = .ok D)
    (hD : D.toList = [(n, d)]) : ¬IsSplit text.toList := by
  rintro ⟨r, u, sep, v, hr, he, hsep, hu, hv⟩
  obtain ⟨es, hes⟩ := readAll_eq_ok_iff.mp ⟨D, h⟩
  obtain ⟨D', hD', hperm⟩ := readAll_of_readAs hes
  obtain rfl : D = D' := Except.ok.inj (h.symm.trans hD')
  rw [hD] at hperm
  obtain rfl := List.perm_singleton.mp hperm.symm
  obtain ⟨g, hfilter, hread⟩ := List.map_eq_singleton_iff.mp hes.rules
  obtain ⟨gs₁, gs₂, hgs, hblank₁, -, hblank₂⟩ := List.filter_eq_cons_iff.mp hfilter
  have hcut := cut_groups text
  have hinside := hcut.not_isSeparator (g := g) (by simp [hgs])
  rw [hgs] at hcut
  obtain ⟨z, w, htext, hz, hw, hcuts⟩ := hcut.exists_around
  have hz := hz.mpr (by simpa using hblank₁)
  have hw := hw.mpr (by simpa using hblank₂)
  obtain ⟨r₁, hr₁, -⟩ := readRule_eq_ok_iff_rule.mp hread
  rw [String.toList_ofList] at hr₁
  rw [htext, List.append_assoc] at hr
  obtain ⟨hgaps, hskip⟩ := Direct.skip_white_append hz hr
  rw [Direct.rule_of_skip_eq hskip] at hr
  have hrest := Direct.dropWhile_rest (isTail_of_cut hw hcuts) hr₁ hr hinside
  have hends : u ++ sep ++ (v ++ r.rest.takeWhile Direct.isGap) =
      z ++ g.text ++ w.takeWhile Direct.isGap := by
    have hr' := List.takeWhile_append_dropWhile (p := Direct.isGap) (l := r.rest)
    have hw' := List.takeWhile_append_dropWhile (p := Direct.isGap) (l := w)
    rw [hrest] at hr'
    refine (List.append_left_inj (w.dropWhile Direct.isGap)).mp ?_
    simpa only [List.append_assoc, hr', hw'] using he.symm.trans htext
  have hv' : (v ++ r.rest.takeWhile Direct.isGap).all Direct.isGap = false := by
    rw [List.all_append, hv, Bool.false_and]
  obtain ⟨u', v', hg⟩ := exists_inside hends hu hv' hgaps List.all_takeWhile
  exact hinside u' sep v' hg hsep

theorem exists_rest {t : List Char} {r : Direct.Reading} (h : Direct.rule t = some r) :
    (∃ p, t = p ++ r.rest) ∧ t.all isWhiteSpace = false := by
  obtain ⟨t₂, t₃, hh, hs, hstop⟩ := Direct.rule_eq_some_iff_heading.mp h
  obtain ⟨u, v, hu, rfl⟩ := Direct.exists_of_heading hh
  obtain ⟨v', rfl, -⟩ := Direct.exists_visible hs hstop
  refine ⟨⟨v ++ v', by rw [List.append_assoc]⟩, ?_⟩
  rw [← Bool.not_eq_true]
  intro hwhite
  have hskip := Direct.all_isWhiteSpace_skip hwhite
  have hless : isWhiteSpace '<' = false := by decide
  rw [hu, List.all_cons, hless] at hskip
  cases hskip

/-- Behind the first group that is not blank there is only white space. -/
theorem isTail_of_not_isSplit {z g w : List Char} {r : Direct.Reading}
    (hr : Direct.rule (z ++ g ++ w) = some r) (hrest : r.rest.all isWhiteSpace)
    (hg : g.all isWhiteSpace = false) (hw : w = [] ∨ ∃ sep v, w = sep ++ v ∧ IsSeparator sep)
    (hsplit : ¬IsSplit (z ++ g ++ w)) :
    Direct.IsTail w ∧ ∀ v, w = v ++ r.rest → v.all Direct.isGap := by
  have hgaps (v : List Char) (he : w = v ++ r.rest) : v.all Direct.isGap := by
    rcases hw with rfl | ⟨sep, v', rfl, hsep⟩
    · rw [(List.append_eq_nil_iff.mp he.symm).1]
      rfl
    · have hsepgaps := all_isGap_of_isSeparator hsep
      rcases List.append_eq_append_iff.mp he with ⟨x, rfl, rfl⟩ | ⟨x, rfl, -⟩
      · rw [List.all_append, hsepgaps, Bool.true_and, ← Bool.not_eq_false]
        refine fun hx => hsplit ⟨r, z ++ g, sep, x, hr, by simp only [List.append_assoc], hsep, ?_, hx⟩
        rw [← Bool.not_eq_true]
        intro hzg
        rw [List.all_append, Bool.and_eq_true_iff] at hzg
        rw [Direct.all_isWhiteSpace_of_isGap hzg.2] at hg
        cases hg
      · rw [List.all_append] at hsepgaps
        exact (Bool.and_eq_true_iff.mp hsepgaps).1
  refine ⟨isTail_of_cut ?_ hw, hgaps⟩
  obtain ⟨⟨p, hp⟩, -⟩ := exists_rest hr
  rcases List.append_eq_append_iff.mp hp with ⟨x, -, hx⟩ | ⟨x, -, hx⟩
  · rw [hx, List.all_append, Direct.all_isWhiteSpace_of_isGap (hgaps x hx), hrest]
    rfl
  · rw [hx, List.all_append] at hrest
    exact (Bool.and_eq_true_iff.mp hrest).2

theorem readAll_of_not_isSplit (h : readRule text = .ok (n, d)) (hsplit : ¬IsSplit text.toList) :
    ∃ D, (readAll text).value = .ok D ∧ D.toList = [(n, d)] := by
  obtain ⟨r, hr, -, -, hrest, -⟩ := readRule_eq_ok_iff_rule.mp h
  have hcut := cut_groups text
  -- the rule begins in the first group that is not blank
  obtain ⟨g, hfind⟩ : ∃ g, (groups text).find? (fun g => !g.isBlank) = some g := by
    rw [← Option.isSome_iff_exists, List.find?_isSome]
    have hne := mt hcut.all_isWhiteSpace_iff.mpr (Bool.eq_false_iff.mp (exists_rest hr).2)
    simpa using hne
  obtain ⟨hg, gs₁, gs₂, hgs, hblank₁⟩ := List.find?_eq_some_iff_append.mp hfind
  have hg : g.isBlank = false := by simpa using hg
  have hblank₁ : ∀ g ∈ gs₁, g.isBlank := by simpa using hblank₁
  rw [hgs] at hcut
  obtain ⟨z, w, htext, hz, hw, hcuts⟩ := hcut.exists_around
  rw [htext] at hr hsplit
  obtain ⟨htail, hgaps⟩ := isTail_of_not_isSplit hr hrest hg hcuts hsplit
  have hblank₂ := hw.mp htail.white
  have hread : readRule (String.ofList g.text) = .ok (n, d) := by
    rw [← String.ofList_toList (s := text), htext, List.append_assoc] at h
    rw [List.append_assoc] at hr
    have hz := hz.mpr hblank₁
    obtain ⟨-, hskip⟩ := Direct.skip_white_append hz hr
    rw [Direct.rule_of_skip_eq hskip] at hr
    refine readRule_of_append htail (readRule_of_white_append hz h) fun r' hr' => ?_
    obtain rfl := Option.some.inj (hr.symm.trans hr')
    exact hgaps
  have hfilter : (groups text).filter (fun g => !g.isBlank) = [g] := by
    refine hgs ▸ List.filter_eq_cons_iff.mpr ⟨gs₁, gs₂, rfl, ?_, by simp [hg], ?_⟩
    · simpa using hblank₁
    · exact List.filter_eq_nil_iff.mpr (by simpa using hblank₂)
  have hes : ReadAs (groups text) [(n, d)] :=
    ⟨by rw [hfilter, List.map_singleton, hread]; rfl, List.nodup_singleton n⟩
  obtain ⟨D, hD, hperm⟩ := readAll_of_readAs hes
  exact ⟨D, hD, List.perm_singleton.mp hperm⟩

/-- A text that is read as a rule is a source of this rule alone exactly if the rule is not split. -/
theorem readAll_single_iff (h : readRule text = .ok (n, d)) :
    (∃ D, (readAll text).value = .ok D ∧ D.toList = [(n, d)]) ↔ ¬IsSplit text.toList :=
  ⟨fun ⟨_, hD, hlist⟩ => not_isSplit_of_readAll hD hlist, readAll_of_not_isSplit h⟩

end

theorem not_isSplit_of_separator {t : List Char} (h : ∀ i < t.length, separator (t.drop i) = 0) :
    ¬IsSplit t := by
  rintro ⟨r, u, sep, v, -, rfl, hsep, -⟩
  have hlen := length_pos_of_isSeparator hsep
  have hzero := h u.length (by simp only [List.length_append]; omega)
  rw [List.append_assoc, List.drop_left] at hzero
  exact separator_pos hsep _ hzero

theorem readAll_single_iff_lines :
    ∃ D, (readAll "<a> ::= x\r\n | \"\n\"\n").value = .ok D ∧
      D.toList = [("a", ⟨.disj [.lit "x", .lit "\n"], .loose⟩)] := by
  have hr : Direct.rule "<a> ::= x\r\n | \"\n\"\n".toList =
      some ⟨"a", ⟨.disj [.lit "x", .lit "\n"], .loose⟩, .expression, []⟩ := by decide +kernel
  exact (readAll_single_iff (readRule_of_rule hr rfl rfl)).mpr
    (not_isSplit_of_separator (by decide +kernel))

/-- A blank line that holds a space ends a group, but not a rule. -/
theorem readAll_single_split :
    ¬∀ text n d, readRule text = .ok (n, d) →
      ∃ D, (readAll text).value = .ok D ∧ D.toList = [(n, d)] := by
  intro h
  have hr : Direct.rule "<a> ::= x\n \ny".toList =
      some ⟨"a", ⟨.conj [.lit "x", .lit "y"], .loose⟩, .expression, []⟩ := by decide +kernel
  have hsep : IsSeparator "\n \n".toList := by
    refine ⟨['\n'], [[' ', '\n']], rfl, .inl rfl, nofun, List.forall_mem_singleton.mpr ?_⟩
    exact ⟨[' '], ['\n'], rfl, by simp, .inl rfl⟩
  obtain ⟨D, hD, hlist⟩ := h _ _ _ (readRule_of_rule hr rfl rfl)
  exact not_isSplit_of_readAll hD hlist
    ⟨_, "<a> ::= x".toList, "\n \n".toList, ['y'], hr, rfl, hsep, by decide, by decide⟩

end Peg.Bnf
