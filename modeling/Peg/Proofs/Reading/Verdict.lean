import Peg.Proofs.Reading.Cuts
import Peg.Proofs.Reading.Leftovers

/-!
# What reading a source comes to

A source is read if each group that is not blank is a rule by itself, under a name of its own.
Otherwise the first group in the way decides on the error. A group that is no rule is reported with
the line that its first visible character stands on.
-/

namespace Peg.Bnf

/-- The error that reading stops with at the group `g`, where the rules `es` stand before it. -/
inductive Group.Stops (g : Group) (es : List (String × Definition)) : ReadError → Prop
  | duplicate {n : String} {d : Definition} (h : readRule (String.ofList g.text) = .ok (n, d))
    (hn : n ∈ es.map Prod.fst) : Stops g es (.duplicateRule n)
  | unreadable {line : Nat} {text : String}
    (h : readRule (String.ofList g.text) = .error (.unreadable line text)) :
    Stops g es (.unreadable g.line (String.ofList (trim g.text)))
  | rejected {e : ReadError} (h : readRule (String.ofList g.text) = .error e)
    (he : ∀ line text, e ≠ .unreadable line text) : Stops g es e

/-! ## Groups that are not read -/

section
variable {g : Group} {es : List (String × Definition)}

theorem eq_trim_of_unreadable {text u : String} {line : Nat}
    (h : readRule text = .error (.unreadable line u)) : u = String.ofList (trim text.toList) := by
  rcases readRule_outcome text with ⟨n, d, hok⟩ | herror | ⟨hfault, -⟩
  · rw [h] at hok
    cases hok
  · rw [h] at herror
    cases herror
    rfl
  · rw [h] at hfault
    cases hfault

theorem readGroups_of_stops {defs : Definitions} {e : ReadError} (hg : g.isBlank = false)
    (hdefs : ∀ n, n ∈ defs ↔ n ∈ es.map Prod.fst) (h : g.Stops es e) (gs : List Group) :
    (readGroups defs (g :: gs)).value = .error e := by
  rw [readGroups, if_neg (Bool.eq_false_iff.mp hg)]
  cases h with
  | @duplicate n d h hn =>
    rw [Group.read_eq_ok_iff.mpr h]
    simp only [if_pos (Std.TreeMap.contains_iff_mem.mpr ((hdefs n).mpr hn))]
  | @unreadable line text h =>
    obtain rfl := eq_trim_of_unreadable h
    rw [Group.read, h, String.toList_ofList]
  | rejected h he =>
    have hread : g.read = .error e := by
      unfold Group.read
      split
      · rename_i line text h'
        exact absurd (Except.error.inj (h.symm.trans h')) (he line text)
      · exact h
    rw [hread]

theorem exists_stops_or_ok (g : Group) (es : List (String × Definition)) :
    (∃ e, g.Stops es e) ∨
      ∃ n d, readRule (String.ofList g.text) = .ok (n, d) ∧ n ∉ es.map Prod.fst := by
  cases h : readRule (String.ofList g.text) with
  | ok r =>
    by_cases hn : r.1 ∈ es.map Prod.fst
    · exact .inl ⟨_, .duplicate h hn⟩
    · exact .inr ⟨r.1, r.2, rfl, hn⟩
  | error e =>
    by_cases he : ∃ line text, e = .unreadable line text
    · obtain ⟨line, text, rfl⟩ := he
      exact .inl ⟨_, .unreadable h⟩
    · exact .inl ⟨e, .rejected h fun line text heq => he ⟨line, text, heq⟩⟩

/-- Either all groups are read, or there is a first one that reading stops at. -/
theorem exists_readAs_or_stops (gs : List Group) :
    (∃ es, ReadAs gs es) ∨ ∃ gs₁ g gs₂ es e, gs = gs₁ ++ g :: gs₂ ∧ ReadAs gs₁ es ∧
      g.isBlank = false ∧ g.Stops es e := by
  induction gs using List.reverseRecOn with
  | nil => exact .inl ⟨[], .nil⟩
  | append_singleton gs g ih =>
    rcases ih with ⟨es, hes⟩ | ⟨gs₁, g', gs₂, es, e, rfl, h⟩
    · by_cases hg : g.isBlank
      · exact .inl ⟨es, hes.snoc_blank hg⟩
      · have hg : g.isBlank = false := Bool.eq_false_iff.mpr hg
        rcases exists_stops_or_ok g es with ⟨e, hstops⟩ | ⟨n, d, hread, hn⟩
        · exact .inr ⟨gs, g, [], es, e, rfl, hes, hg, hstops⟩
        · exact .inl ⟨es ++ [(n, d)], hes.snoc hg hread hn⟩
    · exact .inr ⟨gs₁, g', gs₂ ++ [g], es, e, by simp, h⟩

end

/-! ## Sources -/

section
variable {source : String} {es : List (String × Definition)}

theorem readAll_of_readAs (h : ReadAs (groups source) es) :
    ∃ D, (readAll source).value = .ok D ∧ D.toList.Perm es := by
  obtain ⟨D, hD, hlook⟩ := readGroups_append ∅ h (by simp) []
  rw [List.append_nil] at hD
  exact ⟨D, hD, toList_perm h.nodup (by simpa using hlook)⟩

theorem readAll_of_stops {gs₁ gs₂ : List Group} {g : Group} {e : ReadError}
    (hgs : groups source = gs₁ ++ g :: gs₂) (hes : ReadAs gs₁ es) (hg : g.isBlank = false)
    (h : g.Stops es e) : (readAll source).value = .error e := by
  obtain ⟨defs, hvalue, hlook⟩ := readGroups_append ∅ hes (by simp) (g :: gs₂)
  rw [readAll, hgs, hvalue]
  exact readGroups_of_stops hg (mem_iff_mem_map (by simpa using hlook)) h gs₂

theorem readAll_eq_ok_iff :
    (∃ D, (readAll source).value = .ok D) ↔ ∃ es, ReadAs (groups source) es := by
  refine ⟨fun ⟨D, hD⟩ => ?_, fun ⟨es, hes⟩ => ?_⟩
  · rcases exists_readAs_or_stops (groups source) with hes | ⟨gs₁, g, gs₂, es, e, hgs, hes, hg, h⟩
    · exact hes
    · have herror := readAll_of_stops hgs hes hg h
      rw [hD] at herror
      cases herror
  · obtain ⟨D, hD, -⟩ := readAll_of_readAs hes
    exact ⟨D, hD⟩

theorem readAll_eq_error_iff {e : ReadError} :
    (readAll source).value = .error e ↔ ∃ gs₁ g gs₂ es, groups source = gs₁ ++ g :: gs₂ ∧
      ReadAs gs₁ es ∧ g.isBlank = false ∧ g.Stops es e := by
  refine ⟨fun herror => ?_, fun ⟨gs₁, g, gs₂, es, hgs, hes, hg, h⟩ => readAll_of_stops hgs hes hg h⟩
  rcases exists_readAs_or_stops (groups source) with ⟨es, hes⟩ | ⟨gs₁, g, gs₂, es, e', hgs, hes, hg, h⟩
  · obtain ⟨D, hD, -⟩ := readAll_of_readAs hes
    rw [herror] at hD
    cases hD
  · have herror' := readAll_of_stops hgs hes hg h
    rw [herror] at herror'
    cases herror'
    exact ⟨gs₁, g, gs₂, es, hgs, hes, hg, h⟩

/-- The line of a group is the one that its first visible character stands on. -/
theorem exists_line {gs₁ gs₂ : List Group} {g : Group} (hgs : groups source = gs₁ ++ g :: gs₂)
    (hg : g.isBlank = false) :
    ∃ z lead c rest w, source.toList = z ++ g.text ++ w ∧ Before gs₁ z ∧
      g.text = lead ++ c :: rest ∧ lead.all isWhiteSpace ∧ isWhiteSpace c = false ∧
        g.line = (z ++ lead).count '\n' + 1 := by
  obtain ⟨z, w, hsource, hz, hlines⟩ := (hgs ▸ cut_groups source).exists_before
  have hsplit := List.takeWhile_append_dropWhile (p := isWhiteSpace) (l := g.text)
  cases hrest : g.text.dropWhile isWhiteSpace with
  | nil =>
    rw [hrest, List.append_nil] at hsplit
    rw [Group.isBlank, ← hsplit, List.all_takeWhile] at hg
    cases hg
  | cons c rest =>
    rw [hrest] at hsplit
    refine ⟨z, _, c, rest, w, hsource, hz, hsplit.symm, List.all_takeWhile, ?_, ?_⟩
    · simpa [hrest] using List.head?_dropWhile_not isWhiteSpace g.text
    · rw [Group.line, hlines, Nat.zero_add, List.count_append]

end

/-- A source is cut in one way, and no separator is left in a group. It is read exactly if each
group that is not blank is a rule by itself and the names of these rules are distinct; the
definitions are just these rules. Otherwise the first group that is no rule, or whose name is taken,
decides on the error, with the line of its first visible character. -/
theorem readAll_verdict (source : String) :
    (∀ gs, Cut 0 source.toList gs ↔ gs = groups source) ∧
      (∀ g ∈ groups source, ∀ u sep v, g.text = u ++ sep ++ v → ¬IsSeparator sep) ∧
      ((∃ D, (readAll source).value = .ok D) ↔ ∃ es, ReadAs (groups source) es) ∧
      (∀ D es, (readAll source).value = .ok D → ReadAs (groups source) es → D.toList.Perm es) ∧
      (∀ e, (readAll source).value = .error e ↔ ∃ gs₁ g gs₂ es, groups source = gs₁ ++ g :: gs₂ ∧
        ReadAs gs₁ es ∧ g.isBlank = false ∧ g.Stops es e) ∧
      ∀ gs₁ g gs₂, groups source = gs₁ ++ g :: gs₂ → g.isBlank = false →
        ∃ z lead c rest w, source.toList = z ++ g.text ++ w ∧ Before gs₁ z ∧
          g.text = lead ++ c :: rest ∧ lead.all isWhiteSpace ∧ isWhiteSpace c = false ∧
            g.line = (z ++ lead).count '\n' + 1 := by
  have hcut := cut_groups source
  refine ⟨fun gs => ⟨fun h => h.unique hcut, fun h => h ▸ hcut⟩, fun g hg => hcut.not_isSeparator hg,
    readAll_eq_ok_iff, fun D es hD hes => ?_, fun e => readAll_eq_error_iff,
    fun gs₁ g gs₂ => exists_line⟩
  obtain ⟨D', hD', hperm⟩ := readAll_of_readAs hes
  obtain rfl : D = D' := Except.ok.inj (hD.symm.trans hD')
  exact hperm

theorem readAll_verdict_lines :
    (∃ D, (readAll "<b> ::= y\r\n  \r\n\t\n<a> ::= x").value = .ok D ∧
      D.toList.Perm [("b", ⟨.lit "y", .loose⟩), ("a", ⟨.lit "x", .loose⟩)]) ∧
      (readAll "<a> ::= x\r\n \t\n\n <b> ::= ( x\n").value =
        .error (.unreadable 4 "<b> ::= ( x") ∧
      ∃ z lead, Before [⟨0, "<a> ::= x".toList⟩] z ∧ lead.all isWhiteSpace ∧
        4 = (z ++ lead).count '\n' + 1 := by
  have hx : readRule (String.ofList "<a> ::= x".toList) = .ok ("a", ⟨.lit "x", .loose⟩) :=
    readRule_of_rule (r := ⟨"a", ⟨.lit "x", .loose⟩, .expression, []⟩)
      (by rw [String.ofList_toList]; decide +kernel) rfl rfl
  have hy : readRule (String.ofList "<b> ::= y".toList) = .ok ("b", ⟨.lit "y", .loose⟩) :=
    readRule_of_rule (r := ⟨"b", ⟨.lit "y", .loose⟩, .expression, []⟩)
      (by rw [String.ofList_toList]; decide +kernel) rfl rfl
  have hopen : readRule (String.ofList " <b> ::= ( x\n".toList) =
      .error (.unreadable 1 "<b> ::= ( x") := by
    rw [String.ofList_toList]
    have hnone : Direct.rule " <b> ::= ( x\n".toList = none := by decide +kernel
    rcases readRule_outcome " <b> ::= ( x\n" with ⟨n, d, h⟩ | h | ⟨-, r, h, -⟩
    · obtain ⟨r, h, -⟩ := readRule_eq_ok_iff_rule.mp h
      rw [hnone] at h
      cases h
    · exact h.trans (by decide +kernel)
    · rw [hnone] at h
      cases h
  have hyes : ReadAs [⟨0, "<b> ::= y".toList⟩] [("b", ⟨.lit "y", .loose⟩)] :=
    ⟨congrArg (fun r => [r]) hy, List.nodup_singleton _⟩
  have hxes : ReadAs [⟨0, "<a> ::= x".toList⟩] [("a", ⟨.lit "x", .loose⟩)] :=
    ⟨congrArg (fun r => [r]) hx, List.nodup_singleton _⟩
  refine ⟨?_, ?_, ?_⟩
  · obtain ⟨-, -, hok, hperm, -⟩ := readAll_verdict "<b> ::= y\r\n  \r\n\t\n<a> ::= x"
    have hgs : groups "<b> ::= y\r\n  \r\n\t\n<a> ::= x" =
        [⟨0, "<b> ::= y".toList⟩, ⟨3, "<a> ::= x".toList⟩] := by decide +kernel
    have hes := hyes.snoc (g := ⟨3, "<a> ::= x".toList⟩) (by decide) hx (by decide)
    rw [hgs] at hok hperm
    obtain ⟨D, hD⟩ := hok.mpr ⟨_, hes⟩
    exact ⟨D, hD, hperm D _ hD hes⟩
  · obtain ⟨-, -, -, -, herror, -⟩ := readAll_verdict "<a> ::= x\r\n \t\n\n <b> ::= ( x\n"
    have hstops : Group.Stops ⟨3, " <b> ::= ( x\n".toList⟩ [("a", ⟨.lit "x", .loose⟩)] _ :=
      .unreadable hopen
    exact (herror _).mpr ⟨_, _, [], _, by decide +kernel, hxes, by decide, hstops⟩
  · obtain ⟨-, -, -, -, -, hline⟩ := readAll_verdict "<a> ::= x\r\n \t\n\n <b> ::= ( x\n"
    obtain ⟨z, lead, c, rest, w, -, hz, -, hlead, -, hcount⟩ :=
      hline [⟨0, "<a> ::= x".toList⟩] ⟨3, " <b> ::= ( x\n".toList⟩ [] (by decide +kernel) (by decide)
    exact ⟨z, lead, hz, hlead, hcount⟩

end Peg.Bnf
