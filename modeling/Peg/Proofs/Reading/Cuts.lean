import Peg.Proofs.Reading.Tails

/-!
# The groups of a source

A source is cut at the first separator, the longest one there, and so on.
-/

namespace Peg.Bnf

/-! ## Separators at the front -/

def HasBlankLines (t : List Char) (n : Nat) : Prop :=
  ∃ (lines : List (List Char)) (rest : List Char), t = lines.flatten ++ rest ∧
    (∀ line ∈ lines, IsBlankLine line) ∧ n = lines.flatten.length ∧ blankLines 0 rest = 0

theorem HasBlankLines.line {u e t : List Char} (h : HasBlankLines t (blankLines 0 t))
    (hu : ∀ c ∈ u, c = ' ' ∨ c = '\t') (he : IsLineEnd e) :
    HasBlankLines (u ++ (e ++ t)) (blankLines u.length (e ++ t)) := by
  obtain ⟨lines, rest, ht, hlines, hlen, hrest⟩ := h
  have hline : IsBlankLine (u ++ e) := ⟨u, e, rfl, hu, he⟩
  have hcount : blankLines 0 (u ++ e ++ t) = 0 + (u ++ e).length + blankLines 0 t :=
    blankLines_line hline 0
  rw [List.append_assoc, blankLines_blanks hu, Nat.zero_add, Nat.zero_add] at hcount
  refine ⟨(u ++ e) :: lines, rest, ?_, List.forall_mem_cons.mpr ⟨hline, hlines⟩, ?_, hrest⟩
  · rw [ht, List.flatten_cons]
    simp only [List.append_assoc]
  · rw [hcount, hlen, List.flatten_cons]
    exact List.length_append.symm

theorem HasBlankLines.none {u t : List Char} (hu : ∀ c ∈ u, c = ' ' ∨ c = '\t')
    (h : blankLines u.length t = 0) : HasBlankLines (u ++ t) (blankLines u.length t) :=
  ⟨[], u ++ t, rfl, nofun, h, by rw [blankLines_blanks hu, Nat.zero_add, h]⟩

/-- The characters `u` of the first line were seen. -/
theorem hasBlankLines {u : List Char} (hu : ∀ c ∈ u, c = ' ' ∨ c = '\t') (t : List Char) :
    HasBlankLines (u ++ t) (blankLines u.length t) := by
  have hnil : ∀ c ∈ ([] : List Char), c = ' ' ∨ c = '\t' := nofun
  generalize hn : u.length = n
  induction n, t using blankLines.induct generalizing u with
  | case1 n r ih =>
    subst hn
    exact HasBlankLines.line (ih hnil rfl) hu (.inl rfl)
  | case2 n r ih =>
    subst hn
    exact HasBlankLines.line (ih hnil rfl) hu (.inr rfl)
  | case3 n c r h₁ h₂ hc ih =>
    subst hn
    have hstep : blankLines u.length (c :: r) = blankLines (u.length + 1) r := by
      rw [blankLines, if_pos hc]
      · exact h₁
      · exact h₂
    have hu' : ∀ d ∈ u ++ [c], d = ' ' ∨ d = '\t' :=
      List.forall_mem_append.mpr ⟨hu, List.forall_mem_singleton.mpr hc⟩
    rw [hstep]
    simpa using ih hu' List.length_append
  | case4 n c r h₁ h₂ hc =>
    subst hn
    refine .none hu ?_
    rw [blankLines, if_neg hc]
    · exact h₁
    · exact h₂
  | case5 n =>
    subst hn
    exact .none hu rfl

/-- What is counted as a separator is one, the longest at the front. -/
theorem exists_of_separator {t : List Char} (h : separator t ≠ 0) :
    ∃ sep rest, t = sep ++ rest ∧ IsSeparator sep ∧ blankLines 0 rest = 0 := by
  have hnil : ∀ c ∈ ([] : List Char), c = ' ' ∨ c = '\t' := nofun
  have cut {e r : List Char} (he : IsLineEnd e) (hr : blankLines 0 r ≠ 0) :
      ∃ sep rest, e ++ r = sep ++ rest ∧ IsSeparator sep ∧ blankLines 0 rest = 0 := by
    obtain ⟨lines, rest, ht, hlines, hlen, hrest⟩ := hasBlankLines hnil r
    refine ⟨e ++ lines.flatten, rest, ?_, ⟨e, lines, rfl, he, ?_, hlines⟩, hrest⟩
    · rw [List.append_assoc, ← ht, List.nil_append]
    · rintro rfl
      exact hr hlen
  unfold separator separatorOf at h
  split at h
  · exact cut (.inl rfl) fun h₀ => h (if_pos h₀)
  · exact cut (.inr rfl) fun h₀ => h (if_pos h₀)
  · exact absurd rfl h

theorem separator_pos {sep : List Char} (h : IsSeparator sep) (rest : List Char) :
    separator (sep ++ rest) ≠ 0 := by
  have := length_pos_of_isSeparator h
  rw [separator_append h]
  omega

/-! ## Cuts -/

/-- The groups of a text that `n` line ends stand before. -/
inductive Cut : (n : Nat) → List Char → List Group → Prop
  | whole {n : Nat} {t : List Char} (h : ∀ u sep v, t = u ++ sep ++ v → ¬IsSeparator sep) :
    Cut n t [⟨n, t⟩]
  | cut {n : Nat} {u sep t : List Char} {gs : List Group} (hsep : IsSeparator sep)
    (earliest : ∀ u' sep' v, u ++ sep ++ t = u' ++ sep' ++ v → IsSeparator sep' →
      u.length ≤ u'.length)
    (longest : ∀ sep' v, sep ++ t = sep' ++ v → IsSeparator sep' → sep'.length ≤ sep.length)
    (h : Cut (n + (u ++ sep).count '\n') t gs) : Cut n (u ++ sep ++ t) (⟨n, u⟩ :: gs)

/-- No separator begins in `u`, behind which `t` stands. -/
def Uncut (u t : List Char) : Prop :=
  ∀ v v', u = v ++ v' → v' ≠ [] → separator (v' ++ t) = 0

theorem uncut_nil (t : List Char) : Uncut [] t :=
  fun _ _ he hne => absurd (List.append_eq_nil_iff.mp he.symm).2 hne

theorem Uncut.snoc {u t : List Char} {c : Char} (h : Uncut u (c :: t))
    (hc : separator (c :: t) = 0) : Uncut (u ++ [c]) t := by
  intro v v' he hne
  rcases List.append_eq_append_iff.mp he with ⟨x, -, hx⟩ | ⟨x, hu, rfl⟩
  · rcases List.append_eq_singleton_iff.mp hx.symm with ⟨-, rfl⟩ | ⟨-, rfl⟩
    · exact hc
    · exact absurd rfl hne
  · rw [List.append_assoc]
    cases x with
    | nil => exact hc
    | cons d x => exact h v (d :: x) hu (List.cons_ne_nil d x)

theorem Uncut.le_of_separator {u t v sep r : List Char} (h : Uncut u t)
    (he : u ++ t = v ++ sep ++ r) (hsep : IsSeparator sep) : u.length ≤ v.length := by
  rw [List.append_assoc] at he
  rcases List.append_eq_append_iff.mp he with ⟨x, rfl, -⟩ | ⟨x, rfl, hx⟩
  · rw [List.length_append]
    exact Nat.le_add_right _ _
  · cases x with
    | nil => rw [List.append_nil]
    | cons d x =>
      have := h v (d :: x) rfl (List.cons_ne_nil d x)
      rw [← hx] at this
      exact absurd this (separator_pos hsep r)

/-- The group so far is `u`. -/
theorem cut_groupsFrom {n lines : Nat} {u t : List Char} (hlines : lines = n + u.count '\n')
    (hu : Uncut u t) : Cut n (u ++ t) (groupsFrom 0 lines ⟨n, u.reverse⟩ t) := by
  induction hk : t.length using Nat.strongRecOn generalizing n lines u t with
  | _ k ih =>
    subst hk
    by_cases hs : separator t = 0
    · cases t with
      | nil =>
        rw [groupsFrom, List.reverse_reverse, List.append_nil]
        refine .whole fun v sep v' he hsep => ?_
        have hle := hu.le_of_separator (by rw [List.append_nil, he]) hsep
        have := length_pos_of_isSeparator hsep
        rw [he, List.length_append, List.length_append] at hle
        omega
      | cons c r =>
        have hlines' : (if c = '\n' then lines + 1 else lines) = n + (u ++ [c]).count '\n' := by
          rw [List.count_append, ← Nat.add_assoc, ← hlines, List.count_singleton]
          by_cases hc : c = '\n' <;> simp [hc]
        have hrest := ih r.length (Nat.lt_succ_self _) hlines' (hu.snoc hs) rfl
        rw [groupsFrom, hs]
        simpa using hrest
    · obtain ⟨sep, rest, rfl, hsep, hrest⟩ := exists_of_separator hs
      rw [groupsFrom_separator hsep hrest, List.reverse_reverse, ← List.append_assoc]
      have hlen : rest.length < (sep ++ rest).length := by
        have := length_pos_of_isSeparator hsep
        rw [List.length_append]
        omega
      refine .cut hsep ?_ ?_ ?_
      · intro v sep' v' he hsep'
        rw [List.append_assoc] at he
        exact hu.le_of_separator he hsep'
      · intro sep' v he hsep'
        have h₁ := separator_append hsep rest
        have h₂ := separator_append hsep' v
        rw [he] at h₁
        omega
      · have := ih rest.length hlen (n := lines + sep.count '\n') (u := []) rfl (uncut_nil rest) rfl
        rw [List.count_append, ← Nat.add_assoc, ← hlines]
        exact this

theorem cut_groups (source : String) : Cut 0 source.toList (groups source) :=
  cut_groupsFrom (u := []) rfl (uncut_nil source.toList)

theorem all_isGap_of_isSeparator {sep : List Char} (h : IsSeparator sep) :
    sep.all Direct.isGap := by
  obtain ⟨lineEnd, lines, rfl, hend, -, hlines⟩ := h
  have hline (line) (h : line ∈ lines) : line.all Direct.isGap := by
    obtain ⟨blank, lineEnd, rfl, hblank, hend⟩ := hlines line h
    have hgap (c) (h : c ∈ blank) : Direct.isGap c := by
      rcases hblank c h with rfl | rfl <;> decide
    rw [List.all_append, List.all_eq_true.mpr hgap, Direct.all_isGap_of_isLineEnd hend]
    rfl
  rw [List.all_append, Direct.all_isGap_of_isLineEnd hend, List.all_flatten,
    List.all_eq_true.mpr hline]
  rfl

section
variable {n : Nat} {t : List Char} {gs : List Group}

/-- Each cut is the first there is, and takes all it can, so there is one way to cut a text. -/
theorem Cut.unique {gs' : List Group} (h : Cut n t gs) (h' : Cut n t gs') : gs = gs' := by
  induction h generalizing gs' with
  | whole hnone =>
    cases h' with
    | whole => rfl
    | cut hsep => exact absurd hsep (hnone _ _ _ rfl)
  | @cut n u sep t gs hsep earliest longest _ ih =>
    generalize htext : u ++ sep ++ t = text at h'
    cases h' with
    | whole hnone => exact absurd hsep (hnone u sep t htext.symm)
    | @cut _ u' sep' t' gs' hsep' earliest' longest' h' =>
      have hu : u.length = u'.length :=
        Nat.le_antisymm (earliest u' sep' t' htext hsep') (earliest' u sep t htext.symm hsep)
      rw [List.append_assoc, List.append_assoc] at htext
      obtain ⟨rfl, hrest⟩ := List.append_inj htext hu
      have hlen : sep.length = sep'.length :=
        Nat.le_antisymm (longest' sep t hrest.symm hsep) (longest sep' t' hrest hsep')
      obtain ⟨rfl, rfl⟩ := List.append_inj hrest hlen
      rw [ih h']

theorem Cut.not_isSeparator (h : Cut n t gs) {g : Group} (hg : g ∈ gs) (u sep v : List Char)
    (he : g.text = u ++ sep ++ v) : ¬IsSeparator sep := by
  induction h with
  | whole h =>
    obtain rfl := List.mem_singleton.mp hg
    exact h u sep v he
  | @cut n u' sep' t gs _ earliest _ _ ih =>
    rcases List.mem_cons.mp hg with rfl | hg
    · intro hsep
      obtain rfl : u' = u ++ sep ++ v := he
      have hle := earliest u sep (v ++ sep' ++ t) (by simp only [List.append_assoc]) hsep
      have := length_pos_of_isSeparator hsep
      rw [List.length_append, List.length_append] at hle
      omega
    · exact ih hg

/-- A text is white exactly if all its groups are. -/
theorem Cut.all_isWhiteSpace_iff (h : Cut n t gs) :
    t.all isWhiteSpace ↔ ∀ g ∈ gs, g.isBlank := by
  induction h with
  | whole h =>
    rw [List.forall_mem_singleton]
    rfl
  | cut hsep _ _ _ ih =>
    rw [List.all_append, List.all_append,
      Direct.all_isWhiteSpace_of_isGap (all_isGap_of_isSeparator hsep), Bool.and_true,
      Bool.and_eq_true_iff, List.forall_mem_cons, ih]
    rfl

/-- What stands before a group and behind it. -/
theorem Cut.exists_around {gs₁ gs₂ : List Group} {g : Group} (h : Cut n t (gs₁ ++ g :: gs₂)) :
    ∃ z w, t = z ++ g.text ++ w ∧ (z.all isWhiteSpace ↔ ∀ g ∈ gs₁, g.isBlank) ∧
      (w.all isWhiteSpace ↔ ∀ g ∈ gs₂, g.isBlank) ∧
      (w = [] ∨ ∃ sep v, w = sep ++ v ∧ IsSeparator sep) := by
  induction gs₁ generalizing n t with
  | nil =>
    cases h with
    | whole h =>
      exact ⟨[], [], by simp, by simp, by simp, .inl rfl⟩
    | @cut _ u sep v _ hsep _ _ h =>
      refine ⟨[], sep ++ v, by simp, by simp, ?_, .inr ⟨sep, v, rfl, hsep⟩⟩
      rw [List.all_append, Direct.all_isWhiteSpace_of_isGap (all_isGap_of_isSeparator hsep),
        Bool.true_and, h.all_isWhiteSpace_iff]
  | cons g₁ gs₁ ih =>
    rw [List.cons_append] at h
    generalize hgs : gs₁ ++ g :: gs₂ = gs at h
    cases h with
    | whole => exact absurd hgs (by simp)
    | @cut _ u sep v _ hsep _ _ h =>
      subst hgs
      obtain ⟨z, w, rfl, hz, hw, hcut⟩ := ih h
      refine ⟨u ++ sep ++ z, w, by simp only [List.append_assoc], ?_, hw, hcut⟩
      rw [List.all_append, List.all_append,
        Direct.all_isWhiteSpace_of_isGap (all_isGap_of_isSeparator hsep), Bool.and_true,
        Bool.and_eq_true_iff, List.forall_mem_cons, hz]
      rfl

/-- The texts of the groups, each with a separator behind it. -/
inductive Before : List Group → List Char → Prop
  | nil : Before [] []
  | cons {g : Group} {gs : List Group} {sep z : List Char} (hsep : IsSeparator sep)
    (h : Before gs z) : Before (g :: gs) (g.text ++ sep ++ z)

theorem Cut.exists_before {gs₁ gs₂ : List Group} {g : Group} (h : Cut n t (gs₁ ++ g :: gs₂)) :
    ∃ z w, t = z ++ g.text ++ w ∧ Before gs₁ z ∧ g.linesBefore = n + z.count '\n' := by
  induction gs₁ generalizing n t with
  | nil =>
    cases h with
    | whole => exact ⟨[], [], (List.append_nil t).symm, .nil, rfl⟩
    | @cut _ u sep v => exact ⟨[], sep ++ v, List.append_assoc u sep v, .nil, rfl⟩
  | cons g₁ gs₁ ih =>
    rw [List.cons_append] at h
    generalize hgs : gs₁ ++ g :: gs₂ = gs at h
    cases h with
    | whole => exact absurd hgs (by simp)
    | @cut _ u sep v _ hsep _ _ h =>
      subst hgs
      obtain ⟨z, w, rfl, hz, hlines⟩ := ih h
      refine ⟨u ++ sep ++ z, w, by simp only [List.append_assoc], .cons hsep hz, ?_⟩
      rw [hlines, Nat.add_assoc, ← List.count_append]

end

end Peg.Bnf
