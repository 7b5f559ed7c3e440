import Peg.Proofs.Reading.Graphic
import Peg.Proofs.Reading.Sources

/-!
# White space behind a rule

Whatever begins with a line end and holds only white space can be put behind a text without
changing what is read from it: words keep their end, and lists end at the same place up to white
space.
-/

namespace Peg.Bnf.Direct

/-! ## Gaps -/

theorem isWhiteSpace_of_isGap {c : Char} (h : isGap c) : isWhiteSpace c := by
  have hall : ∀ c ∈ " \t\r\n\x0c\x0b".toList, isWhiteSpace c := List.all_eq_true.mp rfl
  exact hall c (List.contains_iff_mem.mp h)

/-- What is skipped are gaps. -/
theorem exists_gaps (t : List Char) : ∃ z, t = z ++ skip t ∧ z.all isGap := by
  induction t with
  | nil => exact ⟨[], rfl, rfl⟩
  | cons c t ih =>
    rw [skip]
    split
    · rename_i h
      obtain ⟨z, hz, hgaps⟩ := ih
      refine ⟨c :: z, congrArg (c :: ·) hz, ?_⟩
      rw [List.all_cons, hgaps, (Bool.and_eq_true_iff.mp h).2]
      rfl
    · exact ⟨[], rfl, rfl⟩

theorem all_isGap_skip (t : List Char) : (skip t).all isGap = t.all isGap := by
  obtain ⟨z, hz, hgaps⟩ := exists_gaps t
  conv_rhs => rw [hz]
  rw [List.all_append, hgaps, Bool.true_and]

theorem all_isGap_of_isLineEnd {u : List Char} (h : IsLineEnd u) : u.all isGap := by
  rcases h with rfl | rfl <;> decide

theorem lineEnd_eq_some {t r : List Char} (h : lineEnd t = some r) :
    ∃ u, t = u ++ r ∧ IsLineEnd u := by
  unfold lineEnd at h
  split at h
  · obtain rfl := Option.some.inj h
    exact ⟨['\n'], rfl, .inl rfl⟩
  · obtain rfl := Option.some.inj h
    exact ⟨['\r', '\n'], rfl, .inr rfl⟩
  · cases h

theorem blankLine_eq_some {t r : List Char} (h : blankLine t = some r) :
    ∃ u v, t = u ++ v ++ r ∧ IsLineEnd u ∧ IsLineEnd v := by
  obtain ⟨s, h₁, h₂⟩ := Option.bind_eq_some_iff.mp h
  obtain ⟨u, rfl, hu⟩ := lineEnd_eq_some h₁
  obtain ⟨v, rfl, hv⟩ := lineEnd_eq_some h₂
  exact ⟨u, v, (List.append_assoc ..).symm, hu, hv⟩

/-! ## Texts that are not all gaps -/

section
variable {t w : List Char}

/-- A line end does not reach beyond the text. -/
theorem lineEnd_append (ht : t.all isGap = false) :
    lineEnd (t ++ w) = (lineEnd t).map (· ++ w) := by
  match t, ht with
  | c :: r, ht =>
    by_cases hn : c = '\n'
    · subst hn
      rfl
    · by_cases hr : c = '\r'
      · subst hr
        match r, ht with
        | [], ht => exact absurd ht (by decide)
        | d :: r, _ =>
          by_cases hd : d = '\n'
          · subst hd
            rfl
          · simp [lineEnd, hd]
      · simp [lineEnd, hn, hr]

theorem blankLine_append (ht : t.all isGap = false) :
    blankLine (t ++ w) = (blankLine t).map (· ++ w) := by
  unfold blankLine
  rw [lineEnd_append ht]
  cases hl : lineEnd t with
  | none => rfl
  | some r =>
    obtain ⟨u, rfl, hu⟩ := lineEnd_eq_some hl
    rw [List.all_append, all_isGap_of_isLineEnd hu, Bool.true_and] at ht
    exact lineEnd_append ht

theorem skip_append (ht : t.all isGap = false) : skip (t ++ w) = skip t ++ w := by
  induction t with
  | nil => cases ht
  | cons c t ih =>
    have hb := blankLine_append (w := w) ht
    rw [List.cons_append] at hb
    rw [List.cons_append, skip, skip, hb, Option.isNone_map]
    split
    · rename_i h
      rw [List.all_cons, (Bool.and_eq_true_iff.mp h).2, Bool.true_and] at ht
      exact ih ht
    · rfl

end

/-! ## Tails -/

/-- White space that begins with a line end, as it stands behind a group. -/
structure IsTail (w : List Char) : Prop where
  white : w.all isWhiteSpace
  breaks : ∀ c r, w = c :: r → c = '\n' ∨ c = '\r'

def withTail {α : Type} (w : List Char) (o : Option (α × List Char)) : Option (α × List Char) :=
  o.map fun r => (r.1, r.2 ++ w)

@[simp] theorem withTail_none {α : Type} (w : List Char) :
    withTail w (none : Option (α × List Char)) = none :=
  rfl

@[simp] theorem withTail_some {α : Type} (w : List Char) (a : α) (r : List Char) :
    withTail w (some (a, r)) = some (a, r ++ w) :=
  rfl

/-! ## Words before a tail -/

section
variable {t u w : List Char}

theorem all_isWhiteSpace_of_isGap (ht : t.all isGap) : t.all isWhiteSpace :=
  List.all_eq_true.mpr fun c hc => isWhiteSpace_of_isGap (List.all_eq_true.mp ht c hc)

theorem all_isWhiteSpace_skip (ht : t.all isWhiteSpace) : (skip t).all isWhiteSpace := by
  obtain ⟨z, hz, -⟩ := exists_gaps t
  rw [hz, List.all_append] at ht
  exact (Bool.and_eq_true_iff.mp ht).2

theorem symbol_of_white {c : Char} (hc : isWhiteSpace c = false) (ht : t.all isWhiteSpace) :
    symbol c t = none := by
  cases t with
  | nil => rfl
  | cons d t =>
    have hd : d ≠ c := by
      rintro rfl
      rw [List.all_cons, hc] at ht
      cases ht
    exact symbol_of_ne hd t

theorem run_of_white {p : Char → Bool} (hp : ∀ c, isWhiteSpace c → p c = false)
    (ht : t.all isWhiteSpace) : run p t = none := by
  cases t with
  | nil => rfl
  | cons d t =>
    have hd : ¬p d := by
      rw [hp d (List.all_eq_true.mp ht d List.mem_cons_self)]
      exact Bool.false_ne_true
    rw [run, List.takeWhile_cons_of_neg hd]
    rfl

/-- A text without white space that begins before a tail ends before it. -/
theorem exists_of_append_eq {r : List Char} (hw : w.all isWhiteSpace)
    (hu : ∀ c ∈ u, isWhiteSpace c = false) (h : t ++ w = u ++ r) :
    ∃ r', t = u ++ r' ∧ r = r' ++ w := by
  rcases List.append_eq_append_iff.mp h with ⟨v, rfl, hv⟩ | ⟨v, rfl, rfl⟩
  · cases v with
    | nil => exact ⟨[], by simp, by simpa using hv.symm⟩
    | cons c v =>
      have hc := hu c (by simp)
      rw [hv, List.cons_append, List.all_cons, hc] at hw
      cases hw
  · exact ⟨v, rfl, rfl⟩

variable (hw : IsTail w)
include hw

theorem symbol_append {c : Char} (hc : isWhiteSpace c = false) :
    symbol c (t ++ w) = (symbol c t).map (· ++ w) := by
  cases t with
  | nil => exact symbol_of_white hc hw.white
  | cons d t =>
    by_cases hd : d = c
    · subst hd
      rw [List.cons_append, symbol_self, symbol_self]
      rfl
    · rw [List.cons_append, symbol_of_ne hd, symbol_of_ne hd]
      rfl

theorem run_append_tail {p : Char → Bool} (hn : p '\n' = false) (hr : p '\r' = false) :
    run p (t ++ w) = withTail w (run p t) := by
  have hsplit : (t ++ w).takeWhile p = t.takeWhile p ∧ (t ++ w).dropWhile p = t.dropWhile p ++ w := by
    induction t with
    | nil =>
      cases w with
      | nil => exact ⟨rfl, rfl⟩
      | cons c w => rcases hw.breaks c w rfl with rfl | rfl <;> simp [hn, hr]
    | cons c t ih => by_cases hc : p c <;> simp [hc, ih]
  unfold run
  rw [hsplit.1, hsplit.2]
  split <;> rfl

theorem name_append_tail : name (t ++ w) = withTail w (name t) := by
  have hless : isWhiteSpace '<' = false := by decide
  have hgreater : isWhiteSpace '>' = false := by decide
  unfold name
  rw [symbol_append hw hless]
  cases symbol '<' t with
  | none => rfl
  | some t₁ =>
    simp only [Option.map_some, Option.bind_eq_bind, Option.bind_some]
    rw [run_append_tail hw (by decide) (by decide)]
    cases run isNameChar t₁ with
    | none => rfl
    | some r =>
      simp only [withTail, Option.map_some, Option.bind_some]
      rw [symbol_append hw hgreater]
      cases symbol '>' r.2 <;> rfl

omit hw in
theorem quotedText_of_white (ht : t.all isWhiteSpace) : quotedText t = none := by
  have hquote : isWhiteSpace '"' = false := by decide
  have hbackslash : isWhiteSpace '\\' = false := by decide
  induction t with
  | nil => rfl
  | cons c t ih =>
    obtain ⟨hc, ht⟩ := Bool.and_eq_true_iff.mp (List.all_cons ▸ ht)
    rw [quotedText, ih ht]
    · rfl
    · rintro rfl
      rw [hquote] at hc
      cases hc
    · rintro e r rfl
      rw [hbackslash] at hc
      cases hc
    · rintro rfl
      rw [hbackslash] at hc
      cases hc

theorem quotedText_append : quotedText (t ++ w) = (quotedText t).map fun r => (r.1, r.2 ++ w) := by
  induction t using quotedText.induct with
  | case1 t => rfl
  | case2 e t ih =>
    rw [List.cons_append, List.cons_append, quotedText, quotedText, ih]
    cases escaped? e with
    | none => rfl
    | some c => cases quotedText t <;> rfl
  | case3 =>
    cases w with
    | nil => rfl
    | cons c w => rcases hw.breaks c w rfl with rfl | rfl <;> rfl
  | case4 c t h₁ h₂ h₃ ih =>
    have hc := ne_backslash_of_cases h₂ h₃
    rw [List.cons_append, quotedText, quotedText, ih]
    · cases quotedText t <;> rfl
    · exact h₁
    · exact h₂
    · exact h₃
    · exact h₁
    · exact fun _ _ h => absurd h hc
    · exact fun h => absurd h hc
  | case5 => exact quotedText_of_white hw.white

theorem quoted_append_tail : quoted (t ++ w) = withTail w (quoted t) := by
  have hquote : isWhiteSpace '"' = false := by decide
  unfold quoted
  rw [symbol_append hw hquote]
  cases symbol '"' t with
  | none => rfl
  | some t₁ =>
    simp only [Option.map_some, Option.bind_eq_bind, Option.bind_some]
    rw [quotedText_append hw]
    cases quotedText t₁ <;> rfl

theorem bare_append : bare (t ++ w) = withTail w (bare t) :=
  run_append_tail hw (by decide) (by decide)

theorem graphic_append : graphic (t ++ w) = withTail w (graphic t) :=
  run_append_tail hw (by decide) (by decide)

omit hw in
theorem assigns_eq_some {m : Mode} {r : List Char} :
    assigns t = some (m, r) ↔ t = m.sign.toList ++ r := by
  constructor
  · intro h
    unfold assigns at h
    split at h
    · obtain ⟨rfl, rfl⟩ := Prod.mk.injEq .. ▸ Option.some.inj h
      rfl
    · obtain ⟨rfl, rfl⟩ := Prod.mk.injEq .. ▸ Option.some.inj h
      rfl
    · cases h
  · rintro rfl
    exact assigns_sign m r

theorem assigns_append : assigns (t ++ w) = withTail w (assigns t) := by
  have hcolon : isWhiteSpace ':' = false := by decide
  have hequals : isWhiteSpace '=' = false := by decide
  have hsign (m : Mode) : ∀ c ∈ m.sign.toList, isWhiteSpace c = false := by
    cases m <;> simp [Mode.sign, hcolon, hequals]
  cases hl : assigns (t ++ w) with
  | some r =>
    obtain ⟨v, rfl, he⟩ := exists_of_append_eq hw.white (hsign r.1) (assigns_eq_some.mp hl)
    rw [assigns_sign, withTail_some, ← he]
  | none =>
    cases ht : assigns t with
    | none => rfl
    | some r =>
      rw [assigns_eq_some.mp ht, List.append_assoc, assigns_sign] at hl
      cases hl

omit hw in
theorem ellipsis_eq_some {r : List Char} : ellipsis t = some r ↔ t = "...".toList ++ r := by
  constructor
  · intro h
    unfold ellipsis at h
    split at h
    · obtain rfl := Option.some.inj h
      rfl
    · cases h
  · rintro rfl
    rfl

theorem ellipsis_append : ellipsis (t ++ w) = (ellipsis t).map (· ++ w) := by
  have hdot : isWhiteSpace '.' = false := by decide
  have hdots : ∀ c ∈ "...".toList, isWhiteSpace c = false := by simp [hdot]
  cases hl : ellipsis (t ++ w) with
  | some r =>
    obtain ⟨v, rfl, rfl⟩ := exists_of_append_eq hw.white hdots (ellipsis_eq_some.mp hl)
    rfl
  | none =>
    cases ht : ellipsis t with
    | none => rfl
    | some r =>
      obtain rfl := ellipsis_eq_some.mp ht
      cases hl

end

/-! ## Rests before a tail -/

theorem dropWhile_skip (t : List Char) : (skip t).dropWhile isGap = t.dropWhile isGap := by
  obtain ⟨z, hz, hgaps⟩ := exists_gaps t
  conv_rhs => rw [hz]
  rw [List.dropWhile_append_of_pos (List.all_eq_true.mp hgaps)]

/-- Where reading has come to with `w` behind the text, if it has come to `r` without: to the same
place, but gaps at the end of the text and those of `w` may count as a blank line together. -/
structure Meets (w r r' : List Char) : Prop where
  text : r'.dropWhile isGap = (r ++ w).dropWhile isGap
  front : r.all isGap = false → skip r' = skip r ++ w

section
variable {t t' w : List Char}

theorem meets_append (t w : List Char) : Meets w t (t ++ w) :=
  ⟨rfl, skip_append⟩

theorem meets_skip (h : Meets w t t') : Meets w (skip t) (skip t') where
  text := by
    rw [dropWhile_skip, h.text, List.dropWhile_append, List.dropWhile_append, dropWhile_skip]
  front ht := by
    rw [skip_skip, skip_skip]
    exact h.front ((all_isGap_skip t).symm.trans ht)

theorem Meets.white (h : Meets w t t') (hw : w.all isWhiteSpace) (ht : t.all isGap) :
    t'.all isWhiteSpace := by
  have hgaps : (t'.takeWhile isGap).all isGap := List.all_takeWhile
  have hboth : (t ++ w).all isWhiteSpace := by
    rw [List.all_append, all_isWhiteSpace_of_isGap ht, hw]
    rfl
  rw [← List.takeWhile_append_dropWhile (p := isGap) (l := t'), List.all_append,
    all_isWhiteSpace_of_isGap hgaps, h.text, Bool.true_and]
  exact List.all_eq_true.mpr fun c hc =>
    List.all_eq_true.mp hboth c ((List.dropWhile_suffix _).subset hc)

/-- What finds nothing in white space reads the same behind it. -/
theorem read_of_meets {α : Type} {f f' : List Char → Option (α × List Char)} (h : Meets w t t')
    (hw : w.all isWhiteSpace) (hf : f' (skip t ++ w) = withTail w (f (skip t)))
    (hnone : ∀ t, t.all isWhiteSpace → f t = none)
    (hnone' : ∀ t, t.all isWhiteSpace → f' t = none) :
    f' (skip t') = withTail w (f (skip t)) := by
  cases ht : t.all isGap with
  | false => rw [h.front ht, hf]
  | true =>
    rw [hnone _ (all_isWhiteSpace_skip (all_isWhiteSpace_of_isGap ht)),
      hnone' _ (all_isWhiteSpace_skip (h.white hw ht))]
    rfl

theorem symbol_of_meets {c : Char} (h : Meets w t t') (hw : IsTail w) (hc : isWhiteSpace c = false) :
    symbol c (skip t') = (symbol c (skip t)).map (· ++ w) := by
  cases ht : t.all isGap with
  | false => rw [h.front ht, symbol_append hw hc]
  | true =>
    rw [symbol_of_white hc (all_isWhiteSpace_skip (all_isWhiteSpace_of_isGap ht)),
      symbol_of_white hc (all_isWhiteSpace_skip (h.white hw.white ht))]
    rfl

end

/-! ## Parts before a tail -/

section
variable {t : List Char}

theorem toNat_lt_of_isNameChar {c : Char} (hc : isNameChar c) : c.toNat < 128 := by
  have upper {d : Char} (hd : d.toNat < 128) (h : c ≤ d) : c.toNat < 128 :=
    Nat.lt_of_le_of_lt (UInt32.le_iff_toNat_le.mp h) hd
  have hmarks : ∀ d ∈ " -_:=/.".toList, d.toNat < 128 := by simp
  simp only [isNameChar, Bool.or_eq_true, Bool.and_eq_true, decide_eq_true_eq] at hc
  rcases hc with ((⟨-, h⟩ | ⟨-, h⟩) | ⟨-, h⟩) | h
  · exact upper (by decide) h
  · exact upper (by decide) h
  · exact upper (by decide) h
  · exact hmarks c (List.contains_iff_mem.mp h)

/-- Of white space, a name takes only spaces, and a bare literal nothing. -/
theorem not_bare_of_isWhiteSpace {c : Char} (hc : isWhiteSpace c) :
    (c != ' ' && isNameChar c) = false := by
  have hall : ∀ n : Fin 128, isWhiteSpace (Char.ofNat n) →
      (Char.ofNat n != ' ' && isNameChar (Char.ofNat n)) = false := by decide +kernel
  rw [← Bool.not_eq_true]
  intro h
  have := hall ⟨c.toNat, toNat_lt_of_isNameChar (Bool.and_eq_true_iff.mp h).2⟩
  rw [Char.ofNat_toNat, h] at this
  cases this hc

theorem name_of_white (ht : t.all isWhiteSpace) : name t = none := by
  rw [name, symbol_of_white (by decide) ht]
  rfl

theorem enclosed_of_white {inner : List Char → Option (Body × List Char)} {o c : Char}
    (ho : isWhiteSpace o = false) (ht : t.all isWhiteSpace) : enclosed inner o c t = none := by
  rw [enclosed, symbol_of_white ho (all_isWhiteSpace_skip ht)]
  rfl

theorem quoted_of_white (ht : t.all isWhiteSpace) : quoted t = none := by
  rw [quoted, symbol_of_white (by decide) ht]
  rfl

theorem bare_of_white (ht : t.all isWhiteSpace) : bare t = none :=
  run_of_white (fun _ hc => not_bare_of_isWhiteSpace hc) ht

theorem postfixed_of_white {inner : List Char → Option (Body × List Char)}
    (ht : t.all isWhiteSpace) : postfixed inner t = none := by
  have hprimary : primary inner t = none :=
    primary_eq_none_iff.mpr ⟨name_of_white ht, quoted_of_white ht, bare_of_white ht,
      enclosed_of_white (by decide) ht, enclosed_of_white (by decide) ht⟩
  rw [postfixed, hprimary]
  rfl

end

/-- The same value, and a rest that meets the other, when `w` stands behind the text. -/
inductive ReadsBefore {α : Type} (w : List Char) :
    Option (α × List Char) → Option (α × List Char) → Prop
  | refused : ReadsBefore w none none
  | read {a : α} {r r' : List Char} (h : Meets w r r') : ReadsBefore w (some (a, r)) (some (a, r'))

theorem ReadsBefore.eq_none {α : Type} {w : List Char} {o : Option (α × List Char)}
    (h : ReadsBefore w none o) : o = none := by
  cases h
  rfl

theorem ReadsBefore.eq_some {α : Type} {w r : List Char} {a : α} {o : Option (α × List Char)}
    (h : ReadsBefore w (some (a, r)) o) : ∃ r', o = some (a, r') ∧ Meets w r r' := by
  cases h with
  | read h => exact ⟨_, rfl, h⟩

theorem sequence_skip (inner : List Char → Option (Body × List Char)) (t : List Char) :
    sequence inner (skip t) = sequence inner t := by
  rw [sequence, sequence, skip_skip]

theorem choice_skip (inner : List Char → Option (Body × List Char)) (t : List Char) :
    choice inner (skip t) = choice inner t := by
  rw [choice, choice, skip_skip]

def further (inner : List Char → Option (Body × List Char)) (t : List Char) :
    Option (Body × List Char) :=
  (symbol '|' (skip t)).bind fun t => sequence inner (skip t)

section
variable {inner : List Char → Option (Body × List Char)} {t : List Char}

theorem members_of_none (n : Nat) (h : postfixed inner (skip t) = none) :
    members inner n t = ([], t) := by
  cases n with
  | zero => rfl
  | succ n => rw [members, h]

theorem alternatives_of_none (n : Nat) (h : further inner t = none) :
    alternatives inner n t = ([], t) := by
  unfold further at h
  cases n with
  | zero => rfl
  | succ n => rw [alternatives, h]

end

theorem length_sequence {n : Nat} {b : Body} {t r : List Char} (hn : t.length ≤ n)
    (h : sequence (expressionAt n) t = some (b, r)) : r.length ≤ t.length := by
  have hy := Layout.reads_sequence (fun _ _ => Layout.reads_expressionAt) (s := .init) hn
  rw [h] at hy
  exact hy.length_le

theorem length_further {n : Nat} {b : Body} {t r : List Char} (hn : t.length ≤ n)
    (h : further (expressionAt n) t = some (b, r)) : r.length < t.length := by
  obtain ⟨t₁, hs, h⟩ := Option.bind_eq_some_iff.mp h
  have hlen := length_lt_of_symbol hs
  have hskip₁ := length_skip_le t₁
  have := length_sequence (by omega : (skip t₁).length ≤ n) h
  omega

section
variable {n n' k : Nat} {t t' w : List Char} (hw : IsTail w) (hn : k ≤ n)
variable (hinner : ∀ t, t.length < k →
  ReadsBefore w (expressionAt n (skip t)) (expressionAt n' (skip (t ++ w))))
include hw hinner

theorem enclosed_append {o c : Char} (ho : isWhiteSpace o = false) (hc : isWhiteSpace c = false)
    (hk : t.length ≤ k) :
    enclosed (expressionAt n') o c (t ++ w) = withTail w (enclosed (expressionAt n) o c t) := by
  unfold enclosed
  rw [symbol_of_meets (meets_append t w) hw ho]
  cases hs : symbol o (skip t) with
  | none => rfl
  | some t₁ =>
    have hi := hinner t₁ ((length_lt_of_symbol hs).trans_le hk)
    simp only [Option.map_some, Option.bind_eq_bind, Option.bind_some]
    cases he : expressionAt n (skip t₁) with
    | none =>
      rw [he] at hi
      rw [hi.eq_none]
      rfl
    | some r =>
      rw [he] at hi
      obtain ⟨r', hr', hmeets⟩ := hi.eq_some
      rw [hr']
      simp only [Option.bind_some]
      rw [symbol_of_meets hmeets hw hc]
      cases symbol c (skip r.2) <;> rfl

theorem primary_append (hk : t.length ≤ k) :
    primary (expressionAt n') (t ++ w) = withTail w (primary (expressionAt n) t) := by
  unfold primary
  rw [name_append_tail hw, quoted_append_tail hw, bare_append hw,
    enclosed_append hw hinner (by decide) (by decide) hk,
    enclosed_append hw hinner (by decide) (by decide) hk]
  cases name t with
  | some r => rfl
  | none =>
    cases quoted t with
    | some r => rfl
    | none =>
      cases bare t with
      | some r => rfl
      | none => cases enclosed (expressionAt n) '[' ']' t <;> rfl

theorem postfixed_append (hk : t.length ≤ k) :
    postfixed (expressionAt n') (t ++ w) = withTail w (postfixed (expressionAt n) t) := by
  unfold postfixed
  rw [primary_append hw hinner hk]
  cases primary (expressionAt n) t with
  | none => rfl
  | some r =>
    simp only [withTail, Option.map_some, Option.bind_eq_bind, Option.bind_some]
    rw [ellipsis_append hw]
    cases ellipsis r.2 <;> rfl

theorem postfixed_of_meets (h : Meets w t t') (hk : t.length ≤ k) :
    postfixed (expressionAt n') (skip t') =
      withTail w (postfixed (expressionAt n) (skip t)) :=
  read_of_meets h hw.white (postfixed_append hw hinner ((length_skip_le t).trans hk))
    (fun _ => postfixed_of_white) fun _ => postfixed_of_white

include hn

/-- Further members are the same. -/
theorem members_of_meets {m m' : Nat} (h : Meets w t t') (hm : t.length ≤ m) (hm' : t'.length ≤ m')
    (hk : t.length ≤ k) (hk' : t'.length ≤ n') :
    (members (expressionAt n') m' t').1 = (members (expressionAt n) m t).1 ∧
      Meets w (members (expressionAt n) m t).2 (members (expressionAt n') m' t').2 := by
  induction m generalizing t t' m' with
  | zero =>
    obtain rfl := List.eq_nil_of_length_eq_zero (Nat.le_zero.mp hm)
    have hp : postfixed (expressionAt n) (skip []) = none := postfixed_of_white rfl
    have hp' := postfixed_of_meets hw hinner h hk
    rw [hp] at hp'
    rw [members_of_none _ hp, members_of_none _ hp']
    exact ⟨rfl, h⟩
  | succ m ih =>
    have hp' := postfixed_of_meets hw hinner h hk
    cases hp : postfixed (expressionAt n) (skip t) with
    | none =>
      rw [hp] at hp'
      rw [members_of_none _ hp, members_of_none _ hp']
      exact ⟨rfl, h⟩
    | some r =>
      obtain ⟨b, r⟩ := r
      rw [hp, withTail_some] at hp'
      have hskip := length_skip_le t
      have hskip' := length_skip_le t'
      have hlen := Layout.length_postfixed (fun _ _ => Layout.reads_expressionAt)
        (by omega : (skip t).length ≤ n) hp
      have hlen' := Layout.length_postfixed (fun _ _ => Layout.reads_expressionAt)
        (by omega : (skip t').length ≤ n') hp'
      obtain ⟨m', rfl⟩ : ∃ l, m' = l + 1 := ⟨m' - 1, by omega⟩
      obtain ⟨hlist, hrest⟩ := ih (meets_append r w) (by omega)
        (by omega : (r ++ w).length ≤ m') (by omega) (by omega)
      unfold members
      rw [hp, hp']
      exact ⟨congrArg (b :: ·) hlist, hrest⟩

theorem sequence_append (hk : t.length ≤ k) (hk' : (t ++ w).length ≤ n') :
    ReadsBefore w (sequence (expressionAt n) t) (sequence (expressionAt n') (t ++ w)) := by
  have hp' := postfixed_of_meets hw hinner (meets_append t w) hk
  unfold sequence
  cases hp : postfixed (expressionAt n) (skip t) with
  | none =>
    rw [hp] at hp'
    rw [hp']
    exact .refused
  | some r =>
    obtain ⟨b, r⟩ := r
    rw [hp, withTail_some] at hp'
    have hskip := length_skip_le t
    have hskip' := length_skip_le (t ++ w)
    have hlen := Layout.length_postfixed (fun _ _ => Layout.reads_expressionAt)
      (by omega : (skip t).length ≤ n) hp
    have hlen' := Layout.length_postfixed (fun _ _ => Layout.reads_expressionAt)
      (by omega : (skip (t ++ w)).length ≤ n') hp'
    have hr := length_skip_le r
    have hr' := length_skip_le (r ++ w)
    obtain ⟨hlist, hrest⟩ := members_of_meets hw hn hinner (meets_skip (meets_append r w)) hr hr'
      (by omega) (by omega)
    simp only [hp', Option.bind_eq_bind, Option.bind_some, hlist]
    exact .read hrest

theorem further_of_meets (h : Meets w t t') (hk : t.length ≤ k)
    (hk' : t.length + w.length ≤ n') :
    ReadsBefore w (further (expressionAt n) t) (further (expressionAt n') t') := by
  unfold further
  rw [symbol_of_meets h hw (by decide)]
  cases hs : symbol '|' (skip t) with
  | none => exact .refused
  | some t₁ =>
    have hlen := length_lt_of_symbol hs
    simp only [Option.map_some, Option.bind_some, sequence_skip]
    exact sequence_append hw hn hinner (by omega) (by rw [List.length_append]; omega)

theorem alternatives_of_meets {m m' : Nat} (h : Meets w t t') (hm : t.length ≤ m)
    (hm' : t'.length ≤ m') (hk : t.length ≤ k) (hk' : t'.length ≤ n')
    (hkw : t.length + w.length ≤ n') :
    (alternatives (expressionAt n') m' t').1 = (alternatives (expressionAt n) m t).1 ∧
      Meets w (alternatives (expressionAt n) m t).2 (alternatives (expressionAt n') m' t').2 := by
  induction m generalizing t t' m' with
  | zero =>
    obtain rfl := List.eq_nil_of_length_eq_zero (Nat.le_zero.mp hm)
    have hf : further (expressionAt n) [] = none := rfl
    have hf' := further_of_meets hw hn hinner h hk hkw
    rw [hf] at hf'
    rw [alternatives_of_none _ hf, alternatives_of_none _ hf'.eq_none]
    exact ⟨rfl, h⟩
  | succ m ih =>
    have hf' := further_of_meets hw hn hinner h hk hkw
    cases hf : further (expressionAt n) t with
    | none =>
      rw [hf] at hf'
      rw [alternatives_of_none _ hf, alternatives_of_none _ hf'.eq_none]
      exact ⟨rfl, h⟩
    | some r =>
      obtain ⟨b, r⟩ := r
      rw [hf] at hf'
      obtain ⟨r', hf', hr⟩ := hf'.eq_some
      have hlen := length_further (hk.trans hn) hf
      have hlen' := length_further hk' hf'
      obtain ⟨m', rfl⟩ : ∃ l, m' = l + 1 := ⟨m' - 1, by omega⟩
      obtain ⟨hlist, hrest⟩ := ih hr (by omega) (by omega : r'.length ≤ m') (by omega) (by omega)
        (by omega)
      unfold further at hf hf'
      unfold alternatives
      rw [hf, hf']
      exact ⟨congrArg (b :: ·) hlist, hrest⟩

theorem choice_append (hk : t.length ≤ k) (hk' : (t ++ w).length ≤ n') :
    ReadsBefore w (choice (expressionAt n) t) (choice (expressionAt n') (t ++ w)) := by
  have hs := sequence_append hw hn hinner hk hk'
  unfold choice
  rw [sequence_skip, sequence_skip]
  cases hp : sequence (expressionAt n) t with
  | none =>
    rw [hp] at hs
    rw [hs.eq_none]
    exact .refused
  | some r =>
    obtain ⟨b, r⟩ := r
    rw [hp] at hs
    obtain ⟨r', hp', hmeets⟩ := hs.eq_some
    have hlen := length_sequence (hk.trans hn) hp
    have hlen' := length_sequence hk' hp'
    have hr := length_skip_le r
    have hr' := length_skip_le r'
    rw [List.length_append] at hk'
    obtain ⟨hlist, hrest⟩ := alternatives_of_meets hw hn hinner (meets_skip hmeets) hr hr'
      (by omega) (by rw [List.length_append] at hlen'; omega) (by omega)
    simp only [hp', Option.bind_eq_bind, Option.bind_some, hlist]
    exact .read hrest

end

theorem expressionAt_skip (n : Nat) (t : List Char) :
    expressionAt n (skip t) = expressionAt n t := by
  cases n with
  | zero => rfl
  | succ n => exact choice_skip _ t

section
variable {t w : List Char} (hw : IsTail w)
include hw

theorem expressionAt_append {n n' : Nat} (hn : t.length < n) (hn' : (t ++ w).length < n') :
    ReadsBefore w (expressionAt n t) (expressionAt n' (t ++ w)) := by
  induction n generalizing t n' with
  | zero => exact absurd hn (Nat.not_lt_zero _)
  | succ n ih =>
    obtain ⟨n', rfl⟩ : ∃ l, n' = l + 1 := ⟨n' - 1, by omega⟩
    refine choice_append hw (k := t.length) (Nat.le_of_lt_succ hn) (fun u hu => ?_) (Nat.le_refl _)
      (Nat.le_of_lt_succ hn')
    rw [expressionAt_skip, expressionAt_skip]
    rw [List.length_append] at hn'
    exact ih (by omega) (by rw [List.length_append]; omega)

theorem expression_append : ReadsBefore w (expression t) (expression (t ++ w)) :=
  expressionAt_append hw (Nat.lt_succ_self _) (Nat.lt_succ_self _)

end

end Peg.Bnf.Direct
