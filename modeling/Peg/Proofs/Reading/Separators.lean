import Peg.Proofs.Reading.Cuts
import Peg.Proofs.Regex.Matches
import Peg.Regex.Reader

/-!
# Separators as a regular expression

The separators of a source are the matches of a regular expression, and what is counted at the front
of a text is the longest match there.
-/

namespace Peg

open Relation (Comp ReflTransGen)

/-! ## Texts that are matches -/

namespace Re

/-- The parts of the text of which `m` holds are those of which `P` does as texts. -/
def Spells (text : List Char) (m : Nat → Nat → Prop) (P : List Char → Prop) : Prop :=
  ∀ i j, m i j ↔ ∃ u, P u ∧ MatchesText text u i j

section
variable {text : List Char} {m m' : Nat → Nat → Prop} {P Q : List Char → Prop}

theorem Spells.congr (h : Spells text m P) (hPQ : ∀ u, P u ↔ Q u) : Spells text m Q := by
  obtain rfl : P = Q := funext fun u => propext (hPQ u)
  exact h

theorem spells_eq : Spells text Eq (· = []) := by
  intro i j
  simp [MatchesText]

theorem spells_text (cs : List Char) : Spells text (MatchesText text cs) (· = cs) := by
  intro i j
  simp

theorem spells_set (s : CharSet) :
    Spells text (Matches text (set s)) fun u => ∃ c, s.contains c ∧ u = [c] := by
  intro i j
  constructor
  · rintro ⟨⟨c, hc, hs⟩, rfl⟩
    exact ⟨[c], ⟨c, hs, rfl⟩, hc, rfl⟩
  · rintro ⟨_, ⟨c, hs, rfl⟩, hc, rfl⟩
    exact ⟨⟨c, hc, hs⟩, rfl⟩

theorem Spells.comp (h : Spells text m P) (h' : Spells text m' Q) :
    Spells text (Comp m m') fun u => ∃ v w, u = v ++ w ∧ P v ∧ Q w := by
  intro i j
  constructor
  · rintro ⟨x, hx, hrest⟩
    obtain ⟨v, hv, hx⟩ := (h i x).mp hx
    obtain ⟨w, hw, hrest⟩ := (h' x j).mp hrest
    exact ⟨v ++ w, ⟨v, w, rfl, hv, hw⟩, (matchesText_append v w).mpr ⟨x, hx, hrest⟩⟩
  · rintro ⟨_, ⟨v, w, rfl, hv, hw⟩, hrun⟩
    obtain ⟨x, hx, hrest⟩ := (matchesText_append v w).mp hrun
    exact ⟨x, (h i x).mpr ⟨v, hv, hx⟩, (h' x j).mpr ⟨w, hw, hrest⟩⟩

theorem Spells.optional (h : Spells text m P) :
    Spells text (UpTo m (some 1)) fun u => u = [] ∨ P u := by
  intro i j
  have hone : UpTo m (some 1) i j ↔ m i j ∨ i = j := by
    simp [upTo_succ_iff, Comp, upTo_zero_iff]
  rw [hone, h i j]
  constructor
  · rintro (⟨u, hu, hm⟩ | rfl)
    · exact ⟨u, .inr hu, hm⟩
    · exact ⟨[], .inl rfl, rfl⟩
  · rintro ⟨u, rfl | hu, hm⟩
    · exact .inr hm
    · exact .inl ⟨u, hu, hm⟩

theorem Spells.star (h : Spells text m P) :
    Spells text (ReflTransGen m)
      fun u => ∃ us : List (List Char), u = us.flatten ∧ ∀ v ∈ us, P v := by
  intro i j
  constructor
  · intro hm
    induction hm using ReflTransGen.head_induction_on with
    | refl => exact ⟨[], ⟨[], rfl, nofun⟩, rfl⟩
    | head hx _ ih =>
      obtain ⟨v, hv, hx⟩ := (h _ _).mp hx
      obtain ⟨_, ⟨us, rfl, hus⟩, hrest⟩ := ih
      exact ⟨v ++ us.flatten, ⟨v :: us, rfl, List.forall_mem_cons.mpr ⟨hv, hus⟩⟩,
        (matchesText_append v _).mpr ⟨_, hx, hrest⟩⟩
  · rintro ⟨_, ⟨us, rfl, hus⟩, hm⟩
    induction us generalizing i with
    | nil => exact hm ▸ .refl
    | cons v us ih =>
      obtain ⟨hv, hus⟩ := List.forall_mem_cons.mp hus
      obtain ⟨x, hx, hrest⟩ := (matchesText_append v _).mp hm
      exact .head ((h i x).mpr ⟨v, hv, hx⟩) (ih x hus hrest)

theorem matches_rep_zero (r : Re) (more : Option Nat) (greedy : Bool) :
    Matches text (rep 0 more greedy r) = UpTo (Matches text r) more :=
  Relation.eq_comp

theorem matches_rep_succ (n : Nat) (r : Re) (more : Option Nat) (greedy : Bool) :
    Matches text (rep (n + 1) more greedy r) =
      Comp (Matches text r) (Matches text (rep n more greedy r)) :=
  Relation.comp_assoc

theorem spells_any {r : Re} (h : Spells text (Matches text r) P) (greedy : Bool) :
    Spells text (Matches text (rep 0 none greedy r))
      fun u => ∃ us : List (List Char), u = us.flatten ∧ ∀ v ∈ us, P v := by
  intro i j
  rw [matches_rep_zero, upTo_none_iff]
  exact h.star i j

theorem matchesText_iff {u : List Char} {i j : Nat} :
    MatchesText text u i j ↔ u <+: text.drop i ∧ i + u.length = j := by
  induction u generalizing i with
  | nil => simp [MatchesText]
  | cons c u ih =>
    rw [MatchesText, ih, ← List.head?_drop, ← List.tail_drop, List.length_cons,
      Nat.succ_add_eq_add_succ]
    cases text.drop i with
    | nil => simp
    | cons d t => simp [List.cons_prefix_cons, and_assoc, eq_comm]

end

end Re

namespace Bnf

open Re

/-! ## The pattern of a separator -/

def separatorPattern : String :=
  "\\r?\\n(?:[ \\t]*\\r?\\n)+"

def optionalReturn : Re :=
  .rep 0 (some 1) true (.text ['\r'])

def blankLineRe : Re :=
  .seq [.rep 0 none true (.set [(9, 9), (32, 32)]), optionalReturn, .text ['\n']]

def separatorRe : Re :=
  .seq [optionalReturn, .text ['\n'], .rep 1 none true blankLineRe]

theorem read?_separatorPattern : Regex.read? separatorPattern.toList = some separatorRe :=
  rfl

section
variable {text : List Char}

theorem spells_lineEnd {rs : List Re} {P : List Char → Prop}
    (h : Spells text (Matches text (.seq rs)) P) :
    Spells text (Matches text (.seq (optionalReturn :: .text ['\n'] :: rs)))
      fun u => ∃ v w, u = v ++ w ∧ IsLineEnd v ∧ P w := by
  have hreturn : Spells text (Matches text optionalReturn) fun u => u = [] ∨ u = ['\r'] := by
    rw [optionalReturn, matches_rep_zero]
    exact (spells_text ['\r']).optional
  refine Spells.congr (hreturn.comp ((spells_text ['\n']).comp h)) fun u => ?_
  constructor
  · rintro ⟨_, _, rfl, rfl | rfl, _, w, rfl, rfl, hw⟩
    · exact ⟨['\n'], w, rfl, .inl rfl, hw⟩
    · exact ⟨['\r', '\n'], w, rfl, .inr rfl, hw⟩
  · rintro ⟨_, w, rfl, rfl | rfl, hw⟩
    · exact ⟨[], _, rfl, .inl rfl, ['\n'], w, rfl, rfl, hw⟩
    · exact ⟨['\r'], _, rfl, .inr rfl, ['\n'], w, rfl, rfl, hw⟩

theorem contains_blank (c : Char) :
    Ranges.contains [(9, 9), (32, 32)] c ↔ c = ' ' ∨ c = '\t' := by
  rw [← Char.toNat_inj, ← Char.toNat_inj]
  simp [Ranges.contains]
  omega

theorem spells_blanks : Spells text (Matches text (.rep 0 none true (.set [(9, 9), (32, 32)])))
    fun u => ∀ c ∈ u, c = ' ' ∨ c = '\t' := by
  refine (spells_any (spells_set _) true).congr fun u => ?_
  constructor
  · rintro ⟨us, rfl, hus⟩ c hc
    obtain ⟨v, hv, hc⟩ := List.mem_flatten.mp hc
    obtain ⟨d, hd, rfl⟩ := hus v hv
    obtain rfl := List.mem_singleton.mp hc
    exact (contains_blank c).mp hd
  · intro hu
    refine ⟨u.map ([·]), ?_, List.forall_mem_map.mpr fun c hc => ?_⟩
    · rw [← List.flatMap_def, List.flatMap_singleton']
    · exact ⟨c, (contains_blank c).mpr (hu c hc), rfl⟩

theorem spells_blankLine : Spells text (Matches text blankLineRe) IsBlankLine := by
  refine Spells.congr (spells_blanks.comp (spells_lineEnd spells_eq)) fun u => ?_
  constructor
  · rintro ⟨blank, _, rfl, hblank, lineEnd, _, rfl, hend, rfl⟩
    exact ⟨blank, lineEnd, by simp, hblank, hend⟩
  · rintro ⟨blank, lineEnd, rfl, hblank, hend⟩
    exact ⟨blank, lineEnd, rfl, hblank, lineEnd, [], by simp, hend, rfl⟩

theorem spells_blankLines : Spells text (Matches text (.rep 1 none true blankLineRe))
    fun u => ∃ lines : List (List Char), u = lines.flatten ∧ lines ≠ [] ∧
      ∀ line ∈ lines, IsBlankLine line := by
  rw [matches_rep_succ]
  refine (spells_blankLine.comp (spells_any spells_blankLine true)).congr fun u => ?_
  constructor
  · rintro ⟨line, _, rfl, hline, lines, rfl, hlines⟩
    exact ⟨line :: lines, rfl, List.cons_ne_nil _ _, List.forall_mem_cons.mpr ⟨hline, hlines⟩⟩
  · rintro ⟨lines, rfl, hne, hlines⟩
    obtain ⟨line, lines, rfl⟩ := List.exists_cons_of_ne_nil hne
    obtain ⟨hline, hlines⟩ := List.forall_mem_cons.mp hlines
    exact ⟨line, lines.flatten, rfl, hline, lines, rfl, hlines⟩

/-- The matches of the pattern are the separators. -/
theorem spells_separator : Spells text (Matches text separatorRe) IsSeparator := by
  refine Spells.congr (spells_lineEnd (spells_blankLines.comp spells_eq)) fun u => ?_
  constructor
  · rintro ⟨lineEnd, _, rfl, hend, _, _, rfl, ⟨lines, rfl, hne, hlines⟩, rfl⟩
    exact ⟨lineEnd, lines, by simp, hend, hne, hlines⟩
  · rintro ⟨lineEnd, lines, rfl, hend, hne, hlines⟩
    exact ⟨lineEnd, _, rfl, hend, lines.flatten, [], by simp, ⟨lines, rfl, hne, hlines⟩, rfl⟩

end

theorem separator_matches {t : List Char} (h : separator t ≠ 0) :
    separatorRe.Matches t 0 (separator t) := by
  obtain ⟨sep, rest, rfl, hsep, hrest⟩ := exists_of_separator h
  rw [separator_append hsep, hrest, Nat.add_zero]
  exact (spells_separator 0 _).mpr ⟨sep, hsep, matchesText_iff.mpr ⟨by simp, by simp⟩⟩

theorem le_separator {t : List Char} {n : Nat} (h : separatorRe.Matches t 0 n) :
    0 < n ∧ n ≤ separator t := by
  obtain ⟨sep, hsep, hm⟩ := (spells_separator 0 n).mp h
  obtain ⟨⟨rest, rfl⟩, rfl⟩ := matchesText_iff.mp hm
  have := length_pos_of_isSeparator hsep
  rw [separator_append hsep]
  omega

/-- The separators of a source are the matches of the pattern, and what is counted at the front of a
text is the longest match there. -/
theorem separator_pattern : ∃ r, Regex.read? separatorPattern.toList = some r ∧
    ∀ t, Spells t (r.Matches t) IsSeparator ∧ (separator t = 0 ↔ ∀ n, ¬r.Matches t 0 n) ∧
      (separator t ≠ 0 → r.Matches t 0 (separator t) ∧ ∀ n, r.Matches t 0 n → n ≤ separator t) := by
  refine ⟨separatorRe, read?_separatorPattern, fun t => ⟨spells_separator, ?_, fun h => ?_⟩⟩
  · constructor
    · intro hzero n hn
      have := le_separator hn
      omega
    · intro hnone
      by_contra h
      exact hnone _ (separator_matches h)
  · exact ⟨separator_matches h, fun n hn => (le_separator hn).2⟩

end Bnf

end Peg
