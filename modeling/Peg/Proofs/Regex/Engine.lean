import Peg.Proofs.Regex.Compiled
import Peg.Proofs.Regex.Enclosed.Patterns
import Peg.Proofs.Regex.Leftmost
import Peg.Regex.Engine

/-!
# The engine does what is documented

A program is searched for matches at the start only if none can begin anywhere else. So what is
found is the leftmost match of the expression that was read.
-/

namespace Peg

/-! ## Conditions where a match begins -/

namespace Re

variable {text : List Char} {i j : Nat}

theorem eq_of_times {m : Nat → Nat → Prop} (hm : ∀ i j, m i j → i = j) {n : Nat}
    (h : Times m n i j) : i = j := by
  induction n generalizing i with
  | zero => exact h
  | succ n ih =>
    obtain ⟨x, hx, h⟩ := h
    exact (hm i x hx).trans (ih h)

theorem addLength_eq_zero {a b : Option Nat} (h : addLength a b = some 0) :
    a = some 0 ∧ b = some 0 := by
  unfold addLength at h
  split at h
  · simp_all
  · cases h

mutual

/-- A match of no bytes takes no characters. -/
theorem eq_of_maxBytes : ∀ {r : Re} {i j : Nat}, r.maxBytes = some 0 → r.Matches text i j → i = j
  | empty, i, j, _, h => h
  | look _, i, j, _, h => h.2
  | .text cs, i, j, hb, h => by
    cases cs with
    | nil => exact h
    | cons c cs =>
      have := c.utf8Size_pos
      simp [maxBytes, byteLength] at hb
      omega
  | set s, i, j, hb, h => by
    obtain ⟨_, -, hb⟩ := Option.map_eq_some_iff.mp hb
    exact absurd hb (Nat.ne_of_gt (Char.utf8Size_pos _))
  | rep min more _ r, i, j, hb, ⟨x, hx, n, hn, hy⟩ => by
    obtain ⟨extra, rfl, hb⟩ := Option.bind_eq_some_iff.mp hb
    obtain ⟨bytes, hr, hb⟩ := Option.map_eq_some_iff.mp hb
    rcases Nat.mul_eq_zero.mp hb with rfl | hzero
    · have hm (i j : Nat) (h : r.Matches text i j) : i = j := eq_of_maxBytes hr h
      exact (eq_of_times hm hx).trans (eq_of_times hm hy)
    · obtain ⟨rfl, rfl⟩ := Nat.add_eq_zero_iff.mp hzero
      obtain rfl := Nat.le_zero.mp (hn 0 rfl)
      exact hx.trans hy
  | group _ r, i, j, hb, h => eq_of_maxBytes (r := r) hb h
  | seq rs, i, j, hb, h => eq_of_sumMaxBytes hb h
  | alt rs, i, j, hb, h => eq_of_greatestMaxBytes hb h

theorem eq_of_sumMaxBytes :
    ∀ {rs : List Re} {i j : Nat}, sumMaxBytes rs = some 0 → MatchesAll text rs i j → i = j
  | [], _, _, _, h => h
  | r :: rs, i, j, hb, ⟨x, hx, h⟩ => by
    obtain ⟨hr, hrs⟩ := addLength_eq_zero hb
    exact (eq_of_maxBytes hr hx).trans (eq_of_sumMaxBytes hrs h)

theorem eq_of_greatestMaxBytes :
    ∀ {rs : List Re} {i j : Nat}, greatestMaxBytes rs = some 0 → MatchesAny text rs i j → i = j
  | [r], i, j, hb, h => by
    rcases h with h | h
    · exact eq_of_maxBytes (r := r) hb h
    · cases h
  | r :: s :: rs, i, j, hb, h => by
    rw [greatestMaxBytes] at hb
    · split at hb
      · rename_i a b ha hb'
        obtain ⟨rfl, rfl⟩ : a = 0 ∧ b = 0 := by
          have := Option.some.inj hb
          omega
        rcases h with h | h
        · exact eq_of_maxBytes ha h
        · exact eq_of_greatestMaxBytes hb' h
      · cases hb
    · exact nofun

end

mutual

theorem holds_of_beginsWith {l : Look} : ∀ {r : Re} {i j : Nat}, r.beginsWith l →
    r.Matches text i j → l.holds (charBefore text i) text[i]?
  | look m, i, j, hb, h => by
    obtain rfl : l = m := by simpa [beginsWith] using hb
    exact h.1
  | rep min more _ r, i, j, hb, ⟨x, hx, _⟩ => by
    obtain ⟨hmin, hr⟩ := Bool.and_eq_true_iff.mp hb
    cases min with
    | zero => cases hmin
    | succ min =>
      obtain ⟨y, hy, -⟩ := hx
      exact holds_of_beginsWith hr hy
  | group _ r, i, j, hb, h => holds_of_beginsWith (r := r) hb h
  | seq rs, i, j, hb, h => holds_of_firstBeginsWith hb h
  | alt rs, i, j, hb, h => holds_of_allBeginWith hb h

theorem holds_of_firstBeginsWith {l : Look} : ∀ {rs : List Re} {i j : Nat},
    firstBeginsWith l rs → MatchesAll text rs i j → l.holds (charBefore text i) text[i]?
  | r :: rs, i, j, hb, ⟨x, hx, h⟩ => by
    rcases Bool.or_eq_true_iff.mp hb with hr | hrs
    · exact holds_of_beginsWith hr hx
    · obtain ⟨hempty, hrs⟩ := Bool.and_eq_true_iff.mp hrs
      obtain rfl := eq_of_maxBytes (by simpa using hempty) hx
      exact holds_of_firstBeginsWith hrs h

theorem holds_of_allBeginWith {l : Look} : ∀ {rs : List Re} {i j : Nat},
    allBeginWith l rs → MatchesAny text rs i j → l.holds (charBefore text i) text[i]?
  | r :: rs, i, j, hb, h => by
    obtain ⟨hr, hrs⟩ := Bool.and_eq_true_iff.mp hb
    rcases h with h | h
    · exact holds_of_beginsWith hr h
    · exact holds_of_allBeginWith hrs h

end

end Re

/-! ## What is found -/

section
variable {p : Program} {text : List Char} {start stop : Nat}

theorem Program.Goes.le {x y : Nat × Nat} (h : p.Goes text x y) :
    x.2 ≤ y.2 ∧ (x.2 ≤ text.length → y.2 ≤ text.length) := by
  cases h with
  | skip => exact ⟨Nat.le_refl _, id⟩
  | step _ hc => exact ⟨Nat.le_succ _, fun _ => (List.getElem?_eq_some_iff.mp hc).1⟩

theorem Program.Runs.le {x y : Nat × Nat} (h : p.Runs text x y) :
    x.2 ≤ y.2 ∧ (x.2 ≤ text.length → y.2 ≤ text.length) := by
  induction h with
  | refl => exact ⟨Nat.le_refl _, id⟩
  | tail _ hgo ih => exact ⟨Nat.le_trans ih.1 hgo.le.1, fun hx => hgo.le.2 (ih.2 hx)⟩

theorem Re.leftmost_of_search {r : Re} (h : r.program.search text = some (start, stop)) :
    r.Leftmost text start stop := by
  obtain ⟨hfound, hfirst⟩ := search_leftmost r.program text
  obtain ⟨⟨last, hrun, hlast⟩, hlen, -⟩ := hfound start stop h
  refine ⟨(program_matches_iff r).mp ⟨last, hrun, hlast⟩, hrun.le.1, hrun.le.2 hlen,
    fun i j hij => ?_⟩
  by_cases hle : i ≤ text.length
  · have hmay : r.program.MayStart i := fun hanchored =>
      eq_zero_of_holds_textStart (holds_of_beginsWith hanchored hij) hle
    obtain ⟨last, hrun, hlast⟩ := (program_matches_iff r).mpr hij
    obtain ⟨s, e, he, hs⟩ := hfirst i hle hmay ⟨last, j, hrun, hlast⟩
    obtain ⟨rfl, rfl⟩ := Prod.mk.inj (Option.some.inj (h.symm.trans he))
    exact hs
  · exact Nat.le_trans hlen (Nat.le_of_not_le hle)

end

/-! ## Simple forms -/

namespace Re

variable {text : List Char} {i j : Nat}

theorem matchesAll_members (r : Re) : MatchesAll text r.members i j ↔ r.Matches text i j := by
  unfold members
  split
  · rfl
  · rfl
  · simp [MatchesAll, Relation.Comp]

theorem matchesAll_joinTexts (rs : List Re) :
    MatchesAll text (joinTexts rs) i j ↔ MatchesAll text rs i j := by
  fun_induction joinTexts rs generalizing i j with
  | case1 => rfl
  | case2 cs rs ds rest he ih =>
    rw [he] at ih
    simp only [MatchesAll, Relation.Comp, ← ih, Matches, matchesText_append]
    grind
  | case3 cs rs hne ih => simp only [MatchesAll, Relation.Comp, ih]
  | case4 r rs hne ih => simp only [MatchesAll, Relation.Comp, ih]

theorem matchesAll_flatMap_members (rs : List Re) :
    MatchesAll text (rs.flatMap members) i j ↔ MatchesAll text rs i j := by
  induction rs generalizing i with
  | nil => rfl
  | cons r rs ih =>
    rw [List.flatMap_cons, matchesAll_append]
    simp only [MatchesAll, Relation.Comp, ih, matchesAll_members]

theorem matches_sequence (rs : List Re) :
    (sequence rs).Matches text i j ↔ (seq rs).Matches text i j := by
  have h : MatchesAll text (joinTexts (rs.flatMap members)) i j ↔ MatchesAll text rs i j :=
    (matchesAll_joinTexts _).trans (matchesAll_flatMap_members rs)
  refine Iff.trans ?_ h
  unfold sequence
  split
  · rename_i he
    rw [he]
    rfl
  · rename_i he
    rw [he]
    simp [MatchesAll, Relation.Comp]
  · rfl

/-- A sequence that begins with a condition stays one. -/
theorem sequence_look (l : Look) (r : Re) :
    sequence [.look l, r] = .look l ∨ ∃ rs, sequence [.look l, r] = .seq (.look l :: rs) := by
  have hjoin : joinTexts ([.look l, r].flatMap members) = .look l :: joinTexts r.members := by
    simp [members, joinTexts]
  unfold sequence
  rw [hjoin]
  cases joinTexts r.members with
  | nil => exact .inl rfl
  | cons s rs => exact .inr ⟨s :: rs, rfl⟩

theorem choice_sequence_look (l : Look) (r : Re) :
    choice [sequence [.look l, r]] = sequence [.look l, r] := by
  rcases sequence_look l r with h | ⟨rs, h⟩
  · simp [h, choice, branches, sharedStart, choose]
  · simp [h, choice, branches, sharedStart, choose]

end Re

/-! ## The condition for the start -/

namespace Regex

/-- What stands around the group of an anchored pattern. -/
def Outer.start : Outer :=
  ⟨⟨[], [⟨some (.look .textStart), 0⟩]⟩, .start, none⟩

theorem read?_anchor (text : String) :
    read? (Pattern.anchor text).toList =
      readFrom? (text.toList.length + 4) (State.start.within .start) (text.toList ++ [')']) := by
  have htext : (Pattern.anchor text).toList =
      '^' :: '(' :: '?' :: ':' :: (text.toList ++ [')']) := by
    simp [Pattern.anchor]
  unfold read?
  rw [htext]
  simp only [List.length_cons, List.length_append, List.length_nil]
  rfl

/-- If the text is a regular expression, the condition for the start is in front of all of it. -/
theorem read?_anchor_eq {text : String} {a b : Re} (ha : read? text.toList = some a)
    (hb : read? (Pattern.anchor text).toList = some b) :
    b = .sequence [.look .textStart, a] := by
  rw [read?_anchor] at hb
  obtain ⟨depth, rfl⟩ :=
    readFrom?_within rfl (enclosed_append _) (Nat.lt_succ_self _) (by omega) ha hb
  exact Re.choice_sequence_look .textStart a

/-- Whatever it refuses as too large, the engine does what is documented. -/
theorem engine_documented (fits : Re → Bool) :
    @RegexLibrary.Documented (engine fits) fun text => read? text.toList := by
  refine @RegexLibrary.Documented.mk (engine fits) _ ?_ ?_
  · intro text search h
    obtain ⟨r, hr, rfl⟩ := Option.map_eq_some_iff.mp h
    exact ⟨r, (Option.filter_eq_some_iff.mp hr).1, fun _ _ _ => Re.leftmost_of_search⟩
  · intro text a r ha hr _ i j
    rw [read?_anchor_eq ha hr]
    exact Re.matches_sequence _

end Regex

end Peg
