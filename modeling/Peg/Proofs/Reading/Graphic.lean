import Peg.Proofs.Reading.Leftovers
import Peg.Proofs.Reading.Printing

/-!
# Graphic literals

A right-hand side of visible characters that is not read as an expression stands for itself, but
only if no word begins behind its brackets: a word would be left on the stack.
-/

namespace Peg.Bnf

namespace Direct

theorem skip_of_visible {t : List Char} (ht : ∀ c ∈ t, isGap c = false) : skip t = t := by
  cases t with
  | nil => rfl
  | cons c t =>
    rw [skip, ht c List.mem_cons_self, Bool.and_false]
    rfl

theorem graphic_of_visible {g : String} (hne : g ≠ "") (hg : ∀ c ∈ g.toList, isGap c = false) :
    graphic g.toList = some (g, []) := by
  have hrun := run_append (p := fun c => !isGap c) (u := g.toList) (r := [])
    (by simpa using hne) (fun c hc => by rw [hg c hc]; rfl) nofun
  rwa [List.append_nil, String.ofList_toList] at hrun

/-- What is not read as an expression is the body of its rule. -/
theorem rule_graphic {n g : String} (hn : isName n) (hne : g ≠ "")
    (hg : ∀ c ∈ g.toList, isGap c = false) (he : expression g.toList = none) :
    rule ("<" ++ n ++ "> ::= " ++ g).toList = some ⟨n, ⟨.lit g, .loose⟩, .graphic, []⟩ ∧
      sideText ("<" ++ n ++ "> ::= " ++ g).toList = some g.toList := by
  have htext : ("<" ++ n ++ "> ::= " ++ g).toList =
      '<' :: n.toList ++ ['>'] ++ ' ' :: (Mode.loose.sign.toList ++ ' ' :: g.toList) := by
    simp [Mode.sign]
  have hfirst : skip ('<' :: n.toList ++ ['>'] ++ ' ' :: (Mode.loose.sign.toList ++ ' ' :: g.toList))
      = '<' :: n.toList ++ ['>'] ++ ' ' :: (Mode.loose.sign.toList ++ ' ' :: g.toList) := rfl
  have hsign : skip (' ' :: (Mode.loose.sign.toList ++ ' ' :: g.toList)) =
      Mode.loose.sign.toList ++ ' ' :: g.toList := rfl
  have hheading : heading ("<" ++ n ++ "> ::= " ++ g).toList =
      some ((n, .loose), ' ' :: g.toList) := by
    rw [htext]
    refine heading_eq_some_iff.mpr ⟨_, by rw [hfirst, name_append hn], ?_⟩
    rw [hsign, assigns_sign]
  have hbody : skip (' ' :: g.toList) = g.toList := by
    have hblank : (blankLine (' ' :: g.toList)).isNone && isGap ' ' := rfl
    rw [skip, if_pos hblank, skip_of_visible hg]
  have hside : side g.toList = some (.graphic, .lit g, []) := by
    simp only [side, he, graphic_of_visible hne hg, Option.map_some]
  constructor
  · exact rule_eq_some_iff_heading.mpr ⟨_, [], hheading, by rw [hbody, hside], rfl⟩
  · rw [sideText, hheading, Option.map_some, hbody]

end Direct

/-- A parse matches if a rest is yielded. -/
theorem isMatch_of_yields {σ : Type} {g : Grammar σ} {h : Handle} {text : String} {s s' : σ}
    {v : Verdict} (hy : Yields g false h text.toList s v s') :
    (g.parse h text s).1.isMatch ↔ ∃ rest, v = .took rest := by
  obtain ⟨o, hp, ho⟩ := parse_iff_yields.mp hy
  rw [hp]
  cases o <;> cases ho <;> simp [Outcome.isMatch, Outcome.consumed?]

/-- The notation's expression matches at the front of a text that is read as one. -/
theorem Layout.isMatch_expression (text : String) (s : Reductions) :
    (grammar.parse phrases.expression text s).1.isMatch =
      (Direct.expression text.toList).isSome := by
  have hy := reads_expression (t := text.toList) (s := s)
  rw [Bool.eq_iff_iff]
  cases he : Direct.expression text.toList with
  | none =>
    rw [he] at hy
    obtain ⟨js, hy⟩ := hy
    exact (isMatch_of_yields hy).trans (by simp)
  | some r =>
    rw [he] at hy
    rcases hy with hy | ⟨-, js, -, hy⟩
    · exact (isMatch_of_yields hy).trans (by simp)
    · exact (isMatch_of_yields hy).trans (by simp)

theorem readRule_visible_iff {n g : String} (hn : isName n) (hne : g ≠ "")
    (hg : ∀ c ∈ g.toList, Direct.isGap c = false) (he : Direct.expression g.toList = none) :
    readRule ("<" ++ n ++ "> ::= " ++ g) = .ok (n, ⟨.lit g, .loose⟩) ↔
      Direct.isWordless g.toList := by
  obtain ⟨hrule, hside⟩ := Direct.rule_graphic hn hne hg he
  rw [readRule_eq_ok_iff_rule]
  constructor
  · rintro ⟨r, hr, -, -, -, hword⟩
    obtain rfl := Option.some.inj (hrule.symm.trans hr)
    obtain ⟨u, hu, hw⟩ := hword rfl
    obtain rfl := Option.some.inj (hside.symm.trans hu)
    exact hw
  · intro hw
    exact ⟨_, hrule, rfl, rfl, rfl, fun _ => ⟨_, hside, hw⟩⟩

/-- The literal is read exactly if the failed attempt to read an expression has left nothing. -/
theorem readRule_graphic_iff {r : Reader} {n g : String} (hr : reader = .ok r) (hn : isName n)
    (hne : g ≠ "") (hg : ∀ c ∈ g.toList, Direct.isGap c = false)
    (he : (r.grammar.parse r.phrases.expression g .init).1.isMatch = false) :
    readRule ("<" ++ n ++ "> ::= " ++ g) = .ok (n, ⟨.lit g, .loose⟩) ↔
      Direct.isWordless g.toList := by
  obtain rfl : ⟨Layout.grammar, Layout.phrases⟩ = r := Except.ok.inj (Layout.reader_eq ▸ hr)
  rw [Layout.isMatch_expression, Option.isSome_eq_false_iff, Option.isNone_iff_eq_none] at he
  exact readRule_visible_iff hn hne hg he

/-- Brackets leave nothing. -/
theorem readRule_graphic_iff_brackets :
    readRule "<a> ::= [\x7b*" = .ok ("a", ⟨.lit "[\x7b*", .loose⟩) :=
  (readRule_graphic_iff (n := "a") (g := "[\x7b*") Layout.reader_eq (by decide) (by decide)
    (by simp [Direct.isGap]) (by rw [Layout.isMatch_expression]; decide +kernel)).mpr (by decide +kernel)

/-- A word inside brackets that are not closed is left, and takes the place of the name. -/
theorem readRule_graphic_leftover :
    ¬∀ (r : Reader) (n g : String), reader = .ok r → isName n → g ≠ "" →
      (∀ c ∈ g.toList, Direct.isGap c = false) →
        (r.grammar.parse r.phrases.expression g .init).1.isMatch = false →
          readRule ("<" ++ n ++ "> ::= " ++ g) = .ok (n, ⟨.lit g, .loose⟩) := by
  intro h
  have hvisible : ∀ c ∈ "[x".toList, Direct.isGap c = false := by simp [Direct.isGap]
  have hread := h _ "a" "[x" Layout.reader_eq (by decide) (by decide) hvisible
    (by rw [Layout.isMatch_expression]; decide +kernel)
  have hword := (readRule_visible_iff (n := "a") (by decide) (by decide) hvisible
    (by decide +kernel)).mp hread
  exact absurd hword (by decide +kernel)

end Peg.Bnf
