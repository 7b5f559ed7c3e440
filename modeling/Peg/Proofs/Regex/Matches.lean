import Peg.Regex.Basic
import Peg.Regex.Pattern
import Mathlib.Logic.Relation

/-!
# What expressions match

A match is a part of a text, from one position to another. Conditions see the characters on the two
sides of a position. A search is for the leftmost match, before which no other begins; which one of
those that begin there it finds is left open.
-/

namespace Peg

open Relation (Comp)

/-- The character before position `i` of the text. -/
def charBefore (text : List Char) (i : Nat) : Option Char :=
  if i = 0 then none else text[i - 1]?

theorem eq_zero_of_holds_textStart {text : List Char} {i : Nat} {after : Option Char}
    (h : Look.textStart.holds (charBefore text i) after) (hi : i ≤ text.length) : i = 0 := by
  change (charBefore text i).isNone at h
  unfold charBefore at h
  split at h
  · assumption
  · rw [Option.isNone_iff_eq_none, List.getElem?_eq_none_iff] at h
    omega

namespace Re

/-- `n` parts of a text next to each other, of each of which `m` holds. -/
def Times (m : Nat → Nat → Prop) : Nat → Nat → Nat → Prop
  | 0 => Eq
  | n + 1 => Comp m (Times m n)

def UpTo (m : Nat → Nat → Prop) (max : Option Nat) (i j : Nat) : Prop :=
  ∃ n, (∀ k ∈ max, n ≤ k) ∧ Times m n i j

def MatchesText (text : List Char) : List Char → Nat → Nat → Prop
  | [], i, j => i = j
  | c :: cs, i, j => text[i]? = some c ∧ MatchesText text cs (i + 1) j

mutual

/-- The part of the text from `i` to `j` is a match. -/
def Matches (text : List Char) : Re → Nat → Nat → Prop
  | empty, i, j => i = j
  | .text cs, i, j => MatchesText text cs i j
  | set s, i, j => (∃ c, text[i]? = some c ∧ s.contains c) ∧ i + 1 = j
  | look l, i, j => l.holds (charBefore text i) text[i]? ∧ i = j
  | rep min more _ r, i, j => Comp (Times (Matches text r) min) (UpTo (Matches text r) more) i j
  | group _ r, i, j => Matches text r i j
  | seq rs, i, j => MatchesAll text rs i j
  | alt rs, i, j => MatchesAny text rs i j

def MatchesAll (text : List Char) : List Re → Nat → Nat → Prop
  | [], i, j => i = j
  | r :: rs, i, j => Comp (Matches text r) (MatchesAll text rs) i j

def MatchesAny (text : List Char) : List Re → Nat → Nat → Prop
  | [], _, _ => False
  | r :: rs, i, j => Matches text r i j ∨ MatchesAny text rs i j

end

section
variable {text : List Char} {m : Nat → Nat → Prop} {i j : Nat}

theorem upTo_zero_iff : UpTo m (some 0) i j ↔ i = j := by
  simp [UpTo, Times]

theorem upTo_succ_iff {n : Nat} :
    UpTo m (some (n + 1)) i j ↔ Comp m (UpTo m (some n)) i j ∨ i = j := by
  constructor
  · rintro ⟨times, hle, h⟩
    cases times with
    | zero => exact .inr h
    | succ times =>
      obtain ⟨x, hx, h⟩ := h
      refine .inl ⟨x, hx, times, fun k hk => ?_, h⟩
      obtain rfl := Option.mem_some.mp hk
      exact Nat.le_of_succ_le_succ (hle _ rfl)
  · rintro (⟨x, hx, times, hle, h⟩ | rfl)
    · refine ⟨times + 1, fun k hk => ?_, x, hx, h⟩
      obtain rfl := Option.mem_some.mp hk
      exact Nat.succ_le_succ (hle n rfl)
    · exact ⟨0, fun _ _ => Nat.zero_le _, rfl⟩

theorem upTo_none_iff : UpTo m none i j ↔ Relation.ReflTransGen m i j := by
  constructor
  · rintro ⟨n, -, h⟩
    induction n generalizing i with
    | zero => exact h ▸ .refl
    | succ n ih =>
      obtain ⟨x, hx, h⟩ := h
      exact .head hx (ih h)
  · intro h
    induction h using Relation.ReflTransGen.head_induction_on with
    | refl => exact ⟨0, nofun, rfl⟩
    | head hx _ ih =>
      obtain ⟨n, -, h⟩ := ih
      exact ⟨n + 1, nofun, _, hx, h⟩

theorem matchesText_append (cs ds : List Char) :
    MatchesText text (cs ++ ds) i j ↔ ∃ x, MatchesText text cs i x ∧ MatchesText text ds x j := by
  induction cs generalizing i with
  | nil => simp [MatchesText]
  | cons c cs ih => simp [MatchesText, ih, and_assoc]

theorem matchesAll_append (rs ss : List Re) :
    MatchesAll text (rs ++ ss) i j ↔ ∃ x, MatchesAll text rs i x ∧ MatchesAll text ss x j := by
  induction rs generalizing i with
  | nil => simp [MatchesAll]
  | cons r rs ih =>
    simp only [List.cons_append, MatchesAll, Relation.Comp, ih]
    grind

end

/-- The part of the text is a match, and no other begins before it. -/
structure Leftmost (r : Re) (text : List Char) (start stop : Nat) : Prop where
  isMatch : r.Matches text start stop
  start_le : start ≤ stop
  stop_le : stop ≤ text.length
  first : ∀ i j, r.Matches text i j → start ≤ i

end Re

/-- What is documented of a library. A text that it accepts stands for an expression, as `read?` has
it, and a search finds the leftmost match. Behind the condition for the start of the text, a text
that stands for an expression by itself can be put into a group. -/
structure RegexLibrary.Documented [RegexLibrary] (read? : String → Option Re) : Prop where
  leftmost : ∀ {x search}, compile? x = some search → ∃ r, read? x = some r ∧
    ∀ text start stop, search text = some (start, stop) → r.Leftmost text start stop
  anchor : ∀ {x a r}, read? x = some a → read? (Pattern.anchor x) = some r →
    ∀ text i j, r.Matches text i j ↔ (Re.seq [.look .textStart, a]).Matches text i j

end Peg
