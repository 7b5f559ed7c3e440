import Peg.Proofs.Arena.Slots
import Peg.Proofs.Engine.Yields
import Peg.Proofs.Regex.Engine
import Peg.Arena.Build

/-!
# Patterns at the cursor

A pattern takes the text from the cursor up to the end of the leftmost match. The match begins at
the cursor whenever there is one that does, and so whenever the pattern is a regular expression by
itself. A text that closes the group around it can put branches beside the condition for the start:
they match further on, and the pattern takes what is skipped with them.
-/

namespace Peg

universe u

theorem Cursor.textTo_advance (c : Cursor) (n : Nat) :
    c.textTo (c.advance n) = String.ofList (c.rest.take n) := by
  have h := takeBytes_append (c.rest.take n) (c.rest.drop n)
  rw [List.take_append_drop] at h
  rw [textTo, advance, Nat.add_sub_cancel_left, h]

theorem Cursor.takePattern_eq_matched {c d : Cursor} {p : Pattern}
    (hd : c.takePattern p = .matched d) :
    ∃ start stop, p.search c.rest = some (start, stop) ∧ d = c.advance stop := by
  unfold takePattern at hd
  split at hd
  · rename_i start stop hs
    exact ⟨start, stop, hs, (Outcome.matched.inj hd).symm⟩
  · cases hd

section
variable {σ : Type u} {g : Grammar σ}

theorem eval_pattern {n : Nat} {quiet : Bool} {h : Handle} {c d : Cursor} {s : σ} {p : Pattern}
    (hn : g.arena.node? h = some (.pattern p)) (hd : (eval g n quiet h c s).1 = .matched d) :
    c.takePattern p = .matched d := by
  cases n with
  | zero => cases hd
  | succ n =>
    rw [eval, hn] at hd
    rwa [fire_outcome] at hd

end

/-! ## The leftmost match -/

namespace Re

variable {r a : Re} {text : List Char} {start stop : Nat}

/-- A match begins at the start of the text if any does. -/
theorem Leftmost.start_iff (h : r.Leftmost text start stop) :
    start = 0 ↔ ∃ j, r.Matches text 0 j := by
  constructor
  · rintro rfl
    exact ⟨stop, h.isMatch⟩
  · rintro ⟨j, hj⟩
    exact Nat.le_zero.mp (h.first 0 j hj)

theorem eq_zero_of_textStart {i j : Nat} (h : (seq [.look .textStart, a]).Matches text i j)
    (hi : i ≤ text.length) : i = 0 := by
  obtain ⟨_, ⟨hstart, -⟩, -⟩ := h
  exact eq_zero_of_holds_textStart hstart hi

end Re

section
variable [RegexLibrary] {read? : String → Option Re}

theorem Building.pattern_of_ofString? {text : String} {p : Pattern}
    (hp : Pattern.ofString? text = some p) (a : Arena) :
    pattern text a = (.ok a.size, (a.push (.pattern p)).2) := by
  unfold pattern
  rw [hp]
  rfl

theorem Building.node?_of_pattern {text : String} {a b : Arena} {h : Handle}
    (hbuild : pattern text a = (.ok h, b)) :
    ∃ p, Pattern.ofString? text = some p ∧ b.node? h = some (.pattern p) := by
  cases hp : Pattern.ofString? text with
  | none =>
    unfold pattern at hbuild
    rw [hp] at hbuild
    cases hbuild
  | some p =>
    rw [pattern_of_ofString? hp] at hbuild
    cases hbuild
    exact ⟨p, rfl, (a.node?_push (.pattern p) a.size).trans (if_pos rfl)⟩

/-- A pattern takes the text up to the end of the leftmost match: what is skipped, and the match.
Nothing is skipped if there is a match at the cursor, and only then; so it is if the pattern is a
regular expression by itself. -/
theorem eval_pattern_leftmost (hlib : RegexLibrary.Documented read?) {a b : Arena} {text : String}
    {h : Handle} (hbuild : Building.pattern text a = (.ok h, b)) {σ : Type u} {g : Grammar σ}
    (hg : b.Grows g.arena) {n : Nat} {quiet : Bool} {c d : Cursor} {s : σ}
    (hd : (eval g n quiet h c s).1 = .matched d) :
    ∃ r start stop, read? (Pattern.anchor text) = some r ∧ r.Leftmost c.rest start stop ∧
      d = c.advance stop ∧
      c.textTo d = String.ofList (c.rest.take start ++ (c.rest.take stop).drop start) ∧
      (start = 0 ↔ ∃ j, r.Matches c.rest 0 j) ∧ ((read? text).isSome → start = 0) := by
  obtain ⟨p, hp, hn⟩ := Building.node?_of_pattern hbuild
  obtain ⟨start, stop, hs, rfl⟩ := Cursor.takePattern_eq_matched (eval_pattern (hg h _ hn nofun) hd)
  obtain ⟨search, hsearch, rfl⟩ := Option.map_eq_some_iff.mp hp
  obtain ⟨r, hr, hleft⟩ := hlib.leftmost hsearch
  replace hleft := hleft c.rest start stop hs
  refine ⟨r, start, stop, hr, hleft, rfl, ?_, hleft.start_iff, fun ht => ?_⟩
  · have hskipped : (c.rest.take stop).take start = c.rest.take start := by
      rw [List.take_take, Nat.min_eq_left hleft.start_le]
    rw [c.textTo_advance, ← hskipped, List.take_append_drop]
  · obtain ⟨a, ha⟩ := Option.isSome_iff_exists.mp ht
    exact Re.eq_zero_of_textStart ((hlib.anchor ha hr _ _ _).mp hleft.isMatch)
      (Nat.le_trans hleft.start_le hleft.stop_le)

end

/-- A grammar with nothing but a pattern. -/
def patternOnly (text : String) : Grammar Unit :=
  (Grammar.empty.build (Building.pattern text)).2

/-- Letters behind a bracket. -/
theorem eval_pattern_leftmost_letters :
    ∃ r stop, Regex.read? (Pattern.anchor "[a-z]+|[0-9]").toList = some r ∧
      r.Leftmost ['a', 'b', '1'] 0 stop ∧
      (⟨1, ['a', 'b', '1']⟩ : Cursor).advance stop = ⟨3, ['1']⟩ ∧
      (⟨1, ['a', 'b', '1']⟩ : Cursor).textTo ⟨3, ['1']⟩ =
        String.ofList (['a', 'b', '1'].take stop) := by
  have hbuild : Building.pattern "[a-z]+|[0-9]" ∅ =
      (.ok 0, (patternOnly "[a-z]+|[0-9]").arena) := by
    obtain ⟨p, hp⟩ : ∃ p, Pattern.ofString? "[a-z]+|[0-9]" = some p :=
      Option.isSome_iff_exists.mp (by decide +kernel)
    have hpush := Building.pattern_of_ofString? hp ∅
    exact Prod.ext (by rw [hpush]; rfl) rfl
  have hd : (eval (patternOnly "[a-z]+|[0-9]") 1 false 0 ⟨1, ['a', 'b', '1']⟩ ()).1 =
      .matched ⟨3, ['1']⟩ := by
    decide +kernel
  obtain ⟨r, start, stop, hr, hleft, hadvance, htext, -, halone⟩ :=
    eval_pattern_leftmost (Regex.engine_documented Re.fits) hbuild (.refl _) hd
  obtain rfl := halone (by decide +kernel)
  exact ⟨r, stop, hr, hleft, hadvance.symm, htext⟩

/-- A branch beside the condition for the start matches behind the cursor, where there is no match,
and what is before the match is taken with it. -/
theorem eval_pattern_skips :
    ∃ r, Regex.read? (Pattern.anchor "a)|(?:b").toList = some r ∧
      r.Leftmost ['x', 'x', 'b'] 2 3 ∧ (¬∃ j, r.Matches ['x', 'x', 'b'] 0 j) ∧
      (eval (patternOnly "a)|(?:b") 1 false 0 ⟨0, ['x', 'x', 'b']⟩ ()).1 = .matched ⟨3, []⟩ := by
  obtain ⟨search, hsearch, hfound⟩ : ∃ search,
      RegexLibrary.compile? (Pattern.anchor "a)|(?:b") = some search ∧
        search ['x', 'x', 'b'] = some (2, 3) := by
    refine ⟨(RegexLibrary.compile? (Pattern.anchor "a)|(?:b")).get (by decide +kernel), ?_, ?_⟩
    · exact (Option.some_get _).symm
    · decide +kernel
  obtain ⟨r, hr, hleft⟩ := (Regex.engine_documented Re.fits).leftmost hsearch
  replace hleft := hleft _ 2 3 hfound
  refine ⟨r, hr, hleft, ?_, by decide +kernel⟩
  rw [← hleft.start_iff]
  decide

end Peg
