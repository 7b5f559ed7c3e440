import Mathlib.Data.String.Basic
import Peg.Proofs.Arena.Operations
import Peg.Proofs.Engine.Adequacy
import Peg.Regex.Engine

/-!
# The text ahead

An evaluation depends on the text behind its cursor alone. Where the same text stands behind other
text, the evaluation takes the same course: it ends alike and takes as many bytes, and it calls the
same actions on the same texts.

To speak of the calls, they are noted down in a second state beside that of the actions.
-/

namespace Peg

universe u v

/-! ## Noting calls -/

section
variable {σ : Type u} {τ : Type v} (note : Event → τ → τ)

/-- The same actions, each of which also has its call noted. -/
def Actions.noting (acts : Actions σ) : Actions (σ × τ) where
  node h := (acts.node h).map fun act text x => (act text x.1, note (.expr h text) x.2)
  rule name := (acts.rule name).map fun act text x => (act text x.1, note (.rule name text) x.2)

def Grammar.noting (g : Grammar σ) : Grammar (σ × τ) :=
  ⟨g.arena, g.rules, g.actions.noting note⟩

def Grammar.logged (g : Grammar σ) : Grammar (σ × List Event) :=
  g.noting fun e calls => calls ++ [e]

abbrev Noted (r : Outcome × (σ × τ)) (r' : Outcome × σ) : Prop :=
  InStep (fun _ => False) (fun x s => x.1 = s) r r'

theorem fire_noted {act : Option (Action σ)} {event : String → Event} {quiet : Bool} {c : Cursor}
    {r : Outcome × (σ × τ)} {r' : Outcome × σ} (h : Noted r r') :
    Noted (fire (act.map fun f text x => (f text x.1, note (event text) x.2)) quiet c r)
      (fire act quiet c r') := by
  obtain ⟨o, x, y⟩ := r
  obtain ⟨o', s⟩ := r'
  obtain ⟨rfl, rfl⟩ : o = o' ∧ x = s := h.resolve_left id
  cases o with
  | matched d => cases act <;> cases quiet <;> exact .inr ⟨rfl, rfl⟩
  | _ => exact .inr ⟨rfl, rfl⟩

variable (g : Grammar σ)

theorem eval_noted (n : Nat) (quiet : Bool) (h : Handle) (c : Cursor) (s : σ) (y : τ) :
    Noted (eval (g.noting note) n quiet h c (s, y)) (eval g n quiet h c s) := by
  induction n generalizing quiet h c s y with
  | zero => exact .inr ⟨rfl, rfl⟩
  | succ n ih =>
    have hev (q : Bool) : GoInStep (fun _ => False) (fun x s => x.1 = s) (fun _ => True)
        (eval (g.noting note) n q) (eval g n q) := by
      refine ⟨eval_liesFrom _ n q, ?_⟩
      rintro h c ⟨s, y⟩ _ _ rfl
      exact ih q h c s y
    rw [eval, eval, show (g.noting note).arena = g.arena from rfl]
    cases g.arena.node? h with
    | none => exact .inr ⟨rfl, rfl⟩
    | some node =>
      apply fire_noted note
      refine evalNode_inStep (fun _ ho => False.elim ho) (fun _ _ _ _ => trivial) ?_ ?_ (hev quiet)
        (hev true) h node c (s, y) s trivial rfl
      · exact fun name => .inl rfl
      · intro name c r r' _ _ hr
        exact fire_noted note hr

theorem eval_noting (n : Nat) (quiet : Bool) (h : Handle) (c : Cursor) (s : σ) (y : τ) :
    (eval (g.noting note) n quiet h c (s, y)).1 = (eval g n quiet h c s).1 ∧
      (eval (g.noting note) n quiet h c (s, y)).2.1 = (eval g n quiet h c s).2 :=
  (eval_noted note g n quiet h c s y).resolve_left id

theorem parse_logged_fst (h : Handle) (text : String) (s : σ) (calls : List Event) :
    (g.logged.parse h text (s, calls)).1 = (g.parse h text s).1 :=
  (eval_noting _ g _ _ _ _ _ _).1

end

/-! ## The same text elsewhere -/

theorem byteLength_eq_utf8Len (u : List Char) : byteLength u = String.utf8Len u := by
  induction u with
  | nil => rfl
  | cons ch u ih => rw [byteLength, String.utf8Len_cons, ih, Nat.add_comm]

theorem byteLength_toList (u : String) : byteLength u.toList = u.utf8ByteSize := by
  rw [byteLength_eq_utf8Len, String.utf8Len_toList]

section
variable {σ : Type u} (g : Grammar σ)

/-- Matches `h` against what stands behind `u` in the text `u ++ v`. -/
def Grammar.parseBehind (h : Handle) (u v : String) (s : σ) : Outcome × σ :=
  eval g (g.depth (u ++ v)) false h (.between u.toList v.toList) s

theorem Cursor.between_eq_shift (u v : String) :
    Cursor.between u.toList v.toList = (Cursor.atStart v).shift (byteLength u.toList) := by
  simp [between, atStart, shift, byteLength]

theorem eval_between (n : Nat) (quiet : Bool) (h : Handle) (u v : String) (s : σ) :
    eval g n quiet h (.between u.toList v.toList) s =
      shiftResult (byteLength u.toList) (eval g n quiet h (.atStart v) s) := by
  rw [Cursor.between_eq_shift, eval_shift]

theorem Grammar.depth_le_depth_append (u v : String) : g.depth v ≤ g.depth (u ++ v) := by
  have hlen : v.length + 1 ≤ (u ++ v).length + 1 := by
    rw [String.length_append]
    omega
  exact Nat.succ_le_succ (Nat.mul_le_mul_left _ hlen)

theorem eval_fst_of_depth_le {text : String} {n : Nat} (hn : g.depth text ≤ n) (h : Handle) (s : σ) :
    (eval g n false h (.atStart text) s).1 = (g.parse h text s).1 := by
  by_cases he : (g.parse h text s).1 = .exhausted
  · by_contra hne
    rw [he] at hne
    rw [Grammar.parse, eval_depth g hne] at he
    exact hne he
  · rw [eval_mono g hn he]
    rfl

theorem parseBehind_fst (h : Handle) (u v : String) (s : σ) :
    (g.parseBehind h u v s).1 = (g.parse h v s).1.shift (byteLength u.toList) := by
  rw [Grammar.parseBehind, eval_between, shiftResult,
    eval_fst_of_depth_le g (g.depth_le_depth_append u v)]

theorem parseBehind_eq {h : Handle} {v : String} {s : σ} (hend : (g.parse h v s).1 ≠ .exhausted)
    (u : String) :
    g.parseBehind h u v s = shiftResult (byteLength u.toList) (g.parse h v s) := by
  rw [Grammar.parseBehind, eval_between, eval_mono g (g.depth_le_depth_append u v) hend]
  rfl

theorem Outcome.consumed?_shift (k : Nat) (o : Outcome) :
    (o.shift k).consumed? = o.consumed?.map (k + ·) := by
  cases o with
  | matched c => exact congrArg some (Nat.add_comm c.offset k)
  | _ => rfl

/-- A text is matched alike whatever stands before it. The outcome is the same but for the bytes
before the text, also where there is none as the evaluation does not end; the list of calls is the
same, and so is the state that they leave. -/
theorem behind_any_text (h : Handle) (u v : String) (s : σ) :
    (g.parseBehind h u v s).1 = (g.parse h v s).1.shift u.utf8ByteSize ∧
      (g.parseBehind h u v s).1.consumed? = (g.parse h v s).1.consumed?.map (u.utf8ByteSize + ·) ∧
      ((g.parse h v s).1 ≠ .exhausted →
        g.logged.parseBehind h u v (s, []) =
          shiftResult u.utf8ByteSize (g.logged.parse h v (s, []))) ∧
      (∀ (n : Nat) (quiet : Bool),
        eval g.logged n quiet h (.between u.toList v.toList) (s, []) =
          shiftResult u.utf8ByteSize (eval g.logged n quiet h (.atStart v) (s, []))) ∧
      ∀ (n : Nat) (quiet : Bool) (c : Cursor) (calls : List Event),
        (eval g.logged n quiet h c (s, calls)).1 = (eval g n quiet h c s).1 ∧
          (eval g.logged n quiet h c (s, calls)).2.1 = (eval g n quiet h c s).2 := by
  rw [← byteLength_toList]
  refine ⟨parseBehind_fst g h u v s, ?_, ?_, fun n quiet => ?_, fun n quiet c calls => ?_⟩
  · rw [parseBehind_fst, Outcome.consumed?_shift]
  · intro hend
    apply parseBehind_eq
    rwa [parse_logged_fst]
  · exact eval_between g.logged n quiet h u v (s, [])
  · exact eval_noting _ g n quiet h c s calls

end

/-- Counts the bytes of the letters, and ten times that at the end of a word. -/
def tally : Grammar Nat where
  arena := Operation.runAll [.oneOf "aé", .plus 0, .rule "word", .literal "!", .seq [2, 3]] ∅
  rules := Std.TreeMap.empty.insert "word" 1
  actions := { node := fun h => if h = 0 then some fun text n => n + text.utf8ByteSize else none
               rule := fun _ => some fun _ n => 10 * n }

theorem behind_any_text_tally :
    (tally.parse 4 "éa!" 0).1 ≠ .exhausted ∧
      tally.logged.parseBehind 4 "ß" "éa!" (0, []) =
        (.matched ⟨6, []⟩, 30, [.expr 0 "é", .expr 0 "a", .rule "word" "éa"]) := by
  have hparse : tally.logged.parse 4 "éa!" (0, []) =
      (.matched ⟨4, []⟩, 30, [.expr 0 "é", .expr 0 "a", .rule "word" "éa"]) := by
    decide +kernel
  have hend : (tally.parse 4 "éa!" 0).1 ≠ .exhausted := by decide +kernel
  refine ⟨hend, ?_⟩
  rw [(behind_any_text tally 4 "ß" "éa!" 0).2.2.1 hend, hparse]
  decide +kernel

end Peg
