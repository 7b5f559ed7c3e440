import Peg.Proofs.Engine.TextAhead
import Peg.Regex.Engine

/-!
# Positions

Wherever a run comes, its cursor stands between two characters of the text, and it does not go behind
the place where it started. `watch` is an evaluation that writes down all such moments.
-/

namespace Peg

universe u

/-! ## Places in a text -/

/-- The cursor stands on a boundary of characters, and before the part of `text` that is behind it. -/
structure Cursor.Marks (text : String) (c : Cursor) : Prop where
  boundary : String.Pos.Raw.IsValid text ⟨c.offset⟩
  bound : c.offset ≤ text.utf8ByteSize
  rest : String.Pos.Raw.extract text ⟨c.offset⟩ text.rawEndPos = String.ofList c.rest

theorem extract_split (u v w : List Char) :
    String.Pos.Raw.extract (String.ofList (u ++ v ++ w)) ⟨byteLength u⟩ ⟨byteLength u + byteLength v⟩ =
      String.ofList v := by
  simp only [byteLength_eq_utf8Len]
  exact String.extract_of_valid u v w

theorem rawEndPos_ofList_split (u v : List Char) :
    (String.ofList (u ++ v)).rawEndPos = ⟨byteLength u + byteLength v⟩ := by
  rw [String.rawEndPos_ofList, ← byteLength_eq_utf8Len, byteLength_append]

theorem Cursor.marks_between (u v : List Char) : (between u v).Marks (String.ofList (u ++ v)) := by
  have hvalid : String.Pos.Raw.IsValid (String.ofList (u ++ v)) ⟨byteLength u⟩ := by
    refine String.Pos.Raw.isValid_iff_exists_append.mpr ⟨.ofList u, .ofList v, ?_, ?_⟩
    · rw [String.ofList_append]
    · rw [String.rawEndPos_ofList, byteLength_eq_utf8Len]
  refine ⟨hvalid, hvalid.le_utf8ByteSize, ?_⟩
  have h := extract_split u v []
  rwa [List.append_nil, ← rawEndPos_ofList_split] at h

theorem Cursor.marks_atStart (text : String) : (atStart text).Marks text := by
  have h := marks_between [] text.toList
  rwa [List.nil_append, String.ofList_toList] at h

theorem Cursor.Marks.exists_split {text : String} {c : Cursor} (h : c.Marks text) :
    ∃ u, text = String.ofList (u ++ c.rest) ∧ c.offset = byteLength u := by
  obtain ⟨x, y, rfl, hoff⟩ := String.Pos.Raw.isValid_iff_exists_append.mp h.boundary
  have hc : c.offset = byteLength x.toList := by
    rw [byteLength_toList]
    exact congrArg String.Pos.Raw.byteIdx hoff
  refine ⟨x.toList, ?_, hc⟩
  have hrest := h.rest
  have hsplit := extract_split x.toList y.toList []
  rw [List.append_nil, ← rawEndPos_ofList_split, String.ofList_append, String.ofList_toList,
    String.ofList_toList, ← hc, hrest] at hsplit
  rw [String.ofList_append, String.ofList_toList, hsplit]

/-- Ahead of a place in a text there are only places in it, and the slices between them. -/
theorem Cursor.Marks.reaches {text : String} {c d : Cursor} (h : c.Marks text) (hd : c.Reaches d) :
    d.Marks text ∧ c.offset ≤ d.offset ∧
      c.textTo d = String.Pos.Raw.extract text ⟨c.offset⟩ ⟨d.offset⟩ := by
  obtain ⟨u, rfl, hc⟩ := h.exists_split
  obtain ⟨v, hv, ho⟩ := hd.exists_between
  obtain ⟨_, rest⟩ := c
  obtain ⟨_, rest'⟩ := d
  dsimp only at hc hv ho
  subst hc hv ho
  rw [← List.append_assoc]
  refine ⟨?_, Nat.le_add_right _ _, ?_⟩
  · rw [← byteLength_append]
    exact marks_between (u ++ v) rest'
  · rw [extract_split, ← byteLength_append]
    exact textTo_between u v rest'

/-! ## Failures without a trace -/

section
variable {σ : Type u} {ev : Handle → Cursor → σ → Outcome × σ}

theorem firstOf_failed {hs : List Handle} {c d : Cursor} {s : σ}
    (h : (firstOf ev hs c s).1 = .failed d) : d = c := by
  induction hs generalizing s with
  | nil => exact (Outcome.failed.inj h).symm
  | cons k hs ih =>
    unfold firstOf at h
    cases e : ev k c s with
    | mk o t =>
    rw [e] at h
    cases o with
    | failed b => exact ih h
    | _ => cases h

theorem many_enough {k : Handle} {ahead : List Char} {c d : Cursor} {s : σ} :
    (many ev k ahead true c s).1 ≠ .failed d := by
  intro h
  induction ahead generalizing c s with
  | nil =>
    unfold many at h
    cases e : ev k c s with
    | mk o t =>
    rw [e] at h
    cases o with
    | matched b =>
      dsimp only at h
      split at h
      · cases h
      · cases h
    | _ => cases h
  | cons ch ahead ih =>
    unfold many at h
    cases e : ev k c s with
    | mk o t =>
    rw [e] at h
    cases o with
    | matched b =>
      dsimp only at h
      split at h
      · cases h
      · exact ih h
    | _ => cases h

theorem many_failed {k : Handle} {ahead : List Char} {enough : Bool} {c d : Cursor} {s : σ}
    (h : (many ev k ahead enough c s).1 = .failed d) : d = c := by
  unfold many at h
  cases e : ev k c s with
  | mk o t =>
  rw [e] at h
  cases o with
  | matched b =>
    dsimp only at h
    split at h
    · cases h
    · cases ahead with
      | nil => cases h
      | cons ch ahead => exact absurd h many_enough
  | failed b =>
    cases enough with
    | true => cases h
    | false => exact (Outcome.failed.inj h).symm
  | _ => cases h

theorem Outcome.lookAhead_failed {c d : Cursor} {o : Outcome} (h : o.lookAhead c = .failed d) :
    d = c := by
  cases o with
  | failed e => exact (Outcome.failed.inj h).symm
  | _ => cases h

theorem Outcome.negate_failed {c d : Cursor} {o : Outcome} (h : o.negate c = .failed d) : d = c := by
  cases o with
  | matched e => exact (Outcome.failed.inj h).symm
  | _ => cases h

/-- Choices, repetitions and predicates go back to where they began when they fail. -/
def Node.returns : Node → Bool
  | choice _ | zeroOrMore _ | oneOrMore _ | ahead _ | notAhead _ => true
  | _ => false

theorem evalNode_failed (g : Grammar σ) {ev : Bool → Handle → Cursor → σ → Outcome × σ}
    {quiet : Bool} {h : Handle} {node : Node} (hnode : node.returns) {c d : Cursor} {s : σ}
    (hd : (evalNode g ev quiet h node c s).1 = .failed d) : d = c := by
  cases node with
  | choice items => exact firstOf_failed hd
  | zeroOrMore item => exact many_failed hd
  | oneOrMore item => exact many_failed hd
  | ahead item => exact Outcome.lookAhead_failed hd
  | notAhead item => exact Outcome.negate_failed hd
  | _ => cases hnode

end

/-! ## Watching -/

/-- What is seen of a run: an evaluation begins, another one ends, or an action is called on the text
between two cursors. -/
inductive Moment
  | enter (h : Handle) (c : Cursor)
  | leave (h : Handle) (c : Cursor) (o : Outcome)
  | call (e : Event) (c d : Cursor)
  deriving DecidableEq

section
variable {σ : Type u}

def Grammar.mute {τ : Type u} (g : Grammar σ) : Grammar τ :=
  ⟨g.arena, g.rules, .none⟩

/-- Calls the action for the event of a match that began at `c`, and writes this down. -/
def Actions.call (acts : Actions σ) (event : String → Event) (quiet : Bool) (c : Cursor) :
    Outcome × (σ × List Moment) → Outcome × (σ × List Moment)
  | (.matched d, s, seen) =>
    match acts.for? (event (c.textTo d)), quiet with
    | some act, false =>
      (.matched d, act (c.textTo d) s, seen ++ [.call (event (c.textTo d)) c d])
    | _, _ => (.matched d, s, seen)
  | r => r

def Actions.callRule (acts : Actions σ) (node : Node) (quiet : Bool) (c : Cursor)
    (r : Outcome × (σ × List Moment)) : Outcome × (σ × List Moment) :=
  match node with
  | .rule name => acts.call (.rule name) quiet c r
  | _ => r

/-- Evaluates as `eval` does, and writes down what is seen. -/
def watch (g : Grammar σ) : (n : Nat) → (quiet : Bool) → Handle → Cursor → σ × List Moment →
    Outcome × (σ × List Moment)
  | 0, _, _, _, x => (.exhausted, x)
  | n + 1, quiet, h, c, (s, seen) =>
    let x := (s, seen ++ [.enter h c])
    let r : Outcome × (σ × List Moment) := match g.arena.node? h with
      | none => (.fault (.unresolvedForward h), x)
      | some node =>
        g.actions.call (.expr h) quiet c (g.actions.callRule node quiet c
          (evalNode g.mute (watch g n) quiet h node c x))
    (r.1, r.2.1, r.2.2 ++ [.leave h c r.1])

end

def Moment.Follows (a : Arena) (start : Cursor) : Moment → Prop
  | enter _ c => start.Reaches c
  | leave h c o => start.Reaches c ∧ o.LiesFrom c ∧
      ∀ node d, a.node? h = some node → node.returns → o = .failed d → d = c
  | call e c d => start.Reaches c ∧ c.Reaches d ∧ e.text = c.textTo d

section
variable {σ : Type u} (a : Arena) (start : Cursor) (before : List Moment)

/-- The state is the same, and what was seen after `before` follows the start. -/
def Seen (x : σ × List Moment) (s : σ) : Prop :=
  x.1 = s ∧ ∃ seen, x.2 = before ++ seen ∧ ∀ m ∈ seen, m.Follows a start

variable {a start before}

theorem Seen.snoc {s s' : σ} {seen : List Moment} (h : Seen a start before (s, seen) s') {m : Moment}
    (hm : m.Follows a start) : Seen a start before (s, seen ++ [m]) s' := by
  obtain ⟨hs, seen', rfl, hseen⟩ := h
  refine ⟨hs, seen' ++ [m], by rw [List.append_assoc], ?_⟩
  simpa [or_imp, forall_and] using ⟨hseen, hm⟩

abbrev Watched (a : Arena) (start : Cursor) (before : List Moment)
    (r : Outcome × (σ × List Moment)) (r' : Outcome × σ) : Prop :=
  InStep (fun _ => False) (Seen a start before) r r'

theorem Actions.call_watched (acts : Actions σ) (event : String → Event)
    (hev : ∀ text, (event text).text = text) {act : Option (Action σ)}
    (hact : ∀ text, acts.for? (event text) = act) (quiet : Bool) {c : Cursor}
    {r : Outcome × (σ × List Moment)} {r' : Outcome × σ} (hc : start.Reaches c)
    (hr : r.1.LiesFrom c) (h : Watched a start before r r') :
    Watched a start before (acts.call event quiet c r) (fire act quiet c r') := by
  obtain ⟨o, s, seen⟩ := r
  obtain ⟨o', s'⟩ := r'
  obtain ⟨rfl, hs⟩ : o = o' ∧ Seen a start before (s, seen) s' := h.resolve_left id
  cases o with
  | matched d =>
    simp only [call, fire, hact]
    cases act with
    | none => exact .inr ⟨rfl, hs⟩
    | some f =>
      cases quiet with
      | true => exact .inr ⟨rfl, hs⟩
      | false =>
        refine .inr ⟨rfl, ?_⟩
        have hcall : Seen a start before (s, seen ++ [.call (event (c.textTo d)) c d]) s' :=
          hs.snoc ⟨hc, hr, hev _⟩
        exact ⟨congrArg _ hcall.1, hcall.2⟩
  | _ => exact .inr ⟨rfl, hs⟩

section
variable {ev : Bool → Handle → Cursor → σ × List Moment → Outcome × (σ × List Moment)}
variable {ev' : Bool → Handle → Cursor → σ → Outcome × σ}

theorem evalNode_watched (g : Grammar σ) (quiet : Bool)
    (H : ∀ q, GoInStep (fun _ => False) (Seen a start before) start.Reaches (ev q) (ev' q))
    (h : Handle) (node : Node) {c : Cursor} {x : σ × List Moment} {s : σ} (hc : start.Reaches c)
    (hx : Seen a start before x s) :
    Watched a start before
      (g.actions.callRule node quiet c (evalNode g.mute ev quiet h node c x))
      (evalNode g ev' quiet h node c s) := by
  have hmute : Watched a start before (evalNode g.mute ev quiet h node c x)
      (evalNode g.mute ev' quiet h node c s) := by
    refine evalNode_inStep (fun _ ho => False.elim ho) (fun _ _ => Cursor.Reaches.trans) ?_ ?_
      (H quiet) (H true) h node c x s hc hx
    · exact fun name => .inl rfl
    · intro name c r r' _ _ hr
      rw [show fire (g.mute.actions.rule name) quiet c r = r from fire_none c r,
        show fire (g.mute.actions.rule name) quiet c r' = r' from fire_none c r']
      exact hr
  cases node with
  | rule name =>
    simp only [evalNode, Grammar.mute, Grammar.rule?, Actions.callRule, Actions.none, fire_none]
      at hmute ⊢
    cases hr : g.rules[name]? with
    | none => exact .inr ⟨rfl, hx⟩
    | some target =>
      rw [hr] at hmute
      have hlies := (H quiet).onward target c x
      exact g.actions.call_watched (.rule name) (fun _ => rfl) (fun _ => rfl) quiet hc hlies hmute
  | _ => exact hmute

end

theorem eval_watched (g : Grammar σ) (n : Nat) (start : Cursor) (before : List Moment) (quiet : Bool)
    (h : Handle) (c : Cursor) (x : σ × List Moment) (s : σ) (hc : start.Reaches c)
    (hx : Seen g.arena start before x s) :
    Watched g.arena start before (watch g n quiet h c x) (eval g n quiet h c s) := by
  induction n generalizing start before quiet h c x s with
  | zero => exact .inr ⟨rfl, hx⟩
  | succ n ih =>
    have hev (q : Bool) : GoInStep (fun _ => False) (Seen g.arena start before) start.Reaches
        (watch g n q) (eval g n q) := by
      refine ⟨fun h c x => ?_, fun h c x s => ih start before q h c x s⟩
      have hsame := ih c x.2 q h c x x.1 (.refl c) ⟨rfl, [], by simp, by simp⟩
      rw [(hsame.resolve_left id).1]
      exact eval_liesFrom g n q h c x.1
    obtain ⟨s₀, seen⟩ := x
    have henter : Seen g.arena start before (s₀, seen ++ [.enter h c]) s := hx.snoc hc
    rw [watch, eval]
    cases hn : g.arena.node? h with
    | none =>
      refine .inr ⟨rfl, henter.snoc ⟨hc, trivial, fun node d hnode => ?_⟩⟩
      rw [hn] at hnode
      cases hnode
    | some node =>
      have hnode := evalNode_watched g quiet hev h node hc henter
      have hlies := evalNode_liesFrom g (eval_liesFrom g n) quiet h node c s
      have hcall := g.actions.call_watched (.expr h) (fun _ => rfl) (fun _ => rfl) quiet hc
        ((hnode.resolve_left id).1 ▸ hlies) hnode
      obtain ⟨ho, hs⟩ := hcall.resolve_left id
      refine .inr ⟨ho, hs.snoc ⟨hc, ?_, ?_⟩⟩
      · rw [ho, fire_outcome]
        exact hlies
      · intro node' d hn' hreturns hd
        obtain rfl : node = node' := Option.some.inj (hn.symm.trans hn')
        rw [ho, fire_outcome] at hd
        exact evalNode_failed g hreturns hd

end

/-! ## Every moment of a run -/

def Moment.Sound (a : Arena) (text : String) (start : Cursor) : Moment → Prop
  | enter _ c => c.Marks text ∧ start.offset ≤ c.offset
  | leave h c o => c.Marks text ∧ start.offset ≤ c.offset ∧
      (∀ d, o = .matched d ∨ o = .failed d → d.Marks text ∧ c.offset ≤ d.offset) ∧
      ∀ node d, a.node? h = some node → node.returns → o = .failed d → d = c
  | call e c d => c.Marks text ∧ d.Marks text ∧ start.offset ≤ c.offset ∧ c.offset ≤ d.offset ∧
      e.text = String.Pos.Raw.extract text ⟨c.offset⟩ ⟨d.offset⟩

theorem Moment.Follows.sound {a : Arena} {text : String} {start : Cursor} {m : Moment}
    (h : m.Follows a start) (hstart : start.Marks text) : m.Sound a text start := by
  cases m with
  | enter k c =>
    obtain ⟨hc, hle, -⟩ := hstart.reaches h
    exact ⟨hc, hle⟩
  | leave k c o =>
    obtain ⟨hreach, hlies, hreturns⟩ := h
    obtain ⟨hc, hle, -⟩ := hstart.reaches hreach
    refine ⟨hc, hle, ?_, hreturns⟩
    rintro d (rfl | rfl)
    · exact ⟨(hc.reaches hlies).1, (hc.reaches hlies).2.1⟩
    · exact ⟨(hc.reaches hlies).1, (hc.reaches hlies).2.1⟩
  | call e c d =>
    obtain ⟨hreach, hcd, htext⟩ := h
    obtain ⟨hc, hle, -⟩ := hstart.reaches hreach
    obtain ⟨hd, hle', hslice⟩ := hc.reaches hcd
    exact ⟨hc, hd, hle, hle', htext.trans hslice⟩

section
variable {σ : Type u} (g : Grammar σ)

theorem watch_eq (n : Nat) (quiet : Bool) (h : Handle) (c : Cursor) (s : σ) (seen : List Moment) :
    (watch g n quiet h c (s, seen)).1 = (eval g n quiet h c s).1 ∧
      (watch g n quiet h c (s, seen)).2.1 = (eval g n quiet h c s).2 := by
  have hseen : Seen g.arena c seen (s, seen) s := ⟨rfl, [], by simp, by simp⟩
  obtain ⟨ho, hs, -⟩ := (eval_watched g n c seen quiet h c _ s (.refl c) hseen).resolve_left id
  exact ⟨ho, hs⟩

theorem watch_follows (n : Nat) (quiet : Bool) (h : Handle) (c : Cursor) (s : σ) :
    ∀ m ∈ (watch g n quiet h c (s, [])).2.2, m.Follows g.arena c := by
  have hseen : Seen g.arena c [] (s, []) s := ⟨rfl, [], by simp, by simp⟩
  obtain ⟨-, -, seen, hlist, hall⟩ :=
    (eval_watched g n c [] quiet h c _ s (.refl c) hseen).resolve_left id
  rw [hlist]
  exact hall

/-- At every moment of a run, however deep, the cursor stands between two characters of the text, and
not before where the run or the evaluation at hand started. Choices, repetitions and predicates that
fail go back to where they started; actions are called on slices between characters, and so is what a
parse took. -/
theorem run_keeps_to_places (text : String) :
    (∀ (n : Nat) (quiet : Bool) (h : Handle) (c : Cursor) (s : σ) (seen : List Moment),
      (watch g n quiet h c (s, seen)).1 = (eval g n quiet h c s).1 ∧
        (watch g n quiet h c (s, seen)).2.1 = (eval g n quiet h c s).2) ∧
      (Cursor.atStart text).Marks text ∧
      (∀ (n : Nat) (quiet : Bool) (h : Handle) (c : Cursor) (s : σ), c.Marks text →
        ∀ m ∈ (watch g n quiet h c (s, [])).2.2, m.Sound g.arena text c) ∧
      ∀ (h : Handle) (s : σ) (k : Nat), (g.parse h text s).1.consumed? = some k →
        String.Pos.Raw.IsValid text ⟨k⟩ ∧ k ≤ text.utf8ByteSize := by
  have hstart := Cursor.marks_atStart text
  refine ⟨watch_eq g, hstart, ?_, ?_⟩
  · intro n quiet h c s hc m hm
    exact (watch_follows g n quiet h c s m hm).sound hc
  · intro h s k hk
    have hlies := eval_liesFrom g (g.depth text) false h (.atStart text) s
    rw [show eval g (g.depth text) false h (.atStart text) s = g.parse h text s from rfl] at hlies
    cases ho : (g.parse h text s).1 with
    | matched d =>
      rw [ho] at hk hlies
      obtain rfl : d.offset = k := Option.some.inj hk
      have hd := (hstart.reaches hlies).1
      exact ⟨hd.boundary, hd.bound⟩
    | _ =>
      rw [ho] at hk
      cases hk

end

/-- Accents up to a letter, or else accents alone. -/
def accents : Grammar (List Event) where
  arena := Operation.runAll [.oneOf "é", .plus 0, .literal "a", .seq [1, 2], .choice [3, 1]] ∅
  rules := ∅
  actions := Actions.recorder

theorem run_keeps_to_places_accents :
    (Cursor.atStart "ééb").Marks "ééb" ∧
      (∀ m ∈ (watch accents 9 false 4 (.atStart "ééb") ([], [])).2.2,
        m.Sound accents.arena "ééb" (.atStart "ééb")) ∧
      .leave 3 ⟨0, "ééb".toList⟩ (.failed ⟨4, ['b']⟩) ∈
        (watch accents 9 false 4 (.atStart "ééb") ([], [])).2.2 ∧
      (accents.parse 4 "ééb" []).1.consumed? = some 4 ∧ String.Pos.Raw.IsValid "ééb" ⟨4⟩ := by
  obtain ⟨-, hstart, hmoments, hparse⟩ := run_keeps_to_places accents "ééb"
  have hk : (accents.parse 4 "ééb" []).1.consumed? = some 4 := by decide +kernel
  exact ⟨hstart, hmoments 9 false 4 _ [] hstart, by decide +kernel, hk, (hparse 4 [] 4 hk).1⟩

end Peg
