import Peg.Parse

/-!
# Progress of an evaluation

An evaluation ends at or behind the cursor where it began, and it depends on the text ahead alone:
moving its start moves its end.
-/

namespace Peg

universe u

namespace Cursor

@[simp] theorem advance_zero (c : Cursor) : c.advance 0 = c := by
  simp [advance, byteLength]

theorem advance_advance (c : Cursor) (m n : Nat) : (c.advance m).advance n = c.advance (m + n) := by
  simp [advance, List.take_add, Nat.add_assoc]

def Reaches (c d : Cursor) : Prop :=
  ∃ n, d = c.advance n

theorem Reaches.refl (c : Cursor) : c.Reaches c :=
  ⟨0, (advance_zero c).symm⟩

theorem reaches_advance (c : Cursor) (n : Nat) : c.Reaches (c.advance n) :=
  ⟨n, rfl⟩

theorem Reaches.trans {c d e : Cursor} (h : c.Reaches d) (h' : d.Reaches e) : c.Reaches e := by
  obtain ⟨m, rfl⟩ := h
  obtain ⟨n, rfl⟩ := h'
  exact ⟨m + n, advance_advance c m n⟩

/-- What lies between the two cursors. -/
theorem Reaches.exists_between {c d : Cursor} (h : c.Reaches d) :
    ∃ u, c.rest = u ++ d.rest ∧ d.offset = c.offset + byteLength u := by
  obtain ⟨n, rfl⟩ := h
  exact ⟨c.rest.take n, by simp [advance], rfl⟩

theorem byteLength_eq_zero {u : List Char} (h : byteLength u = 0) : u = [] := by
  cases u with
  | nil => rfl
  | cons c u =>
    have := c.utf8Size_pos
    simp only [byteLength] at h
    omega

/-- A pass that takes something leaves less of the text ahead. -/
theorem Reaches.length_lt {c d : Cursor} (h : c.Reaches d) (hne : d.offset ≠ c.offset) :
    d.rest.length < c.rest.length := by
  obtain ⟨u, hu, ho⟩ := h.exists_between
  have : u ≠ [] := by
    rintro rfl
    exact hne (by simpa [byteLength] using ho)
  have := List.length_pos_iff.mpr this
  rw [hu, List.length_append]
  omega

theorem Reaches.offset_eq_iff {c d : Cursor} (h : c.Reaches d) :
    d.offset = c.offset ↔ d.rest = c.rest := by
  obtain ⟨u, hu, ho⟩ := h.exists_between
  constructor
  · intro he
    have : u = [] := byteLength_eq_zero (by omega)
    rw [hu, this, List.nil_append]
  · intro he
    have : u = [] := List.self_eq_append_left.mp (he ▸ hu)
    rw [ho, this]
    rfl

def shift (c : Cursor) (k : Nat) : Cursor :=
  ⟨c.offset + k, c.rest⟩

theorem shift_offset_inj (c d : Cursor) (k : Nat) :
    (d.shift k).offset = (c.shift k).offset ↔ d.offset = c.offset :=
  Nat.add_right_cancel_iff

theorem advance_shift (c : Cursor) (k n : Nat) : (c.shift k).advance n = (c.advance n).shift k := by
  simp only [advance, shift, Cursor.mk.injEq, and_true]
  omega

theorem textTo_shift (c d : Cursor) (k : Nat) : (c.shift k).textTo (d.shift k) = c.textTo d := by
  simp [textTo, shift, Nat.add_sub_add_right]

end Cursor

/-! ## Behind the start -/

def Outcome.LiesFrom (c : Cursor) : Outcome → Prop
  | matched d | failed d => c.Reaches d
  | fault _ | exhausted => True

theorem Outcome.LiesFrom.of_reaches {c d : Cursor} {o : Outcome} (ho : o.LiesFrom d)
    (h : c.Reaches d) : o.LiesFrom c := by
  cases o with
  | matched e => exact h.trans ho
  | failed e => exact h.trans ho
  | fault e => trivial
  | exhausted => trivial

theorem Cursor.takeIf_liesFrom (c : Cursor) (p : Char → Bool) : (c.takeIf p).LiesFrom c := by
  unfold Cursor.takeIf
  split
  · exact .refl c
  · split
    · exact c.reaches_advance 1
    · exact .refl c

theorem Cursor.takeText_liesFrom (c : Cursor) (text : List Char) : (c.takeText text).LiesFrom c := by
  unfold Cursor.takeText
  split
  · exact c.reaches_advance _
  · exact .refl c

theorem Cursor.takePattern_liesFrom (c : Cursor) (p : Pattern) : (c.takePattern p).LiesFrom c := by
  unfold Cursor.takePattern
  split
  · exact c.reaches_advance _
  · exact .refl c

section
variable {σ : Type u}

theorem fire_outcome (act : Option (Action σ)) (quiet : Bool) (c : Cursor) (r : Outcome × σ) :
    (fire act quiet c r).1 = r.1 := by
  obtain ⟨o, s⟩ := r
  cases o with
  | matched d => cases act <;> cases quiet <;> rfl
  | _ => rfl

section
variable {ev : Handle → Cursor → σ → Outcome × σ} (hev : ∀ h c s, (ev h c s).1.LiesFrom c)
include hev

theorem allOf_liesFrom (hs : List Handle) (c : Cursor) (s : σ) :
    (allOf ev hs c s).1.LiesFrom c := by
  induction hs generalizing c s with
  | nil => exact .refl c
  | cons h hs ih =>
    have hh := hev h c s
    unfold allOf
    split
    · rename_i d s' e
      rw [e] at hh
      exact (ih d s').of_reaches hh
    · exact hh

theorem firstOf_liesFrom (hs : List Handle) (c : Cursor) (s : σ) :
    (firstOf ev hs c s).1.LiesFrom c := by
  induction hs generalizing s with
  | nil => exact .refl c
  | cons h hs ih =>
    unfold firstOf
    split
    · exact ih _
    · exact hev h c s

theorem many_liesFrom (h : Handle) (ahead : List Char) (enough : Bool) (c : Cursor) (s : σ) :
    (many ev h ahead enough c s).1.LiesFrom c := by
  induction ahead generalizing enough c s with
  | nil =>
    have hh := hev h c s
    unfold many
    split
    · dsimp only; split <;> exact .refl c
    · rename_i d s' e
      rw [e] at hh
      split
      · exact hh
      · trivial
    · exact hh
  | cons ch ahead ih =>
    have hh := hev h c s
    unfold many
    split
    · dsimp only; split <;> exact .refl c
    · rename_i d s' e
      rw [e] at hh
      split
      · exact hh
      · exact (ih true d s').of_reaches hh
    · exact hh

end

theorem Outcome.lookAhead_liesFrom (c : Cursor) (o : Outcome) : (o.lookAhead c).LiesFrom c := by
  cases o <;> first | exact .refl c | trivial

theorem Outcome.negate_liesFrom (c : Cursor) (o : Outcome) : (o.negate c).LiesFrom c := by
  cases o <;> first | exact .refl c | trivial

theorem evalNode_liesFrom (g : Grammar σ) {ev : Bool → Handle → Cursor → σ → Outcome × σ}
    (hev : ∀ q h c s, (ev q h c s).1.LiesFrom c) (quiet : Bool) (h : Handle) (node : Node)
    (c : Cursor) (s : σ) : (evalNode g ev quiet h node c s).1.LiesFrom c := by
  cases node with
  | any | oneOf | noneOf | charRange | charClass => exact c.takeIf_liesFrom _
  | literal text => exact c.takeText_liesFrom _
  | pattern p => exact c.takePattern_liesFrom _
  | sequence items => exact allOf_liesFrom (hev quiet) items c s
  | choice items => exact firstOf_liesFrom (hev quiet) items c s
  | zeroOrMore item => exact many_liesFrom (hev quiet) item _ _ c s
  | oneOrMore item => exact many_liesFrom (hev quiet) item _ _ c s
  | ahead item => exact Outcome.lookAhead_liesFrom c _
  | notAhead item => exact Outcome.negate_liesFrom c _
  | rule name =>
    simp only [evalNode]
    split
    · trivial
    · rw [fire_outcome]; exact hev quiet _ c s
  | aliasOf target => exact hev quiet target c s
  | forward => trivial

theorem eval_liesFrom (g : Grammar σ) (n : Nat) (quiet : Bool) (h : Handle) (c : Cursor) (s : σ) :
    (eval g n quiet h c s).1.LiesFrom c := by
  induction n generalizing quiet h c s with
  | zero => trivial
  | succ n ih =>
    unfold eval
    split
    · trivial
    · rw [fire_outcome]; exact evalNode_liesFrom g ih quiet h _ c s

/-! ## Moving the start -/

def Outcome.shift (k : Nat) : Outcome → Outcome
  | matched c => matched (c.shift k)
  | failed c => failed (c.shift k)
  | fault e => fault e
  | exhausted => exhausted

def shiftResult (k : Nat) (r : Outcome × σ) : Outcome × σ :=
  (r.1.shift k, r.2)

theorem fire_shift (act : Option (Action σ)) (quiet : Bool) (c : Cursor) (k : Nat)
    (r : Outcome × σ) :
    fire act quiet (c.shift k) (shiftResult k r) = shiftResult k (fire act quiet c r) := by
  obtain ⟨o, s⟩ := r
  cases o with
  | matched d =>
    cases act <;> cases quiet <;> simp [fire, shiftResult, Outcome.shift, Cursor.textTo_shift]
  | _ => rfl

theorem Cursor.takeIf_shift (c : Cursor) (k : Nat) (p : Char → Bool) :
    (c.shift k).takeIf p = (c.takeIf p).shift k := by
  have hr : (c.shift k).rest = c.rest := rfl
  unfold Cursor.takeIf
  rw [hr]
  cases c.rest with
  | nil => rfl
  | cons ch rest =>
    by_cases hp : p ch
    · simp only [hp, ite_true, Outcome.shift, Cursor.advance_shift]
    · simp only [hp, Outcome.shift]; rfl

theorem Cursor.takeText_shift (c : Cursor) (k : Nat) (text : List Char) :
    (c.shift k).takeText text = (c.takeText text).shift k := by
  have hr : (c.shift k).rest = c.rest := rfl
  unfold Cursor.takeText
  rw [hr, Cursor.advance_shift]
  split <;> rfl

theorem Cursor.takePattern_shift (c : Cursor) (k : Nat) (p : Pattern) :
    (c.shift k).takePattern p = (c.takePattern p).shift k := by
  have hr : (c.shift k).rest = c.rest := rfl
  unfold Cursor.takePattern
  rw [hr]
  split
  · rw [Cursor.advance_shift]; rfl
  · rfl

section
variable {ev : Handle → Cursor → σ → Outcome × σ} {k : Nat}
variable (hev : ∀ h c s, ev h (c.shift k) s = shiftResult k (ev h c s))
include hev

theorem allOf_shift (hs : List Handle) (c : Cursor) (s : σ) :
    allOf ev hs (c.shift k) s = shiftResult k (allOf ev hs c s) := by
  induction hs generalizing c s with
  | nil => rfl
  | cons h hs ih =>
    simp only [allOf, hev]
    obtain ⟨o, s'⟩ := ev h c s
    cases o with
    | matched d => exact ih d s'
    | _ => rfl

theorem firstOf_shift (hs : List Handle) (c : Cursor) (s : σ) :
    firstOf ev hs (c.shift k) s = shiftResult k (firstOf ev hs c s) := by
  induction hs generalizing s with
  | nil => rfl
  | cons h hs ih =>
    simp only [firstOf, hev]
    obtain ⟨o, s'⟩ := ev h c s
    cases o with
    | failed d => exact ih s'
    | _ => rfl

theorem many_shift (h : Handle) (ahead : List Char) (enough : Bool) (c : Cursor) (s : σ) :
    many ev h ahead enough (c.shift k) s = shiftResult k (many ev h ahead enough c s) := by
  induction ahead generalizing enough c s with
  | nil =>
    unfold many
    rw [hev]
    obtain ⟨o, s'⟩ := ev h c s
    cases o with
    | matched d =>
      by_cases hd : d.offset = c.offset
      · simp [shiftResult, Outcome.shift, Cursor.shift_offset_inj, hd]
      · simp [shiftResult, Outcome.shift, Cursor.shift_offset_inj, hd]
    | failed d => cases enough <;> rfl
    | _ => rfl
  | cons ch ahead ih =>
    unfold many
    rw [hev]
    obtain ⟨o, s'⟩ := ev h c s
    cases o with
    | matched d =>
      by_cases hd : d.offset = c.offset
      · simp [shiftResult, Outcome.shift, Cursor.shift_offset_inj, hd]
      · simp only [shiftResult, Outcome.shift, Cursor.shift_offset_inj, hd, ite_false]
        exact ih true d s'
    | failed d => cases enough <;> rfl
    | _ => rfl

end

theorem Outcome.lookAhead_shift (c : Cursor) (k : Nat) (o : Outcome) :
    (o.shift k).lookAhead (c.shift k) = (o.lookAhead c).shift k := by
  cases o <;> rfl

theorem Outcome.negate_shift (c : Cursor) (k : Nat) (o : Outcome) :
    (o.shift k).negate (c.shift k) = (o.negate c).shift k := by
  cases o <;> rfl

theorem evalNode_shift (g : Grammar σ) {ev : Bool → Handle → Cursor → σ → Outcome × σ} {k : Nat}
    (hev : ∀ q h c s, ev q h (c.shift k) s = shiftResult k (ev q h c s)) (quiet : Bool) (h : Handle)
    (node : Node) (c : Cursor) (s : σ) :
    evalNode g ev quiet h node (c.shift k) s = shiftResult k (evalNode g ev quiet h node c s) := by
  cases node with
  | any | oneOf | noneOf | charRange | charClass => simp [evalNode, Cursor.takeIf_shift, shiftResult]
  | literal text => simp [evalNode, Cursor.takeText_shift, shiftResult]
  | pattern p => simp [evalNode, Cursor.takePattern_shift, shiftResult]
  | sequence items => exact allOf_shift (hev quiet) items c s
  | choice items => exact firstOf_shift (hev quiet) items c s
  | zeroOrMore item => exact many_shift (hev quiet) item c.rest true c s
  | oneOrMore item => exact many_shift (hev quiet) item c.rest false c s
  | ahead item => simp [evalNode, hev, shiftResult, Outcome.lookAhead_shift]
  | notAhead item => simp [evalNode, hev, shiftResult, Outcome.negate_shift]
  | rule name =>
    simp only [evalNode]
    cases g.rule? name with
    | none => rfl
    | some target => simp only [hev, fire_shift]
  | aliasOf target => exact hev quiet target c s
  | forward => rfl

/-- An evaluation does not look at what lies before its start. -/
theorem eval_shift (g : Grammar σ) (n : Nat) (quiet : Bool) (h : Handle) (c : Cursor) (k : Nat)
    (s : σ) : eval g n quiet h (c.shift k) s = shiftResult k (eval g n quiet h c s) := by
  induction n generalizing quiet h c s with
  | zero => rfl
  | succ n ih =>
    unfold eval
    cases g.arena.node? h with
    | none => rfl
    | some node => simp only [evalNode_shift g ih, fire_shift]

end

end Peg
