import Peg.Proofs.Regex.Enclosed.Classes
import Peg.Regex.Reader
import Mathlib.Data.Option.Basic

/-!
# Regular expressions in a group

A text that is a regular expression by itself is read as it is when a closing parenthesis follows
it, which then closes the group around it. Only a comment at the end of the text can take the
parenthesis away, and leaves the group open.
-/

namespace Peg.Regex

/-! ## States with a group around them -/

/-- The state in which the group `o` is open around everything else. -/
def State.within (o : Outer) (st : State) : State :=
  { st with outer := st.outer ++ [o] }

/-- The same is done within a group, and at most `k` characters are left before the parenthesis. -/
def Keeps (o : Outer) (k : Nat) (x x' : State × List Char) : Prop :=
  x'.1 = x.1.within o ∧ x.2.length ≤ k ∧ Enclosed x.2 x'.2

section
variable {o : Outer} {st : State}

theorem openCapture_within (o : Outer) (st : State) :
    (st.within o).openCapture = st.openCapture.within o :=
  rfl

theorem closeGroup?_within {st' : State} (h : st.closeGroup? = some st') :
    (st.within o).closeGroup? = some (st'.within o) := by
  unfold State.closeGroup? at *
  cases hout : st.outer with
  | nil =>
    rw [hout] at h
    cases h
  | cons q outer =>
    rw [hout] at h
    simp only [State.within, hout, List.cons_append]
    obtain rfl := Option.some.inj h
    rfl

theorem repeatLast?_within (min : Nat) (max : Option Nat) (greedy : Bool) :
    (st.within o).repeatLast? min max greedy =
      (st.repeatLast? min max greedy).map (State.within o) := by
  unfold State.repeatLast?
  simp only [State.within]
  split <;> rfl

end

/-! ## Repetitions -/

section
variable {f : Flags} {o : Outer} {st : State} {k n n' : Nat} {r r' : List Char}

theorem takeDigits_eq (n : Nat) (r : List Char) :
    takeDigits f n r = spanSkip f Char.isDigit n r := by
  fun_induction takeDigits f n r with
  | case1 n c r h cs r' he ih => simp [spanSkip, h, ← ih, he]
  | case2 n c r h => simp [spanSkip, h]
  | case3 n r h => exact (spanSkip_of_stop h).symm

theorem dropSpace_eq (n : Nat) (r : List Char) :
    dropSpace f n r = (spanSkip f isWhiteSpace n r).2 := by
  fun_induction dropSpace f n r with
  | case1 n c r h ih => simp [spanSkip, h, ih]
  | case2 n c r h => simp [spanSkip, h]
  | case3 n r h => rw [spanSkip_of_stop h]

theorem takeGreedy_leaves (h : Enclosed r r') (hk : r.length ≤ k) :
    Leaves k (takeGreedy f r) (takeGreedy f r') := by
  unfold takeGreedy
  rcases h.cases_head (c := '?') (by decide) with ⟨u, u', rfl, rfl, hu⟩ | ⟨hne, hne'⟩
  · exact ⟨rfl, Nat.le_of_succ_le hk, hu⟩
  · split
    · exact absurd rfl (hne _)
    · exact ⟨rfl, hk, h⟩

theorem takeNumber_leaves (h : Enclosed r r') (hk : r.length ≤ k) (hn : r.length ≤ n)
    (hn' : n < n') : Leaves k (takeNumber f n r) (takeNumber f n' r') := by
  have hd := h.dropWhile isWhiteSpace
  have hlen : (r.dropWhile isWhiteSpace).length ≤ min k n :=
    Nat.le_trans (List.dropWhile_sublist _).length_le (Nat.le_min.mpr ⟨hk, hn⟩)
  obtain ⟨hdigits, hle, hs⟩ := spanSkip_leaves (f := f) (q := Char.isDigit) (by decide) hd hlen
    (Nat.le_min.mp hlen).2 hn'
  obtain ⟨-, hle', hs'⟩ := spanSkip_leaves (f := f) (q := isWhiteSpace) (by decide) hs
    (Nat.le_min.mp hle).1 (Nat.le_min.mp hle).2 hn'
  unfold takeNumber
  rw [takeDigits_eq, takeDigits_eq]
  simp only [dropSpace_eq]
  rw [hdigits]
  exact ⟨rfl, hle', hs'⟩

def closeBounds? (b : Nat × Option Nat) : List Char → Option (Nat × Option Nat × List Char)
  | '\x7d' :: r => some (b.1, b.2, r)
  | _ => none

def upperBound? (f : Flags) (n lo : Nat) (r : List Char) : Option (Nat × Option Nat × List Char) :=
  match r with
  | '\x7d' :: r => some (lo, none, r)
  | r => do
    let hi ← (takeNumber f n r).1
    guard (lo ≤ hi ∧ hi ≤ maxCount)
    closeBounds? (lo, some hi) (takeNumber f n r).2

def boundsFrom? (f : Flags) (n lo : Nat) (r : List Char) : Option (Nat × Option Nat × List Char) :=
  match r with
  | '\x7d' :: r => some (lo, some lo, r)
  | ',' :: r => upperBound? f n lo (f.skip r)
  | _ => none

theorem bounds?_eq (n : Nat) (r : List Char) :
    bounds? f n r = (takeNumber f n (f.skip r)).1 >>= fun lo => guard (lo ≤ maxCount) >>= fun _ =>
      boundsFrom? f n lo (takeNumber f n (f.skip r)).2 :=
  rfl

theorem carries_guard {α β : Type} {R : α → β → Prop} {o : Option α} {o' : Option β} {c : Prop}
    [Decidable c] (h : Carries R o o') :
    Carries R (guard c >>= fun _ => o) (guard c >>= fun _ => o') := by
  unfold guard
  by_cases hc : c
  · rw [if_pos hc]
    exact h
  · rw [if_neg hc]
    exact carries_none

theorem closeBounds?_carries (b : Nat × Option Nat) (h : Enclosed r r') (hk : r.length ≤ k) :
    Carries (Leaves₂ k) (closeBounds? b r) (closeBounds? b r') := by
  unfold closeBounds?
  rcases h.cases_head (c := '\x7d') (by decide) with ⟨u, u', rfl, rfl, hu⟩ | ⟨hne, hne'⟩
  · exact carries_some ⟨rfl, rfl, Nat.le_of_succ_le hk, hu⟩
  · split
    · exact absurd rfl (hne _)
    · exact carries_none

theorem upperBound?_carries (lo : Nat) (h : Enclosed r r') (hk : r.length ≤ k) (hn : r.length ≤ n)
    (hn' : n < n') : Carries (Leaves₂ k) (upperBound? f n lo r) (upperBound? f n' lo r') := by
  unfold upperBound?
  rcases h.cases_head (c := '\x7d') (by decide) with ⟨u, u', rfl, rfl, hu⟩ | ⟨hne, hne'⟩
  · exact carries_some ⟨rfl, rfl, Nat.le_of_succ_le hk, hu⟩
  · split
    · exact absurd rfl (hne _)
    · obtain ⟨hnumber, hle, hs⟩ := takeNumber_leaves (f := f) h hk hn hn'
      rw [hnumber]
      cases (takeNumber f n r).1 with
      | none => exact carries_none
      | some hi => exact carries_guard (closeBounds?_carries _ hs hle)

theorem boundsFrom?_carries (lo : Nat) (h : Enclosed r r') (hk : r.length ≤ k) (hn : r.length ≤ n)
    (hn' : n < n') : Carries (Leaves₂ k) (boundsFrom? f n lo r) (boundsFrom? f n' lo r') := by
  unfold boundsFrom?
  rcases h.cases_head (c := '\x7d') (by decide) with ⟨u, u', rfl, rfl, hu⟩ | ⟨hne, hne'⟩
  · exact carries_some ⟨rfl, rfl, Nat.le_of_succ_le hk, hu⟩
  · rcases h.cases_head (c := ',') (by decide) with ⟨u, u', rfl, rfl, hu⟩ | ⟨hne₁, hne₁'⟩
    · exact upperBound?_carries lo (hu.skip f) (length_skip_le f (Nat.le_of_succ_le hk))
        (length_skip_le f (Nat.le_of_succ_le hn)) hn'
    · split
      · exact absurd rfl (hne _)
      · exact absurd rfl (hne₁ _)
      · exact carries_none

theorem bounds?_carries (h : Enclosed r r') (hk : r.length ≤ k) (hn : r.length ≤ n) (hn' : n < n') :
    Carries (Leaves₂ k) (bounds? f n r) (bounds? f n' r') := by
  obtain ⟨hnumber, hle, hs⟩ := takeNumber_leaves (f := f) (h.skip f)
    (length_skip_le f (Nat.le_min.mpr ⟨hk, hn⟩)) (length_skip_le f hn) hn'
  obtain ⟨hk, hn⟩ := Nat.le_min.mp hle
  rw [bounds?_eq, bounds?_eq, hnumber]
  cases (takeNumber f n (f.skip r)).1 with
  | none => exact carries_none
  | some lo => exact carries_guard (boundsFrom?_carries lo hs hk hn hn')

theorem repeated_keeps (min : Nat) (max : Option Nat) (h : Enclosed r r') (hk : r.length ≤ k) :
    Carries (Keeps o k)
      (st.repeatLast? min max (takeGreedy f r).1 >>= fun st => some (st, (takeGreedy f r).2))
      ((st.within o).repeatLast? min max (takeGreedy f r').1 >>= fun st =>
        some (st, (takeGreedy f r').2)) := by
  obtain ⟨hgreedy, hrest⟩ := takeGreedy_leaves (f := f) h hk
  rw [repeatLast?_within, hgreedy]
  cases st.repeatLast? min max (takeGreedy f r).1 with
  | none => exact carries_none
  | some st' => exact carries_some ⟨rfl, hrest⟩

theorem uncounted?_keeps (min : Nat) (max : Option Nat) (h : Enclosed r r') (hk : r.length ≤ k) :
    Carries (Keeps o k) (uncounted? st min max r) (uncounted? (st.within o) min max r') :=
  repeated_keeps min max h hk

theorem counted?_keeps (h : Enclosed r r') (hk : r.length ≤ k) (hn : r.length ≤ n) (hn' : n < n') :
    Carries (Keeps o k) (counted? st n r) (counted? (st.within o) n' r') := by
  refine (bounds?_carries h hk hn hn').bind fun ⟨lo, hi, s⟩ ⟨lo', hi', s'⟩ ⟨hlo, hhi, hle, hs⟩ => ?_
  obtain rfl : lo' = lo := hlo
  obtain rfl : hi' = hi := hhi
  exact repeated_keeps lo' hi' (hs.skip st.flags) (length_skip_le st.flags hle)

end

/-! ## Groups -/

section
variable {f : Flags} {o : Outer} {st : State} {k n n' : Nat} {r r' : List Char}

theorem flags?_carries (on : Bool) (seen : List Char) (h : Enclosed r r') (hk : r.length ≤ k) :
    Carries (Leaves k) (flags? f on seen r) (flags? f on seen r') := by
  induction r generalizing f on seen r' with
  | nil => exact carries_none
  | cons c r ih =>
    obtain ⟨s, rfl, hs⟩ := h.of_cons
    have hk' := Nat.le_of_succ_le hk
    unfold flags?
    refine .ite (.ite carries_none (.ite carries_none (carries_some ⟨rfl, hk, h⟩)))
      (.ite carries_none (.ite (ih _ _ hs hk') ?_))
    cases f.set? on c with
    | none => exact carries_none
    | some f' => exact ih _ _ hs hk'

theorem groupName?_carries (h : Enclosed r r') (hk : r.length ≤ k) :
    Carries (Leaves k) (groupName? r) (groupName? r') := by
  have hd := h.dropWhile (· != '>')
  have hlen : (r.dropWhile (· != '>')).length ≤ k :=
    Nat.le_trans (List.dropWhile_sublist _).length_le hk
  have hname := h.takeWhile_eq (p := (· != '>'))
  unfold groupName?
  generalize r.dropWhile (· != '>') = s at *
  generalize r'.dropWhile (· != '>') = s' at *
  cases s with
  | nil =>
    split
    · rename_i he
      cases he
    · exact carries_none
  | cons d s =>
    obtain ⟨u, rfl, hu⟩ := hd.of_cons
    rw [hname (List.cons_ne_nil d s)]
    cases r.takeWhile (· != '>') with
    | nil => exact carries_none
    | cons c name => exact .ite (carries_some ⟨rfl, Nat.le_of_succ_le hlen, hu⟩) carries_none

theorem named?_keeps (h : Enclosed r r') (hk : r.length ≤ k) :
    Carries (Keeps o k) (named? st r) (named? (st.within o) r') := by
  refine (groupName?_carries h hk).bind fun ⟨name, s⟩ ⟨name', s'⟩ ⟨hname, hs⟩ => ?_
  obtain rfl : name' = name := hname
  exact .ite carries_none (carries_some ⟨rfl, hs⟩)

/-- Takes up flags: a closing parenthesis sets them for what follows, a colon opens a group. -/
def enterFlags? (st : State) (f : Flags) : List Char → Option (State × List Char)
  | ')' :: r => some (st.setFlags f, r)
  | _ :: r => some (st.openGroup f, r)
  | [] => none

def flagged? (st : State) (r : List Char) : Option (State × List Char) :=
  flags? st.flags true [] r >>= fun x => enterFlags? st x.1 x.2

/-- What follows the opening of a group that does not just capture. -/
def special? (st : State) : List Char → Option (State × List Char)
  | '=' :: _ | '!' :: _ => none
  | '<' :: '=' :: _ | '<' :: '!' :: _ => none
  | 'P' :: '<' :: r => named? st r
  | '<' :: r => named? st r
  | r => flagged? st r

theorem enterFlags?_open {c : Char} (hc : c ≠ ')') :
    enterFlags? st f (c :: r) = some (st.openGroup f, r) := by
  unfold enterFlags?
  split <;> simp_all

theorem special?_named (h₁ : ∀ s, r ≠ '=' :: s) (h₂ : ∀ s, r ≠ '!' :: s) :
    special? st ('<' :: r) = named? st r := by
  unfold special?
  split <;> simp_all

theorem special?_flagged (h₁ : ∀ s, r ≠ '=' :: s) (h₂ : ∀ s, r ≠ '!' :: s)
    (h₃ : ∀ s, r ≠ '<' :: s) (h₄ : ∀ s, r ≠ 'P' :: '<' :: s) :
    special? st r = flagged? st r := by
  unfold special?
  split <;> simp_all

theorem group?_special {s : List Char} (hs : st.flags.skip r = '?' :: s) :
    group? st r = special? st s := by
  unfold group? special?
  rw [hs]
  split <;> simp_all
  refine congrArg _ (funext fun ⟨f, u⟩ => ?_)
  cases u with
  | nil => rfl
  | cons c u =>
    by_cases hc : c = ')'
    · subst hc
      rfl
    · simp [enterFlags?_open hc]

theorem group?_capture (hs : ∀ s, st.flags.skip r ≠ '?' :: s) :
    group? st r = some (st.openCapture, st.flags.skip r) := by
  unfold group?
  split <;> simp_all

theorem enterFlags?_keeps (f : Flags) (h : Enclosed r r') (hk : r.length ≤ k) :
    Carries (Keeps o k) (enterFlags? st f r) (enterFlags? (st.within o) f r') := by
  cases r with
  | nil => exact carries_none
  | cons c r =>
    obtain ⟨s, rfl, hs⟩ := h.of_cons
    have hk' := Nat.le_of_succ_le hk
    by_cases hc : c = ')'
    · subst hc
      exact carries_some ⟨rfl, hk', hs⟩
    · rw [enterFlags?_open hc, enterFlags?_open hc]
      exact carries_some ⟨rfl, hk', hs⟩

theorem flagged?_keeps (h : Enclosed r r') (hk : r.length ≤ k) :
    Carries (Keeps o k) (flagged? st r) (flagged? (st.within o) r') := by
  refine (flags?_carries true [] h hk).bind fun ⟨f, s⟩ ⟨f', s'⟩ ⟨hf, hle, hs⟩ => ?_
  obtain rfl : f' = f := hf
  exact enterFlags?_keeps f' hs hle

theorem special?_keeps (h : Enclosed r r') (hk : r.length ≤ k) :
    Carries (Keeps o k) (special? st r) (special? (st.within o) r') := by
  rcases h.cases_head (c := '=') (by decide) with ⟨u, u', rfl, rfl, hu⟩ | ⟨hne₁, hne₁'⟩
  · exact carries_none
  rcases h.cases_head (c := '!') (by decide) with ⟨u, u', rfl, rfl, hu⟩ | ⟨hne₂, hne₂'⟩
  · exact carries_none
  rcases h.cases_head (c := '<') (by decide) with ⟨u, u', rfl, rfl, hu⟩ | ⟨hne₃, hne₃'⟩
  · rcases hu.cases_head (c := '=') (by decide) with ⟨v, v', rfl, rfl, hv⟩ | ⟨hne₁, hne₁'⟩
    · exact carries_none
    rcases hu.cases_head (c := '!') (by decide) with ⟨v, v', rfl, rfl, hv⟩ | ⟨hne₂, hne₂'⟩
    · exact carries_none
    rw [special?_named hne₁ hne₂, special?_named hne₁' hne₂']
    exact named?_keeps hu (Nat.le_of_succ_le hk)
  by_cases hP : ∃ u, r = 'P' :: '<' :: u
  · obtain ⟨u, rfl⟩ := hP
    obtain ⟨s, rfl, hs⟩ := h.of_cons
    obtain ⟨u', rfl, hu⟩ := hs.of_cons
    exact named?_keeps hu (Nat.le_of_succ_le (Nat.le_of_succ_le hk))
  · have hP' : ∀ u', r' ≠ 'P' :: '<' :: u' := by
      rintro u' rfl
      obtain ⟨s, rfl, hs⟩ := h.exists_cons (by decide)
      obtain ⟨u, rfl, -⟩ := hs.exists_cons (by decide)
      exact hP ⟨u, rfl⟩
    rw [special?_flagged hne₁ hne₂ hne₃ fun u hu => hP ⟨u, hu⟩,
      special?_flagged hne₁' hne₂' hne₃' hP']
    exact flagged?_keeps h hk

theorem group?_keeps (h : Enclosed r r') (hk : r.length ≤ k) :
    Carries (Keeps o k) (group? st r) (group? (st.within o) r') := by
  have hs := h.skip st.flags
  have hlen := length_skip_le st.flags hk
  rcases hs.cases_head (c := '?') (by decide) with ⟨u, u', hr, hr', hu⟩ | ⟨hne, hne'⟩
  · replace hr' : (st.within o).flags.skip r' = '?' :: u' := hr'
    rw [group?_special hr, group?_special hr']
    rw [hr] at hlen
    exact special?_keeps hu (Nat.le_of_succ_le hlen)
  · replace hne' : ∀ u, (st.within o).flags.skip r' ≠ '?' :: u := hne'
    rw [group?_capture hne, group?_capture hne']
    exact carries_some ⟨openCapture_within o st, hlen, hs⟩

end

/-! ## The whole text -/

section
variable {o : Outer} {st : State} {k n n' : Nat} {r r' : List Char}

theorem next?_keeps {c : Char} (h : Enclosed r r') (hk : r.length ≤ k) (hn : r.length ≤ n)
    (hn' : n < n') :
    Carries (Keeps o k) (next? st n (c :: r)) (next? (st.within o) n' (c :: r')) := by
  unfold next?
  dsimp only
  split
  · exact group?_keeps h hk
  · cases hc : st.closeGroup? with
    | none => exact carries_none
    | some st' =>
      rw [closeGroup?_within hc]
      exact carries_some ⟨rfl, hk, h⟩
  · exact carries_some ⟨rfl, hk, h⟩
  · refine (class?_carries h hk hn hn').map fun ⟨s, depth, u⟩ ⟨s', depth', u'⟩ hu => ?_
    obtain ⟨hs, hdepth, hu⟩ := hu
    obtain rfl : s' = s := hs
    obtain rfl : depth' = depth := hdepth
    exact ⟨rfl, hu⟩
  · exact uncounted?_keeps 0 (some 1) h hk
  · exact uncounted?_keeps 0 none h hk
  · exact uncounted?_keeps 1 none h hk
  · exact counted?_keeps h hk hn hn'
  · refine (escape?_carries h (Nat.le_succ_of_le hk) (Nat.le_succ_of_le hn) hn').map ?_
    rintro ⟨a, u⟩ ⟨a', u'⟩ ⟨ha, hu⟩
    obtain rfl : a' = a := ha
    exact ⟨rfl, hu⟩
  · change Carries _ ((dot? st.flags).map _) ((dot? st.flags).map _)
    cases dot? st.flags with
    | none => exact carries_none
    | some any => exact carries_some ⟨rfl, hk, h⟩
  · exact carries_some ⟨rfl, hk, h⟩
  · exact carries_some ⟨rfl, hk, h⟩
  · exact carries_some ⟨rfl, hk, h⟩

/-- What is open around the group, with the expression `a` of the group as its last item. -/
def Outer.holding (o : Outer) (a : Re) (depth : Nat) : Branches :=
  { o.branches with items := ⟨some a, depth⟩ :: o.branches.items }

theorem closeGroup?_of_within (ho : o.index = none) (hst : st.outer = []) :
    (st.within o).closeGroup? = some ⟨o.flags, o.holding st.branches.toRe.1 (st.branches.toRe.2 + 1),
      [], st.names, st.groups⟩ := by
  unfold State.closeGroup? State.within
  rw [hst]
  dsimp only [List.nil_append]
  rw [ho]
  rfl

theorem readFrom?_of_nil (h : st.flags.skip r = []) :
    readFrom? (n + 1) st r =
      if st.outer.isEmpty ∧ st.branches.toRe.2 ≤ maxNesting then some st.branches.toRe.1
      else none := by
  rw [readFrom?, h]

theorem readFrom?_of_cons {c : Char} {u : List Char} (h : st.flags.skip r = c :: u) :
    readFrom? (n + 1) st r = next? st n (c :: u) >>= fun x => readFrom? n x.1 x.2 := by
  rw [readFrom?, h]

/-- Where the text ends, the parenthesis closes the group, and nothing else is left. -/
theorem readFrom?_within_end {a b : Re} (ho : o.index = none) (hr : st.flags.skip r = [])
    (hr' : Enclosed [] (st.flags.skip r')) (ha : readFrom? (n + 1) st r = some a)
    (hb : readFrom? (n' + 2) (st.within o) r' = some b) :
    ∃ depth, b = (o.holding a depth).toRe.1 := by
  rw [readFrom?_of_nil hr] at ha
  split at ha
  · rename_i hend
    obtain rfl := Option.some.inj ha
    rcases hr'.of_nil with hr' | hr'
    · replace hr' : (st.within o).flags.skip r' = [] := hr'
      rw [readFrom?_of_nil hr'] at hb
      simp [State.within] at hb
    · replace hr' : (st.within o).flags.skip r' = [')'] := hr'
      rw [readFrom?_of_cons hr'] at hb
      have hclose : next? (st.within o) (n' + 1) [')'] = _ :=
        congrArg (Option.map (·, [])) (closeGroup?_of_within ho (List.isEmpty_iff.mp hend.1))
      rw [hclose] at hb
      change readFrom? (n' + 1) _ [] = some b at hb
      rw [readFrom?_of_nil (by unfold Flags.skip; split <;> rfl)] at hb
      split at hb
      · exact ⟨_, (Option.some.inj hb).symm⟩
      · cases hb
  · cases ha

/-- The group is one item, and holds what is read without it. -/
theorem readFrom?_within {a b : Re} (ho : o.index = none) (h : Enclosed r r') (hn : r.length < n)
    (hn' : n < n') (ha : readFrom? n st r = some a) (hb : readFrom? n' (st.within o) r' = some b) :
    ∃ depth, b = (o.holding a depth).toRe.1 := by
  induction n generalizing n' st r r' with
  | zero => cases hn
  | succ n ih =>
    obtain ⟨n', rfl⟩ : ∃ m, n' = m + 2 := ⟨n' - 2, by omega⟩
    have hs := h.skip st.flags
    have hlen := length_skip_le st.flags (Nat.le_of_lt_succ hn)
    cases hskip : st.flags.skip r with
    | nil =>
      rw [hskip] at hs
      exact readFrom?_within_end ho hskip hs ha hb
    | cons c u =>
      rw [hskip] at hs hlen
      obtain ⟨u', hskip', hu⟩ := hs.of_cons
      replace hskip' : (st.within o).flags.skip r' = c :: u' := hskip'
      rw [readFrom?_of_cons hskip] at ha
      rw [readFrom?_of_cons hskip'] at hb
      obtain ⟨⟨st₁, s⟩, hnext, ha⟩ := Option.bind_eq_some_iff.mp ha
      obtain ⟨⟨_, s'⟩, hnext', ⟨rfl⟩, hle, hs'⟩ := next?_keeps (o := o) hu (Nat.le_refl _)
        (Nat.le_of_succ_le hlen) (Nat.lt_of_succ_lt_succ hn') _ hnext
      rw [hnext'] at hb
      exact ih hs' (Nat.lt_of_le_of_lt hle hlen) (Nat.lt_of_succ_lt_succ hn') ha hb

end

end Peg.Regex
