import Peg.Proofs.Regex.Enclosed.Texts
import Mathlib.Data.List.TakeWhile

/-!
# Escapes and classes before a closing parenthesis

An escape or a class that ends in the text is read in the same way if a closing parenthesis follows
the text.
-/

namespace Peg.Regex

/-! ## Numbers of characters -/

section
variable {f : Flags} {k n n' : Nat} {r r' : List Char}

theorem hexDigits?_carries (digits acc : Nat) (h : Enclosed r r') (hk : r.length ≤ k) :
    Carries (Leaves k) (hexDigits? f digits acc r) (hexDigits? f digits acc r') := by
  induction digits generalizing acc r r' with
  | zero => exact carries_some ⟨rfl, hk, h⟩
  | succ digits ih =>
    cases r with
    | nil => exact carries_none
    | cons c r =>
      obtain ⟨s, rfl, hs⟩ := h.of_cons
      unfold hexDigits?
      cases hexValue? c with
      | none => exact carries_none
      | some v =>
        exact ih _ (hs.skip f) (length_skip_le f (Nat.le_of_succ_le hk))

theorem hexUntilBrace?_carries (acc : Option Nat) (h : Enclosed r r') (hk : r.length ≤ k)
    (hn : n ≤ n') : Carries (Leaves k) (hexUntilBrace? f n acc r) (hexUntilBrace? f n' acc r') := by
  induction n generalizing n' acc r r' with
  | zero => exact carries_none
  | succ n ih =>
    cases r with
    | nil => exact carries_none
    | cons c r =>
      obtain ⟨s, rfl, hs⟩ := h.of_cons
      obtain ⟨n', rfl⟩ : ∃ m, n' = m + 1 := ⟨n' - 1, by omega⟩
      have hk' : (f.skip r).length ≤ k := length_skip_le f (Nat.le_of_succ_le hk)
      unfold hexUntilBrace?
      split
      · cases acc with
        | none => exact carries_none
        | some v => exact carries_some ⟨rfl, hk', hs.skip f⟩
      · cases hexValue? c with
        | none => exact carries_none
        | some v => exact ih _ (hs.skip f) hk' (Nat.le_of_succ_le_succ hn)

theorem hexChar?_carries (digits : Nat) (h : Enclosed r r') (hk : r.length ≤ k) (hn : n ≤ n') :
    Carries (Leaves k) (hexChar? f digits n r) (hexChar? f digits n' r') := by
  have value {o o' : Option (Nat × List Char)} (h : Carries (Leaves k) o o') :
      Carries (Leaves k) (o >>= fun x => charOf? x.1 >>= fun c => some (c, x.2))
        (o' >>= fun x => charOf? x.1 >>= fun c => some (c, x.2)) := by
    refine h.bind fun ⟨v, s⟩ ⟨v', s'⟩ ⟨hv, hs⟩ => ?_
    obtain rfl : v' = v := hv
    cases charOf? v' with
    | none => exact carries_none
    | some c => exact carries_some ⟨rfl, hs⟩
  have hs := h.skip f
  have hlen := length_skip_le f hk
  unfold hexChar?
  generalize f.skip r = s at *
  generalize f.skip r' = s' at *
  rcases hs.cases_head (c := '\x7b') (by decide) with ⟨u, u', rfl, rfl, hu⟩ | ⟨hne, hne'⟩
  · exact value (hexUntilBrace?_carries none (hu.skip f) (length_skip_le f (Nat.le_of_succ_le hlen))
      (Nat.succ_le_succ hn))
  · split
    · exact absurd rfl (hne _)
    · exact value ((hexDigits?_carries digits 0 hs hlen).filter_leaves
        fun v => !(f.ascii && digits == 2 && 128 ≤ v))

end

section
variable {f : Flags}

theorem takeLetters_eq (n : Nat) (r : List Char) :
    takeLetters f n r = spanSkip f (fun c => c.isAlpha || c == '-') n r := by
  fun_induction takeLetters f n r with
  | case1 n c r h cs r' he ih => simp [spanSkip, h, ← ih, he]
  | case2 n c r h => simp [spanSkip, h]
  | case3 n r h => exact (spanSkip_of_stop h).symm

theorem leadingDashes_eq (n : Nat) (m : Members) (r : List Char) :
    leadingDashes f n m r =
      ((spanSkip f (· == '-') n r).1.foldl (fun m _ => m.add (.single '-') 0) m,
        (spanSkip f (· == '-') n r).2) := by
  fun_induction leadingDashes f n m r with
  | case1 n m r ih => simp [spanSkip, ih]
  | case2 n m r h =>
    have hnone : spanSkip f (· == '-') n r = ([], r) := by
      cases n with
      | zero => rfl
      | succ n =>
        cases r with
        | nil => rfl
        | cons c r =>
          have hc : c ≠ '-' := fun hc => h n r rfl (hc ▸ rfl)
          simp [spanSkip, hc]
    rw [hnone]
    rfl

end

/-! ## Escapes -/

section
variable {f : Flags} {k n n' : Nat} {r r' : List Char}

/-- The side of a word that is named up to the closing brace. -/
def namedBoundary? (f : Flags) : List Char × List Char → Option (Look × List Char)
  | (name, '\x7d' :: rest) =>
    if name = "start".toList then some (.wordStart f.ascii, rest)
    else if name = "end".toList then some (.wordEnd f.ascii, rest)
    else if name = "start-half".toList then some (.wordStartHalf f.ascii, rest)
    else if name = "end-half".toList then some (.wordEndHalf f.ascii, rest)
    else none
  | _ => none

theorem wordBoundary?_brace (n : Nat) {c : Char} {s : List Char} (hs : f.skip r = c :: s) :
    wordBoundary? f n ('\x7b' :: r) =
      if c.isAlpha || c == '-' then namedBoundary? f (takeLetters f n (c :: s))
      else some (.wordBoundary f.ascii, '\x7b' :: r) := by
  rw [wordBoundary?, hs]
  rfl

theorem namedBoundary?_carries {x x' : List Char × List Char} (h : Leaves k x x') :
    Carries (Leaves k) (namedBoundary? f x) (namedBoundary? f x') := by
  obtain ⟨name, s⟩ := x
  obtain ⟨name', s'⟩ := x'
  obtain ⟨hname, hle, hs⟩ := h
  obtain rfl : name' = name := hname
  rcases hs.cases_head (c := '\x7d') (by decide) with ⟨u, u', hu, hu', hclosed⟩ | ⟨hne, hne'⟩
  · obtain rfl : s = _ := hu
    obtain rfl : s' = _ := hu'
    have side (l : Look) : Carries (Leaves k) (some (l, u)) (some (l, u')) :=
      carries_some ⟨rfl, Nat.le_of_succ_le hle, hclosed⟩
    exact .ite (side _) (.ite (side _) (.ite (side _) (.ite (side _) carries_none)))
  · unfold namedBoundary?
    split
    · rename_i he
      cases he
      exact absurd rfl (hne _)
    · exact carries_none

theorem wordBoundary?_carries (h : Enclosed r r') (hk : r.length ≤ k) (hn : r.length ≤ n)
    (hn' : n < n') : Carries (Leaves k) (wordBoundary? f n r) (wordBoundary? f n' r') := by
  rcases h.cases_head (c := '\x7b') (by decide) with ⟨u, u', rfl, rfl, hu⟩ | ⟨hne, hne'⟩
  · have hs := hu.skip f
    have hlen := length_skip_le f (Nat.le_of_succ_le hk)
    have hlen' := length_skip_le f (Nat.le_of_succ_le hn)
    cases hskip : f.skip u with
    | nil =>
      rw [wordBoundary?, hskip]
      exact carries_none
    | cons c s =>
      rw [hskip] at hs hlen hlen'
      obtain ⟨s', hskip', -⟩ := hs.of_cons
      rw [hskip'] at hs
      rw [wordBoundary?_brace n hskip, wordBoundary?_brace n' hskip', takeLetters_eq, takeLetters_eq]
      exact .ite (namedBoundary?_carries (spanSkip_leaves (by decide) hs hlen hlen' hn'))
        (carries_some ⟨rfl, hk, h⟩)
  · unfold wordBoundary?
    split
    · exact absurd rfl (hne _)
    · exact carries_some ⟨rfl, hk, h⟩

theorem escape?_carries (h : Enclosed r r') (hk : r.length ≤ k + 1) (hn : r.length ≤ n + 1)
    (hn' : n < n') : Carries (Leaves k) (escape? f n r) (escape? f n' r') := by
  cases r with
  | nil => exact carries_none
  | cons c r =>
    obtain ⟨s, rfl, hs⟩ := h.of_cons
    replace hk := Nat.le_of_succ_le_succ hk
    replace hn := Nat.le_of_succ_le_succ hn
    have here (a : Atom) : Carries (Leaves k) (some (a, r)) (some (a, s)) :=
      carries_some ⟨rfl, hk, hs⟩
    have hex (digits : Nat) : Carries (Leaves k)
        ((hexChar? f digits n r).map fun x => (Atom.char x.1, x.2))
        ((hexChar? f digits n' s).map fun x => (Atom.char x.1, x.2)) :=
      (hexChar?_carries digits hs hk (Nat.le_of_lt hn')).map fun _ _ h =>
        ⟨congrArg Atom.char h.1, h.2⟩
    have set (negated : Bool) (t : CharSet) : Carries (Leaves k)
        ((signed? f negated t).map fun t => (Atom.set t, r))
        ((signed? f negated t).map fun t => (Atom.set t, s)) := by
      cases signed? f negated t with
      | none => exact carries_none
      | some t => exact here (.set t)
    unfold escape?
    dsimp only
    split
    · exact hex 2
    · exact hex 4
    · exact hex 8
    all_goals try first | exact here _ | exact set _ _
    · exact (wordBoundary?_carries hs hk hn hn').map fun _ _ h => ⟨congrArg Atom.look h.1, h.2⟩
    · exact .ite (here _) carries_none

theorem classAtom?_carries (h : Enclosed r r') (hk : r.length ≤ k + 1) (hn : r.length ≤ n + 1)
    (hn' : n < n') : Carries (Leaves k) (classAtom? f n r) (classAtom? f n' r') := by
  unfold classAtom?
  refine Carries.filter_leaves ?_ (Atom.fitsClass f)
  cases r with
  | nil => exact carries_none
  | cons c r =>
    obtain ⟨s, rfl, hs⟩ := h.of_cons
    replace hk := Nat.le_of_succ_le_succ hk
    replace hn := Nat.le_of_succ_le_succ hn
    by_cases hc : c = '\\'
    · subst hc
      exact escape?_carries hs (Nat.le_succ_of_le hk) (Nat.le_succ_of_le hn) hn'
    · split
      · cases ‹c :: r = []›
      · exact absurd (List.cons.inj ‹c :: r = _›).1 hc
      · obtain ⟨rfl, rfl⟩ := List.cons.inj ‹c :: r = _›
        exact carries_some ⟨rfl, hk, hs⟩

end

/-! ## Classes -/

section
variable {f : Flags} {k n n' : Nat} {r r' : List Char}

theorem leadingDashes_leaves (m : Members) (h : Enclosed r r') (hk : r.length ≤ k)
    (hn : r.length ≤ n) (hn' : n < n') :
    Leaves k (leadingDashes f n m r) (leadingDashes f n' m r') := by
  obtain ⟨hdashes, hrest⟩ := spanSkip_leaves (f := f) (q := (· == '-')) (by decide) h hk hn hn'
  rw [leadingDashes_eq, leadingDashes_eq, hdashes]
  exact ⟨rfl, hrest⟩

def classSign (f : Flags) (r : List Char) : Bool × List Char :=
  match f.skip r with
  | '^' :: r => (true, f.skip r)
  | r => (false, r)

/-- A bracket that stands where the first member is expected is one. -/
def classStart? (f : Flags) (negated : Bool) (m : Members) (r : List Char) :
    Option (Bool × Members × List Char) :=
  match r with
  | [] => none
  | ']' :: rest =>
    if m.count ≠ 0 then some (negated, m, r)
    else if (f.skip rest).isEmpty then none
    else some (negated, m.add (.single ']') 0, f.skip rest)
  | r => some (negated, m, r)

theorem openClass?_eq (n : Nat) (r : List Char) :
    openClass? f n r =
      classStart? f (classSign f r).1 (leadingDashes f n .none (classSign f r).2).1
        (leadingDashes f n .none (classSign f r).2).2 :=
  rfl

theorem classSign_leaves (h : Enclosed r r') (hk : r.length ≤ k) :
    Leaves k (classSign f r) (classSign f r') := by
  have hs := h.skip f
  have hlen := length_skip_le f hk
  unfold classSign
  generalize f.skip r = s at *
  generalize f.skip r' = s' at *
  rcases hs.cases_head (c := '^') (by decide) with ⟨u, u', rfl, rfl, hu⟩ | ⟨hne, hne'⟩
  · exact ⟨rfl, length_skip_le f (Nat.le_of_succ_le hlen), hu.skip f⟩
  · split
    · exact absurd rfl (hne _)
    · exact ⟨rfl, hlen, hs⟩

theorem classStart?_carries (negated : Bool) (m : Members) (h : Enclosed r r') (hk : r.length ≤ k) :
    Carries (Leaves₂ k) (classStart? f negated m r) (classStart? f negated m r') := by
  cases r with
  | nil => exact carries_none
  | cons c r =>
    obtain ⟨s, rfl, hs⟩ := h.of_cons
    by_cases hc : c = ']'
    · subst hc
      refine .ite (carries_some ⟨rfl, rfl, hk, h⟩) ?_
      have hu := hs.skip f
      have hlen := length_skip_le f (Nat.le_of_succ_le hk)
      generalize f.skip r = u at *
      generalize f.skip s = u' at *
      cases u with
      | nil => exact carries_none
      | cons d u =>
        obtain ⟨u', rfl, -⟩ := hu.of_cons
        exact carries_some ⟨rfl, rfl, hlen, hu⟩
    · have hother (u : List Char) : classStart? f negated m (c :: u) = some (negated, m, c :: u) := by
        unfold classStart?
        split
        · rename_i he
          cases he
        · rename_i he
          exact absurd (List.cons.inj he).1 hc
        · rfl
      rw [hother, hother]
      exact carries_some ⟨rfl, rfl, hk, h⟩

theorem openClass?_carries (h : Enclosed r r') (hk : r.length ≤ k) (hn : r.length ≤ n)
    (hn' : n < n') : Carries (Leaves₂ k) (openClass? f n r) (openClass? f n' r') := by
  obtain ⟨hsign, hlen, hs⟩ := classSign_leaves (f := f) h (Nat.le_min.mpr ⟨hk, hn⟩)
  obtain ⟨hk, hn⟩ := Nat.le_min.mp hlen
  obtain ⟨hm, hle, hrest⟩ := leadingDashes_leaves (f := f) .none hs hk hn hn'
  rw [openClass?_eq, openClass?_eq, hsign, hm]
  exact classStart?_carries _ _ hrest hle

def className? (negated : Bool) (r : List Char) : Option ((Bool × CharSet) × List Char) :=
  match r.dropWhile (· != ':') with
  | ':' :: ']' :: rest => do
    let s ← CharSet.named? (String.ofList (r.takeWhile (· != ':')))
    some ((negated, s), rest)
  | _ => none

def nameSign (r : List Char) : Bool × List Char :=
  match r with
  | '^' :: r => (true, r)
  | r => (false, r)

theorem namedClass?_eq (r : List Char) :
    namedClass? (':' :: r) = className? (nameSign r).1 (nameSign r).2 :=
  rfl

theorem nameSign_leaves (h : Enclosed r r') (hk : r.length ≤ k) :
    Leaves k (nameSign r) (nameSign r') := by
  unfold nameSign
  rcases h.cases_head (c := '^') (by decide) with ⟨u, u', rfl, rfl, hu⟩ | ⟨hne, hne'⟩
  · exact ⟨rfl, Nat.le_of_succ_le hk, hu⟩
  · split
    · exact absurd rfl (hne _)
    · exact ⟨rfl, hk, h⟩

/-- The same is read from both, or nothing from either. -/
def Agree {α : Type} (k : Nat) (o o' : Option (α × List Char)) : Prop :=
  Carries (Leaves k) o o' ∧ (o = none → o' = none)

theorem agree_none {α : Type} : Agree (α := α) k none none :=
  ⟨carries_none, fun _ => rfl⟩

theorem className?_agree (negated : Bool) (h : Enclosed r r') (hk : r.length ≤ k) :
    Agree k (className? negated r) (className? negated r') := by
  have hd := h.dropWhile (· != ':')
  have hlen : (r.dropWhile (· != ':')).length ≤ k :=
    Nat.le_trans (List.dropWhile_sublist _).length_le hk
  have hname := h.takeWhile_eq (p := (· != ':'))
  unfold className?
  generalize r.dropWhile (· != ':') = s at *
  generalize r'.dropWhile (· != ':') = s' at *
  rcases hd.cases_head (c := ':') (by decide) with ⟨u, u', rfl, rfl, hu⟩ | ⟨hne, hne'⟩
  · rw [hname (List.cons_ne_nil _ _)]
    rcases hu.cases_head (c := ']') (by decide) with ⟨v, v', rfl, rfl, hv⟩ | ⟨hne, hne'⟩
    · cases CharSet.named? (String.ofList (r.takeWhile (· != ':'))) with
      | none => exact agree_none
      | some c =>
        exact ⟨carries_some ⟨rfl, Nat.le_of_succ_le (Nat.le_of_succ_le hlen), hv⟩, nofun⟩
    · split
      · rename_i he
        cases he
        exact absurd rfl (hne _)
      · split
        · rename_i he
          cases he
          exact absurd rfl (hne' _)
        · exact agree_none
  · split
    · exact absurd rfl (hne _)
    · split
      · exact absurd rfl (hne' _)
      · exact agree_none

/-- The name of a class ends before the parenthesis, if it ends. -/
theorem namedClass?_agree (h : Enclosed r r') (hk : r.length ≤ k) :
    Agree k (namedClass? r) (namedClass? r') := by
  rcases h.cases_head (c := ':') (by decide) with ⟨u, u', rfl, rfl, hu⟩ | ⟨hne, hne'⟩
  · obtain ⟨hsign, hlen, hrest⟩ := nameSign_leaves hu (Nat.le_of_succ_le hk)
    rw [namedClass?_eq, namedClass?_eq, hsign]
    exact className?_agree _ hrest hlen
  · unfold namedClass?
    split
    · exact absurd rfl (hne _)
    · exact agree_none

/-! ### Ranges -/

theorem dropBlank_eq_nil (b : Bool) (h : ∀ c ∈ r, isWhiteSpace c) : dropBlank b r = [] := by
  fun_induction dropBlank b r with
  | case1 => rfl
  | case2 c r ih => exact ih (List.forall_mem_cons.mp h).2
  | case3 c r hc ih => exact ih (List.forall_mem_cons.mp h).2
  | case4 r hc ih => exact absurd (List.forall_mem_cons.mp h).1 hc
  | case5 c r hc => exact absurd (List.forall_mem_cons.mp h).1 hc

theorem dropBlank_dropWhile (r : List Char) :
    dropBlank false (r.dropWhile isWhiteSpace) = dropBlank false r := by
  induction r with
  | nil => rfl
  | cons c r ih =>
    by_cases hc : isWhiteSpace c
    · rw [List.dropWhile_cons_of_pos hc, ih, dropBlank, if_pos hc]
    · rw [List.dropWhile_cons_of_neg hc]

/-- What stands behind white space and the sign of a comment. -/
def behindBlank (r : List Char) : List Char :=
  match r.dropWhile isWhiteSpace with
  | '#' :: r => r.dropWhile isWhiteSpace
  | r => r

theorem behindDash_verbose (hf : f.verbose) : behindDash f r = (behindBlank r).head?.or r.head? := by
  rw [behindDash, if_pos hf]
  rfl

theorem behindBlank_enclosed (h : Enclosed r r') : Enclosed (behindBlank r) (behindBlank r') := by
  have hd := h.dropWhile isWhiteSpace
  unfold behindBlank
  generalize r.dropWhile isWhiteSpace = s at *
  generalize r'.dropWhile isWhiteSpace = s' at *
  rcases hd.cases_head (c := '#') (by decide) with ⟨u, u', rfl, rfl, hu⟩ | ⟨hne, hne'⟩
  · exact hu.dropWhile isWhiteSpace
  · split
    · exact absurd rfl (hne _)
    · exact hd

theorem behindBlank_ne_nil (h : dropBlank false r ≠ []) : behindBlank r ≠ [] := by
  rw [← dropBlank_dropWhile] at h
  unfold behindBlank
  split
  · rename_i u hu
    rw [hu] at h
    intro hnil
    refine h ?_
    rw [dropBlank, if_neg (by decide), if_pos rfl]
    exact dropBlank_eq_nil true (List.dropWhile_eq_nil_iff.mp hnil)
  · intro hnil
    rw [hnil] at h
    exact h rfl

theorem behindBlank_cons {c : Char} (hw : isWhiteSpace c = false) (hc : c ≠ '#') (r : List Char) :
    behindBlank (c :: r) = c :: r := by
  unfold behindBlank
  rw [List.dropWhile_cons_of_neg (by simp [hw])]
  split
  · rename_i he
    exact absurd (List.cons.inj he).1 hc
  · rfl

/-- The parenthesis is not seen behind a dash, unless nothing else follows. -/
theorem behindDash_eq (h : Enclosed r r') (hr : f.skip r ≠ [] ∨ behindDash f r = some ']' ∨
    behindDash f r = some '-') : behindDash f r' = behindDash f r := by
  by_cases hf : f.verbose
  · have hne : behindBlank r ≠ [] := by
      rcases hr with hskip | hhead
      · rw [Flags.skip, if_pos hf] at hskip
        exact behindBlank_ne_nil hskip
      · intro hnil
        rw [behindDash_verbose hf, hnil, List.head?_nil, Option.none_or] at hhead
        rcases hhead with hhead | hhead
        all_goals
          obtain ⟨u, rfl⟩ := List.head?_eq_some_iff.mp hhead
          rw [behindBlank_cons (by decide) (by decide)] at hnil
          cases hnil
    obtain ⟨c, u, hu⟩ := List.exists_cons_of_ne_nil hne
    have hhead := (behindBlank_enclosed h).head?_eq hne
    rw [hu, List.head?_cons] at hhead
    rw [behindDash_verbose hf, behindDash_verbose hf, hhead, hu]
    rfl
  · rw [behindDash, behindDash, if_neg hf, if_neg hf]
    refine h.head?_eq ?_
    rintro rfl
    simp [Flags.skip, behindDash, hf] at hr

def rangeFrom? (f : Flags) (n : Nat) (first : Atom) (r : List Char) :
    Option (CharSet × List Char) := do
  match first, ← classAtom? f n r with
  | .char lo, (.char hi, r) => if lo ≤ hi then some (.range lo hi, r) else none
  | _, _ => none

/-- The member that an atom is by itself. -/
def aloneSet? : Atom → Option CharSet
  | .char c => some (CharSet.single c)
  | .set s => some s
  | .look _ => none

/-- The member that begins with `first`, which `r` follows. -/
def memberFrom? (f : Flags) (n : Nat) (first : Atom) (r : List Char) :
    Option (CharSet × List Char) :=
  match r with
  | [] => none
  | '-' :: rest =>
    if behindDash f rest = some ']' ∨ behindDash f rest = some '-' then
      (aloneSet? first).map (·, '-' :: rest)
    else rangeFrom? f n first (f.skip rest)
  | r => (aloneSet? first).map (·, r)

theorem member?_eq (n : Nat) (r : List Char) :
    member? f n r = classAtom? f n r >>= fun x => memberFrom? f n x.1 (f.skip x.2) :=
  rfl

theorem memberFrom?_dash (n : Nat) (first : Atom) (r : List Char) :
    memberFrom? f n first ('-' :: r) =
      if behindDash f r = some ']' ∨ behindDash f r = some '-' then
        (aloneSet? first).map (·, '-' :: r)
      else rangeFrom? f n first (f.skip r) :=
  rfl

theorem memberFrom?_of_ne {c : Char} (hc : c ≠ '-') (n : Nat) (first : Atom) (r : List Char) :
    memberFrom? f n first (c :: r) = (aloneSet? first).map (·, c :: r) := by
  unfold memberFrom?
  split
  · rename_i he
    cases he
  · rename_i he
    exact absurd (List.cons.inj he).1 hc
  · rfl

theorem rangeFrom?_carries (first : Atom) (h : Enclosed r r') (hk : r.length ≤ k + 1)
    (hn : r.length ≤ n + 1) (hn' : n < n') :
    Carries (Leaves k) (rangeFrom? f n first r) (rangeFrom? f n' first r') := by
  unfold rangeFrom?
  refine (classAtom?_carries h hk hn hn').bind fun ⟨last, s⟩ ⟨last', s'⟩ ⟨hlast, hle, hs⟩ => ?_
  obtain rfl : last' = last := hlast
  cases first with
  | char lo =>
    cases last' with
    | char hi => exact .ite (carries_some ⟨rfl, hle, hs⟩) carries_none
    | _ => exact carries_none
  | _ => exact carries_none

theorem memberFrom?_carries (first : Atom) (h : Enclosed r r') (hk : r.length ≤ k)
    (hn : r.length ≤ n) (hn' : n < n') :
    Carries (Leaves k) (memberFrom? f n first r) (memberFrom? f n' first r') := by
  cases r with
  | nil => exact carries_none
  | cons c r =>
    obtain ⟨s, rfl, hs⟩ := h.of_cons
    have alone : Carries (Leaves k) ((aloneSet? first).map (·, c :: r))
        ((aloneSet? first).map (·, c :: s)) := by
      cases aloneSet? first with
      | none => exact carries_none
      | some a => exact carries_some ⟨rfl, hk, h⟩
    by_cases hc : c = '-'
    · subst hc
      rw [memberFrom?_dash, memberFrom?_dash]
      by_cases hd : behindDash f r = some ']' ∨ behindDash f r = some '-'
      · rw [behindDash_eq hs (.inr hd), if_pos hd, if_pos hd]
        exact alone
      · rw [if_neg hd]
        by_cases hskip : f.skip r = []
        · rw [hskip]
          exact carries_none
        · rw [behindDash_eq hs (.inl hskip), if_neg hd]
          have hk' : (f.skip r).length ≤ k := length_skip_le f (Nat.le_of_succ_le hk)
          have hn'' : (f.skip r).length ≤ n := length_skip_le f (Nat.le_of_succ_le hn)
          exact rangeFrom?_carries first (hs.skip f) (Nat.le_succ_of_le hk') (Nat.le_succ_of_le hn'') hn'
    · rw [memberFrom?_of_ne hc, memberFrom?_of_ne hc]
      exact alone

theorem member?_carries (h : Enclosed r r') (hk : r.length ≤ k + 1) (hn : r.length ≤ n + 1)
    (hn' : n < n') : Carries (Leaves k) (member? f n r) (member? f n' r') := by
  rw [member?_eq, member?_eq]
  have hmin : r.length ≤ min k n + 1 := by omega
  refine (classAtom?_carries h hmin hn hn').bind fun ⟨first, s⟩ ⟨first', s'⟩ ⟨hfirst, hle, hs⟩ => ?_
  obtain rfl : first' = first := hfirst
  obtain ⟨hk, hn⟩ := Nat.le_min.mp hle
  exact memberFrom?_carries first' (hs.skip f) (length_skip_le f hk) (length_skip_le f hn) hn'

def operatorOf? : Char → Char → Option (CharSet → CharSet → CharSet)
  | '&', '&' => some .inter
  | '-', '-' => some .diff
  | '~', '~' => some .symmDiff
  | _, _ => none

def operator? : List Char → Option ((CharSet → CharSet → CharSet) × List Char)
  | c :: d :: r => (operatorOf? c d).map (·, r)
  | _ => none

theorem operatorOf?_parenthesis (c : Char) : operatorOf? c ')' = none := by
  unfold operatorOf?
  split <;> simp_all

theorem operator?_agree (h : Enclosed r r') (hk : r.length ≤ k + 1) :
    Agree k (operator? r) (operator? r') := by
  cases r with
  | nil => rcases h.of_nil with rfl | rfl <;> exact agree_none
  | cons c r =>
    obtain ⟨s, rfl, hs⟩ := h.of_cons
    cases r with
    | nil =>
      rcases hs.of_nil with rfl | rfl
      · exact agree_none
      · rw [operator?, operatorOf?_parenthesis]
        exact agree_none
    | cons d r =>
      obtain ⟨u, rfl, hu⟩ := hs.of_cons
      rw [operator?, operator?]
      cases operatorOf? c d with
      | none => exact agree_none
      | some op =>
        exact ⟨carries_some ⟨rfl, Nat.le_of_succ_le (Nat.le_of_succ_le_succ hk), hu⟩, nofun⟩

section
variable {m : Members} {st : List Opened} {s : List Char}

theorem classFrom?_nil (hs : f.skip r = []) : classFrom? f (n + 1) m st r = none := by
  rw [classFrom?, hs]

theorem classFrom?_open (hs : f.skip r = '[' :: s) : classFrom? f (n + 1) m st r =
    match namedClass? s with
    | some ((negated, c), u) => signed? f negated (withCase f c) >>= fun c =>
        classFrom? f n (m.add c 0) st u
    | none => openClass? f n s >>= fun x =>
        classFrom? f n x.2.1 (.bracket m x.1 :: st) x.2.2 := by
  rw [classFrom?, hs]
  rfl

theorem classFrom?_close (hs : f.skip r = ']' :: s) : classFrom? f (n + 1) m st r =
    match (applyOperator f m st).2.2 with
    | .bracket before negated :: st' =>
      signed? f negated (withCase f (applyOperator f m st).1) >>= fun c =>
        if st'.isEmpty then some (c, (applyOperator f m st).2.1 + 1, s)
        else classFrom? f n (before.add c ((applyOperator f m st).2.1 + 1)) st' s
    | _ => none := by
  rw [classFrom?, hs]
  rfl

theorem classFrom?_other {c : Char} (hs : f.skip r = c :: s) (ho : c ≠ '[') (hc : c ≠ ']') :
    classFrom? f (n + 1) m st r =
      match operator? (c :: s) with
      | some (op, u) => classFrom? f n .none
          (.operator op (applyOperator f m st).1 (applyOperator f m st).2.1 ::
            (applyOperator f m st).2.2) u
      | none => member? f n (c :: s) >>= fun x => classFrom? f n (m.add x.1 0) st x.2 := by
  rw [classFrom?, hs]
  split
  · cases ‹c :: s = []›
  · exact absurd (List.cons.inj ‹c :: s = _›).1 ho
  · exact absurd (List.cons.inj ‹c :: s = _›).1 hc
  · simp_all [operator?, operatorOf?]
  · simp_all [operator?, operatorOf?]
  · simp_all [operator?, operatorOf?]
  · rename_i hand hdash htilde
    have hnone : operator? (c :: s) = none := by
      cases s with
      | nil => rfl
      | cons d s =>
        rw [operator?, Option.map_eq_none_iff]
        unfold operatorOf?
        split
        · exact absurd rfl (hand s)
        · exact absurd rfl (hdash s)
        · exact absurd rfl (htilde s)
        · rfl
    rw [hnone]

end

/-- With `n` steps, a class is read in the same way before a parenthesis. -/
def ClassCarries (f : Flags) (n : Nat) : Prop :=
  ∀ (m : Members) (st : List Opened) {k n' : Nat} {r r' : List Char}, Enclosed r r' →
    r.length ≤ k → r.length < n → n < n' →
    Carries (Leaves₂ k) (classFrom? f n m st r) (classFrom? f n' m st r')

section
variable (m : Members) (st : List Opened) {s s' : List Char} (ih : ClassCarries f n)
  (hk : s.length ≤ k) (hn : s.length < n) (hn' : n < n')
include ih hk hn hn'

theorem classFrom?_carries_open (hs : f.skip r = '[' :: s) (hs' : f.skip r' = '[' :: s')
    (hclosed : Enclosed s s') :
    Carries (Leaves₂ k) (classFrom? f (n + 1) m st r) (classFrom? f (n' + 1) m st r') := by
  rw [classFrom?_open hs, classFrom?_open hs']
  obtain ⟨hnamed, hnone⟩ := namedClass?_agree hclosed (Nat.le_refl s.length)
  cases hname : namedClass? s with
  | some x =>
    obtain ⟨⟨a, u'⟩, hx, ha, hle, hu⟩ := hnamed x hname
    obtain rfl : a = x.1 := ha
    rw [hx]
    dsimp only
    cases signed? f x.1.1 (withCase f x.1.2) with
    | none => exact carries_none
    | some c => exact ih _ st hu (Nat.le_trans hle hk) (Nat.lt_of_le_of_lt hle hn) hn'
  | none =>
    rw [hnone hname]
    refine (openClass?_carries hclosed (Nat.le_refl s.length) (Nat.le_of_lt hn) hn').bind
      fun ⟨negated, inner, u⟩ ⟨negated', inner', u'⟩ ⟨hsign, hinner, hle, hu⟩ => ?_
    obtain rfl : negated' = negated := hsign
    obtain rfl : inner' = inner := hinner
    exact ih _ _ hu (Nat.le_trans hle hk) (Nat.lt_of_le_of_lt hle hn) hn'

theorem classFrom?_carries_close (hs : f.skip r = ']' :: s) (hs' : f.skip r' = ']' :: s')
    (hclosed : Enclosed s s') :
    Carries (Leaves₂ k) (classFrom? f (n + 1) m st r) (classFrom? f (n' + 1) m st r') := by
  rw [classFrom?_close hs, classFrom?_close hs']
  split
  · rename_i before negated st' _
    cases signed? f negated (withCase f (applyOperator f m st).1) with
    | none => exact carries_none
    | some c => exact .ite (carries_some ⟨rfl, rfl, hk, hclosed⟩) (ih _ _ hclosed hk hn hn')
  · exact carries_none

theorem classFrom?_carries_other {c : Char} (hs : f.skip r = c :: s) (hs' : f.skip r' = c :: s')
    (hall : Enclosed (c :: s) (c :: s')) (ho : c ≠ '[') (hc : c ≠ ']') :
    Carries (Leaves₂ k) (classFrom? f (n + 1) m st r) (classFrom? f (n' + 1) m st r') := by
  rw [classFrom?_other hs ho hc, classFrom?_other hs' ho hc]
  obtain ⟨hop, hnone⟩ := operator?_agree hall (Nat.le_refl (s.length + 1))
  cases hoperator : operator? (c :: s) with
  | some x =>
    obtain ⟨⟨op, u'⟩, hx, hsame, hle, hu⟩ := hop x hoperator
    obtain rfl : op = x.1 := hsame
    rw [hx]
    exact ih _ _ hu (Nat.le_trans hle hk) (Nat.lt_of_le_of_lt hle hn) hn'
  | none =>
    rw [hnone hoperator]
    refine (member?_carries hall (Nat.le_refl (s.length + 1))
      (Nat.succ_le_succ (Nat.le_of_lt hn)) hn').bind fun ⟨a, u⟩ ⟨a', u'⟩ ⟨ha, hle, hu⟩ => ?_
    obtain rfl : a' = a := ha
    exact ih _ _ hu (Nat.le_trans hle hk) (Nat.lt_of_le_of_lt hle hn) hn'

end

theorem classCarries (f : Flags) (n : Nat) : ClassCarries f n := by
  induction n with
  | zero => exact fun _ _ _ _ _ _ _ _ _ _ => carries_none
  | succ n ih =>
    intro m st k n' r r' h hk hn hn'
    obtain ⟨n', rfl⟩ : ∃ m, n' = m + 1 := ⟨n' - 1, by omega⟩
    have hlt := Nat.lt_of_succ_lt_succ hn'
    have hlen := length_skip_le f (Nat.le_min.mpr ⟨hk, Nat.le_of_lt_succ hn⟩)
    cases hs : f.skip r with
    | nil =>
      rw [classFrom?_nil hs]
      exact carries_none
    | cons c s =>
      have hall := h.skip f
      rw [hs] at hall hlen
      obtain ⟨s', hs', hclosed⟩ := hall.of_cons
      rw [hs'] at hall
      obtain ⟨hk, hn⟩ := Nat.le_min.mp hlen
      replace hk : s.length ≤ k := Nat.le_of_succ_le hk
      by_cases ho : c = '['
      · subst ho
        exact classFrom?_carries_open m st ih hk hn hlt hs hs' hclosed
      · by_cases hc : c = ']'
        · subst hc
          exact classFrom?_carries_close m st ih hk hn hlt hs hs' hclosed
        · exact classFrom?_carries_other m st ih hk hn hlt hs hs' hall ho hc

theorem class?_carries (h : Enclosed r r') (hk : r.length ≤ k) (hn : r.length ≤ n) (hn' : n < n') :
    Carries (Leaves₂ k) (class? f n r) (class? f n' r') := by
  refine (openClass?_carries h (Nat.le_min.mpr ⟨hk, hn⟩) hn hn').bind
    fun ⟨negated, m, s⟩ ⟨negated', m', s'⟩ ⟨hsign, hm, hle, hs⟩ => ?_
  obtain rfl : negated' = negated := hsign
  obtain rfl : m' = m := hm
  obtain ⟨hk, hn⟩ := Nat.le_min.mp hle
  exact classCarries f (n + 1) m' _ hs hk (Nat.lt_succ_of_le hn) (Nat.succ_lt_succ hn')

end

end Peg.Regex
