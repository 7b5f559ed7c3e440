import Peg.Regex.Class

/-!
# Regular expressions in a group

A text that is a regular expression by itself is read in the same way if a closing parenthesis
follows it, which then closes a group around it. Only a comment at the end of the text can take the
parenthesis away, and leaves the group open.
-/

namespace Peg.Regex

/-! ## Texts with a parenthesis behind them -/

/-- A closing parenthesis stands behind `r`, unless a comment has taken it away. -/
def Enclosed (r r' : List Char) : Prop :=
  r' = r ++ [')'] ∨ r = [] ∧ r' = []

section
variable {c : Char} {r r' s : List Char}

theorem enclosed_append (r : List Char) : Enclosed r (r ++ [')']) :=
  .inl rfl

theorem Enclosed.of_cons (h : Enclosed (c :: r) r') : ∃ s, r' = c :: s ∧ Enclosed r s := by
  rcases h with rfl | ⟨h, -⟩
  · exact ⟨r ++ [')'], rfl, enclosed_append r⟩
  · cases h

theorem Enclosed.of_nil (h : Enclosed [] r') : r' = [] ∨ r' = [')'] := by
  rcases h with rfl | ⟨-, rfl⟩
  · exact .inr rfl
  · exact .inl rfl

theorem Enclosed.exists_cons (h : Enclosed r (c :: s)) (hc : c ≠ ')') :
    ∃ u, r = c :: u ∧ Enclosed u s := by
  rcases h with h | ⟨-, h⟩
  · cases r with
    | nil => exact absurd (List.cons.inj h).1 hc
    | cons d u =>
      obtain ⟨rfl, rfl⟩ := List.cons.inj h
      exact ⟨u, rfl, enclosed_append u⟩
  · cases h

/-- Both texts begin with `c`, or neither does. -/
theorem Enclosed.cases_head (h : Enclosed r r') (hc : c ≠ ')') :
    (∃ u u', r = c :: u ∧ r' = c :: u' ∧ Enclosed u u') ∨
      (∀ u, r ≠ c :: u) ∧ ∀ u, r' ≠ c :: u := by
  by_cases hr : ∃ u, r = c :: u
  · obtain ⟨u, rfl⟩ := hr
    obtain ⟨u', rfl, hu⟩ := h.of_cons
    exact .inl ⟨u, u', rfl, rfl, hu⟩
  · refine .inr ⟨fun u hu => hr ⟨u, hu⟩, fun u' hu => ?_⟩
    subst hu
    obtain ⟨u, rfl, -⟩ := h.exists_cons hc
    exact hr ⟨u, rfl⟩

theorem length_dropBlank_le (b : Bool) (r : List Char) : (dropBlank b r).length ≤ r.length := by
  fun_induction dropBlank b r with
  | case1 => exact Nat.le_refl _
  | case2 c r ih => exact Nat.le_succ_of_le ih
  | case3 c r h ih => exact Nat.le_succ_of_le ih
  | case4 r h ih => exact Nat.le_succ_of_le ih
  | case5 c r h₁ h₂ => exact Nat.le_refl _

theorem length_skip_le {k : Nat} (f : Flags) (hk : r.length ≤ k) : (f.skip r).length ≤ k := by
  unfold Flags.skip
  split
  · exact Nat.le_trans (length_dropBlank_le false r) hk
  · exact hk

theorem enclosed_dropBlank (b : Bool) (r : List Char) :
    Enclosed (dropBlank b r) (dropBlank b (r ++ [')'])) := by
  fun_induction dropBlank b r with
  | case1 b =>
    cases b with
    | false => exact .inl (by decide)
    | true => exact .inr ⟨rfl, by decide⟩
  | case2 c r ih => exact ih
  | case3 c r h ih => simpa [dropBlank, h] using ih
  | case4 r h ih => simpa [dropBlank, h] using ih
  | case5 c r h₁ h₂ => simpa [dropBlank, h₁, h₂] using enclosed_append (c :: r)

theorem Enclosed.skip (h : Enclosed r r') (f : Flags) : Enclosed (f.skip r) (f.skip r') := by
  unfold Flags.skip
  rcases h with rfl | ⟨rfl, rfl⟩
  · split
    · exact enclosed_dropBlank false r
    · exact enclosed_append r
  · split <;> exact .inr ⟨rfl, rfl⟩

theorem Enclosed.dropWhile (h : Enclosed r r') (p : Char → Bool) :
    Enclosed (r.dropWhile p) (r'.dropWhile p) := by
  rcases h with rfl | ⟨rfl, rfl⟩
  · rw [List.dropWhile_append]
    split
    · rename_i hr
      rw [List.isEmpty_iff.mp hr]
      cases hp : p ')' with
      | true => exact .inr ⟨rfl, by simp [hp]⟩
      | false => exact .inl (by simp [hp])
    · exact enclosed_append _
  · exact .inr ⟨rfl, rfl⟩

theorem Enclosed.takeWhile_eq (h : Enclosed r r') {p : Char → Bool} (hne : r.dropWhile p ≠ []) :
    r'.takeWhile p = r.takeWhile p := by
  rcases h with rfl | ⟨rfl, rfl⟩
  · rw [List.takeWhile_append]
    refine if_neg fun hlen => hne ?_
    have hsplit := congrArg List.length (List.takeWhile_append_dropWhile (p := p) (l := r))
    rw [List.length_append] at hsplit
    exact List.length_eq_zero_iff.mp (by omega)
  · rfl

theorem Enclosed.head?_eq (h : Enclosed r r') (hne : r ≠ []) : r'.head? = r.head? := by
  cases r with
  | nil => exact absurd rfl hne
  | cons c r =>
    obtain ⟨s, rfl, -⟩ := h.of_cons
    rfl

end

/-! ## Results -/

/-- If the first gives a result, so does the second, and they are related. -/
def Carries {α β : Type} (R : α → β → Prop) (o : Option α) (o' : Option β) : Prop :=
  ∀ x, o = some x → ∃ x', o' = some x' ∧ R x x'

section
variable {α β γ δ : Type} {R : α → β → Prop} {S : γ → δ → Prop} {o : Option α} {o' : Option β}

theorem carries_none : Carries R none o' :=
  nofun

theorem carries_some {x : α} {x' : β} (h : R x x') : Carries R (some x) (some x') := by
  rintro _ ⟨⟩
  exact ⟨x', rfl, h⟩

theorem Carries.bind {g : α → Option γ} {g' : β → Option δ} (h : Carries R o o')
    (hg : ∀ x x', R x x' → Carries S (g x) (g' x')) : Carries S (o >>= g) (o' >>= g') := by
  intro y hy
  obtain ⟨x, rfl, hx⟩ := Option.bind_eq_some_iff.mp hy
  obtain ⟨x', rfl, hR⟩ := h x rfl
  exact hg x x' hR y hx

theorem Carries.map {g : α → γ} {g' : β → δ} (h : Carries R o o')
    (hg : ∀ x x', R x x' → S (g x) (g' x')) : Carries S (o.map g) (o'.map g') := by
  intro y hy
  obtain ⟨x, rfl, rfl⟩ := Option.map_eq_some_iff.mp hy
  obtain ⟨x', rfl, hR⟩ := h x rfl
  exact ⟨g' x', rfl, hg x x' hR⟩

theorem Carries.filter {p : α → Bool} {p' : β → Bool} (h : Carries R o o')
    (hp : ∀ x x', R x x' → p' x' = p x) : Carries R (o.filter p) (o'.filter p') := by
  intro x hx
  obtain ⟨rfl, hpx⟩ := Option.filter_eq_some_iff.mp hx
  obtain ⟨x', rfl, hR⟩ := h x rfl
  exact ⟨x', Option.filter_eq_some_iff.mpr ⟨rfl, (hp x x' hR).trans hpx⟩, hR⟩

theorem Carries.ite {c : Prop} [Decidable c] {b : Option α} {b' : Option β}
    (h₁ : Carries R o o') (h₂ : Carries R b b') :
    Carries R (if c then o else b) (if c then o' else b') := by
  split
  · exact h₁
  · exact h₂

/-- The same is read, and at most `k` characters are left before the parenthesis. -/
def Leaves (k : Nat) (x x' : α × List Char) : Prop :=
  x'.1 = x.1 ∧ x.2.length ≤ k ∧ Enclosed x.2 x'.2

theorem Carries.filter_leaves {k : Nat} {o o' : Option (α × List Char)}
    (h : Carries (Leaves k) o o') (p : α → Bool) :
    Carries (Leaves k) (o.filter fun (x, _) => p x) (o'.filter fun (x, _) => p x) := by
  refine h.filter fun ⟨x, _⟩ ⟨x', _⟩ ⟨hx, _⟩ => ?_
  obtain rfl : x' = x := hx
  rfl

def Leaves₂ (k : Nat) (x x' : α × β × List Char) : Prop :=
  x'.1 = x.1 ∧ Leaves k x.2 x'.2

end

/-! ## Runs of characters -/

/-- The characters at the front that `q` accepts, and what follows them. -/
def spanSkip (f : Flags) (q : Char → Bool) : (n : Nat) → List Char → List Char × List Char
  | n + 1, c :: r =>
    if q c then
      let (cs, r) := spanSkip f q n (f.skip r)
      (c :: cs, r)
    else ([], c :: r)
  | _, r => ([], r)

section
variable {f : Flags} {q : Char → Bool} {k n n' : Nat} {r r' : List Char}

theorem spanSkip_nil (n : Nat) : spanSkip f q n [] = ([], []) := by
  cases n <;> rfl

theorem spanSkip_leaves (hq : q ')' = false) (h : Enclosed r r') (hk : r.length ≤ k)
    (hn : r.length ≤ n) (hn' : n < n') : Leaves k (spanSkip f q n r) (spanSkip f q n' r') := by
  obtain ⟨n', rfl⟩ : ∃ m, n' = m + 1 := ⟨n' - 1, by omega⟩
  induction n generalizing n' k r r' with
  | zero =>
    obtain rfl := List.length_eq_zero_iff.mp (Nat.le_zero.mp hn)
    rcases h.of_nil with rfl | rfl
    · exact ⟨rfl, hk, h⟩
    · rw [spanSkip, hq]
      exact ⟨rfl, hk, h⟩
  | succ n ih =>
    cases r with
    | nil =>
      rcases h.of_nil with rfl | rfl
      · exact ⟨rfl, hk, h⟩
      · rw [spanSkip_nil, spanSkip, hq]
        exact ⟨rfl, hk, h⟩
    | cons c r =>
      obtain ⟨s, rfl, hs⟩ := h.of_cons
      obtain ⟨n', rfl⟩ : ∃ m, n' = m + 1 := ⟨n' - 1, by omega⟩
      have hlen : (f.skip r).length ≤ n := length_skip_le f (Nat.le_of_succ_le_succ hn)
      have hlen' : (f.skip r).length ≤ k := length_skip_le f (Nat.le_of_succ_le hk)
      obtain ⟨hcs, hrest⟩ := ih (hs.skip f) hlen' hlen n' (Nat.lt_of_succ_lt_succ hn')
      rw [spanSkip, spanSkip]
      split
      · exact ⟨congrArg (c :: ·) hcs, hrest⟩
      · exact ⟨rfl, hk, h⟩

theorem spanSkip_of_stop {n : Nat} {r : List Char} (h : ∀ m c u, n = m + 1 → r = c :: u → False) :
    spanSkip f q n r = ([], r) := by
  cases n with
  | zero => rfl
  | succ n =>
    cases r with
    | nil => rfl
    | cons c r => exact (h n c r rfl rfl).elim

end

end Peg.Regex
