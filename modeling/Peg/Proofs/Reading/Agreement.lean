import Peg.Proofs.Reading.Tokens

/-!
# The reader and the direct reader

An expression that is read leaves its body on the stack. Where parts that were given up have left
more, the text ahead begins with a character that opens a part or an alternative, and then nothing
that could complete the rule goes on from there.
-/

namespace Peg.Bnf

namespace Kind

def join : Kind → Body → Body → Body
  | conj => Reductions.conjoin
  | disj => Reductions.disjoin

/-- Joining members one by one gives the list of them all. -/
theorem join_list (k : Kind) {bs : List Body} (hbs : bs ≠ []) (b : Body) :
    k.join (k.list bs) b = k.list (bs ++ [b]) := by
  match bs, hbs with
  | [a], _ => cases k <;> cases a <;> rfl
  | a :: c :: cs, _ => cases k <;> cases a <;> simp [list, members?, make, join, Reductions.conjoin,
      Reductions.disjoin]

end Kind

namespace Layout

open Direct

variable {t : List Char} {s : Reductions}

/-- A part is read onto the stack or given up; only with `first` ahead does it then leave anything. -/
def Reads (first : List Char → Prop) (h : Handle) (t : List Char) (s : Reductions) :
    Option (Body × List Char) → Prop
  | some (b, rest) => Yields grammar false h t s (.took rest) (s.push b)
  | none => ∃ js, Yields grammar false h t s .refused (atop s js) ∧ (js = [] ∨ first t)

def Opens (t : List Char) : Prop :=
  ∃ c r, t = c :: r ∧ (c = '<' ∨ c = '[' ∨ c = '\x7b')

/-- The text goes on with a part or with an alternative. -/
def Blocked (t : List Char) : Prop :=
  ∃ c r, skip t = c :: r ∧ (c = '<' ∨ c = '[' ∨ c = '\x7b' ∨ c = '|')

/-- The part is read onto the stack, and where it leaves more than it should, it is `stuck`. -/
def ReadsUnless (stuck : List Char → Prop) (h : Handle) (t : List Char) (s : Reductions) :
    Option (Body × List Char) → Prop
  | some (b, rest) => Yields grammar false h t s (.took rest) (s.push b) ∨
      stuck rest ∧ ∃ js, 2 ≤ js.length ∧ Yields grammar false h t s (.took rest) (atop s js)
  | none => ∃ js, Yields grammar false h t s .refused (atop s js)

/-- What an attempt at brackets leaves that do not open, or that do not close. -/
def LeftBy (inner : List Char → Option (Body × List Char)) (o : Char) (t : List Char)
    (s : Reductions) (js : List Body) : Prop :=
  match symbol o (skip t) with
  | none => js = []
  | some r =>
    match inner (skip r) with
    | none => Yields grammar false Layout.expression (skip r) s .refused (atop s js)
    | some _ => js ≠ []

theorem LeftBy.eq_nil_or {inner : List Char → Option (Body × List Char)} {o : Char}
    {js : List Body} (h : LeftBy inner o t s js) : js = [] ∨ ∃ r, skip t = o :: r := by
  unfold LeftBy at h
  cases hs : symbol o (skip t) with
  | none => rw [hs] at h; exact .inl h
  | some r => exact .inr ⟨r, symbol_eq_some hs⟩

theorem Blocked.of_opens (ht : Opens (skip t)) : Blocked t := by
  obtain ⟨c, r, he, hc⟩ := ht
  exact ⟨c, r, he, by rcases hc with h | h | h <;> simp [h]⟩

theorem Opens.symbol_bar (ht : Opens t) : symbol '|' t = none := by
  obtain ⟨c, r, rfl, rfl | rfl | rfl⟩ := ht <;> rfl

theorem Blocked.symbol_eq_none (ht : Blocked t) {c : Char} (hc : c = ']' ∨ c = '\x7d') :
    symbol c (skip t) = none := by
  obtain ⟨d, r, he, hd⟩ := ht
  rw [he]
  rcases hc with rfl | rfl <;> rcases hd with rfl | rfl | rfl | rfl <;> rfl

theorem Blocked.stop_eq_none (ht : Blocked t) : Direct.stop (skip t) = none := by
  obtain ⟨d, r, he, hd⟩ := ht
  rw [he]
  rcases hd with rfl | rfl | rfl | rfl <;> rfl

theorem ReadsUnless.length_le {stuck : List Char → Prop} {h : Handle} {b : Body} {rest : List Char}
    (hr : ReadsUnless stuck h t s (some (b, rest))) : rest.length ≤ t.length := by
  have hy : ∃ s', Yields grammar false h t s (.took rest) s' := by
    rcases hr with hy | ⟨-, js, -, hy⟩
    · exact ⟨_, hy⟩
    · exact ⟨_, hy⟩
  obtain ⟨s', hy⟩ := hy
  obtain ⟨u, hu⟩ := hy.suffix
  rw [hu, List.length_append]
  exact Nat.le_add_left _ _

/-! ## Parts

`inner` reads the expressions inside brackets, on texts that are shorter than `k`. -/

section
variable {inner : List Char → Option (Body × List Char)} {k : Nat}
variable (hinner : ∀ t s, t.length < k → ReadsUnless Blocked Layout.expression t s (inner t))

section
include hinner

theorem length_enclosed {o c : Char} {b : Body} {rest : List Char} (hk : t.length ≤ k)
    (h : enclosed inner o c t = some (b, rest)) :
    ∃ r, skip t = o :: r ∧ rest.length < t.length := by
  simp only [enclosed, Option.bind_eq_bind, Option.bind_eq_some_iff, Prod.exists] at h
  obtain ⟨t₁, h₁, b', t₂, h₂, t₃, h₃, he⟩ := h
  obtain ⟨-, rfl⟩ := Prod.mk.injEq .. ▸ Option.some.inj he
  have l₀ := length_lt_of_symbol h₁
  have l₁ := length_skip_le t₁
  have l₃ := length_lt_of_symbol h₃
  have l₂ : t₂.length ≤ (skip t₁).length := by
    have := hinner (skip t₁) .init (by omega)
    rw [h₂] at this
    exact this.length_le
  exact ⟨t₁, symbol_eq_some h₁, by omega⟩

/-- Brackets that do not close leave what was read between them. -/
theorem yields_enclosed {h ho hc : Handle} {o c : Char} {f : Body → Body}
    (hn : grammar.arena.node? h = some (.sequence [ws, ho, ws, expression, ws, hc]))
    (hf : ∀ b rest, firedOn false (grammar.actions.node h) t (s.push b) (.took rest) = s.push (f b))
    (hopen : ∀ t (s : Reductions), Yields grammar false ho t s (.ofRest (symbol o t)) s)
    (hclose : ∀ t (s : Reductions), Yields grammar false hc t s (.ofRest (symbol c t)) s)
    (hcc : c = ']' ∨ c = '\x7d') (hk : t.length ≤ k) :
    match enclosed inner o c t with
    | some (b, rest) => Yields grammar false h t s (.took rest) (s.push (f b))
    | none => ∃ js, Yields grammar false h t s .refused (atop s js) ∧ LeftBy inner o t s js := by
  have refused {js} (hy : YieldsAll grammar false [ws, ho, ws, expression, ws, hc] t s .refused
      (atop s js)) : Yields grammar false h t s .refused (atop s js) :=
    yields_sequence hn hy
  have ho' := hopen (skip t) s
  unfold LeftBy
  cases h₁ : symbol o (skip t) with
  | none =>
    rw [h₁] at ho'
    simp only [enclosed, h₁, Option.bind_eq_bind, Option.bind_none]
    exact ⟨[], refused (yieldsAll_cons yields_ws (yieldsAll_refused ho')), rfl⟩
  | some t₁ =>
    rw [h₁] at ho'
    have hfirst := symbol_eq_some h₁
    have hlen : (skip t₁).length < k := by
      have l₀ := length_skip_le t
      have l₁ := length_skip_le t₁
      rw [hfirst, List.length_cons] at l₀
      omega
    have before {hs v s'} (hy : YieldsAll grammar false hs (skip t₁) s v s') :
        YieldsAll grammar false (ws :: ho :: ws :: hs) t s v s' :=
      yieldsAll_cons yields_ws (yieldsAll_cons ho' (yieldsAll_cons yields_ws hy))
    have hin := hinner (skip t₁) s hlen
    cases h₂ : inner (skip t₁) with
    | none =>
      rw [h₂] at hin
      obtain ⟨js, hy⟩ := hin
      simp only [enclosed, h₁, h₂, Option.bind_eq_bind, Option.bind_some, Option.bind_none]
      exact ⟨js, refused (before (yieldsAll_refused hy)), hy⟩
    | some r =>
      obtain ⟨b, t₂⟩ := r
      rw [h₂] at hin
      simp only [enclosed, h₁, h₂, Option.bind_eq_bind, Option.bind_some]
      have after (js) (hy : Yields grammar false expression (skip t₁) s (.took t₂) (atop s js))
          {v} (hv : .ofRest (symbol c (skip t₂)) = v) :
          YieldsAll grammar false [ws, ho, ws, expression, ws, hc] t s v (atop s js) :=
        before (yieldsAll_cons hy (yieldsAll_cons yields_ws
          (yieldsAll_single (hv ▸ hclose (skip t₂) _))))
      rcases hin with hy | ⟨hb, js, hjs, hy⟩
      · cases h₃ : symbol c (skip t₂) with
        | none =>
          exact ⟨[b], refused (after [b] hy (congrArg Verdict.ofRest h₃)), List.cons_ne_nil b []⟩
        | some rest =>
          change Yields grammar false h t s (.took rest) (s.push (f b))
          rw [← hf b rest]
          exact yields_sequence hn (after [b] hy (congrArg Verdict.ofRest h₃))
      · have h₃ := hb.symbol_eq_none hcc
        rw [h₃]
        have hne : js ≠ [] := by rintro rfl; cases hjs
        exact ⟨js, refused (after js hy (congrArg Verdict.ofRest h₃)), hne⟩

theorem yields_optional (hk : t.length ≤ k) :
    match enclosed inner '[' ']' t with
    | some (b, rest) => Yields grammar false optional t s (.took rest) (s.push (.opt b))
    | none => ∃ js, Yields grammar false optional t s .refused (atop s js) ∧
        LeftBy inner '[' t s js := by
  refine yields_enclosed hinner rfl (fun _ _ => rfl)
    ?_ ?_ (.inl rfl) hk
  · exact fun _ _ => yields_symbol rfl rfl rfl
  · exact fun _ _ => yields_symbol rfl rfl rfl

theorem yields_braces (hk : t.length ≤ k) :
    match enclosed inner '\x7b' '\x7d' t with
    | some (b, rest) => Yields grammar false braces t s (.took rest) (s.push b)
    | none => ∃ js, Yields grammar false braces t s .refused (atop s js) ∧
        LeftBy inner '\x7b' t s js := by
  refine yields_enclosed hinner (f := id) rfl
    (fun _ _ => rfl) ?_ ?_ (.inr rfl) hk
  · exact fun _ _ => yields_symbol rfl rfl rfl
  · exact fun _ _ => yields_symbol rfl rfl rfl

/-- The alternatives of a part begin with different characters, so that at most one of them leaves
anything. -/
theorem reads_primary (hk : t.length ≤ k) (ht : skip t = t) :
    Reads Opens primary t s (Direct.primary inner t) := by
  have node {v s'} (h : YieldsFirst grammar false [name, quoted, bare, optional, braces] t s v s') :
      Yields grammar false primary t s v s' :=
    (yields_choice rfl h).plain rfl
  have hname := yields_name (t := t) (s := s)
  cases hn : Direct.name t with
  | some r =>
    rw [hn] at hname
    simp only [Direct.primary, hn]
    exact node (yieldsFirst_head hname (by simp))
  | none =>
  rw [hn] at hname
  obtain ⟨js, hname, hjs⟩ := hname
  have clean {c r} (he : t = c :: r) (hc : c ≠ '<') : js = [] := by
    rw [hjs, he, symbol, if_neg hc, Option.bind_none]
  have hquoted := pushes_quoted (t := t) (s := atop s js)
  cases hq : Direct.quoted t with
  | some r =>
    obtain ⟨u, rest⟩ := r
    obtain ⟨t₁, w, he, -⟩ := exists_of_quoted hq
    obtain rfl := clean he (by decide)
    rw [hq] at hquoted
    simp only [Direct.primary, hn, hq]
    exact node (yieldsFirst_cons hname (yieldsFirst_head hquoted (by simp)))
  | none =>
  rw [hq] at hquoted
  have hbare := pushes_bare (t := t) (s := atop s js)
  cases hb : Direct.bare t with
  | some r =>
    obtain ⟨u, rest⟩ := r
    obtain ⟨c, r, he, hc, -⟩ := exists_of_run hb
    obtain rfl := clean he (by rintro rfl; exact absurd hc (by decide))
    rw [hb] at hbare
    simp only [Direct.primary, hn, hq, hb]
    exact node (yieldsFirst_cons hname (yieldsFirst_cons hquoted (yieldsFirst_head hbare (by simp))))
  | none =>
  rw [hb] at hbare
  have words {v s'} (h : YieldsFirst grammar false [optional, braces] t (atop s js) v s') :
      Yields grammar false primary t s v s' :=
    node (yieldsFirst_cons hname (yieldsFirst_cons hquoted (yieldsFirst_cons hbare h)))
  have hoptional := yields_optional hinner (s := atop s js) hk
  cases ho : enclosed inner '[' ']' t with
  | some r =>
    obtain ⟨b, rest⟩ := r
    obtain ⟨r, he, -⟩ := length_enclosed hinner hk ho
    obtain rfl := clean (ht ▸ he) (by decide)
    rw [ho] at hoptional
    simp only [Direct.primary, hn, hq, hb, ho]
    exact words (yieldsFirst_head hoptional (by simp))
  | none =>
  rw [ho] at hoptional
  obtain ⟨ks, hoptional, hks⟩ := hoptional
  have hbraces := yields_braces hinner (s := atop (atop s js) ks) hk
  simp only [Direct.primary, hn, hq, hb, ho]
  cases hc : enclosed inner '\x7b' '\x7d' t with
  | some r =>
    obtain ⟨b, rest⟩ := r
    obtain ⟨r, he, -⟩ := length_enclosed hinner hk hc
    obtain rfl := clean (ht ▸ he) (by decide)
    obtain rfl : ks = [] := by
      refine hks.eq_nil_or.resolve_right ?_
      rintro ⟨r', hr'⟩
      cases he.symm.trans hr'
    rw [hc] at hbraces
    exact words (yieldsFirst_cons hoptional (yieldsFirst_head hbraces (by simp)))
  | none =>
    rw [hc] at hbraces
    obtain ⟨ls, hbraces, hls⟩ := hbraces
    refine ⟨ls ++ (ks ++ js), ?_, ?_⟩
    · rw [← atop_atop, ← atop_atop]
      exact words (yieldsFirst_cons hoptional (yieldsFirst_cons hbraces yieldsFirst_nil))
    · have hleft := hks.eq_nil_or
      have hleft' := hls.eq_nil_or
      rw [ht] at hleft hleft'
      cases hs : symbol '<' t with
      | some r => exact .inr ⟨_, r, symbol_eq_some hs, .inl rfl⟩
      | none =>
        rw [hs, Option.bind_none] at hjs
        rcases hleft with rfl | ⟨r, hr⟩
        · rcases hleft' with rfl | ⟨r, hr⟩
          · exact .inl (hjs.mpr rfl)
          · exact .inr ⟨_, r, hr, .inr (.inr rfl)⟩
        · exact .inr ⟨_, r, hr, .inr (.inl rfl)⟩

theorem length_primary {b : Body} {rest : List Char} (hk : t.length ≤ k)
    (h : Direct.primary inner t = some (b, rest)) : rest.length < t.length := by
  unfold Direct.primary at h
  split at h
  · rename_i n r hn
    obtain ⟨-, rfl⟩ := Prod.mk.injEq .. ▸ Option.some.inj h
    obtain ⟨t₁, rfl, hr⟩ := exists_of_name hn
    obtain ⟨-, -, -, -, hlen⟩ := exists_of_run hr
    simp only [List.length_cons] at hlen ⊢
    omega
  · rename_i u r hq
    obtain ⟨-, rfl⟩ := Prod.mk.injEq .. ▸ Option.some.inj h
    obtain ⟨t₁, w, rfl, hw, -⟩ := exists_of_quoted hq
    exact Nat.lt_succ_of_lt (length_quotedText hw)
  · rename_i u r hb
    obtain ⟨-, rfl⟩ := Prod.mk.injEq .. ▸ Option.some.inj h
    obtain ⟨-, -, -, -, hlen⟩ := exists_of_run hb
    exact hlen
  · split at h
    · rename_i b' r ho
      obtain ⟨-, rfl⟩ := Prod.mk.injEq .. ▸ Option.some.inj h
      obtain ⟨-, -, hlen⟩ := length_enclosed hinner hk ho
      exact hlen
    · obtain ⟨-, -, hlen⟩ := length_enclosed hinner hk h
      exact hlen

end

/-! ## Sequences and alternatives -/

theorem yields_mayRepeat (b : Body) :
    Yields grammar false mayRepeat t (s.push b) (.took ((Direct.ellipsis t).getD t))
      (s.push (if (Direct.ellipsis t).isSome then .plus b else b)) := by
  refine (yields_choice rfl ?_).plain rfl
  unfold Direct.ellipsis
  split
  · rename_i t
    exact yieldsFirst_head (yields_literal "..." rfl t) nofun
  · rename_i hne
    have hnone : Yields grammar false noEllipsis t (s.push b) (.took t) (s.push b) :=
      (yields_sequence rfl yieldsAll_nil).plain rfl
    refine yieldsFirst_cons (yields_literal_refused rfl ?_) (yieldsFirst_head hnone nofun)
    rintro ⟨r, rfl⟩
    exact hne r rfl

theorem length_ellipsis_le : ((Direct.ellipsis t).getD t).length ≤ t.length := by
  unfold Direct.ellipsis
  split
  · simp only [Option.getD_some, List.length_cons]
    omega
  · exact Nat.le_refl _

theorem postfixed_eq : Direct.postfixed inner t = (Direct.primary inner t).map fun r =>
    (if (Direct.ellipsis r.2).isSome then .plus r.1 else r.1, (Direct.ellipsis r.2).getD r.2) := by
  unfold Direct.postfixed
  cases Direct.primary inner t with
  | none => rfl
  | some r => cases he : Direct.ellipsis r.2 <;> simp [he]

include hinner

theorem reads_postfixed (hk : t.length ≤ k) (ht : skip t = t) :
    Reads Opens postfixed t s (Direct.postfixed inner t) := by
  have hp := reads_primary hinner (s := s) hk ht
  rw [postfixed_eq]
  cases hb : Direct.primary inner t with
  | none =>
    rw [hb] at hp
    obtain ⟨js, hy, hjs⟩ := hp
    exact ⟨js, (yields_sequence rfl (yieldsAll_refused hy)).plain rfl, hjs⟩
  | some r =>
    rw [hb] at hp
    exact (yields_sequence rfl (yieldsAll_cons hp (yieldsAll_single (yields_mayRepeat _)))).plain rfl

theorem length_postfixed {b : Body} {rest : List Char} (hk : t.length ≤ k)
    (h : Direct.postfixed inner t = some (b, rest)) : rest.length < t.length := by
  rw [postfixed_eq, Option.map_eq_some_iff] at h
  obtain ⟨r, hr, he⟩ := h
  obtain ⟨-, rfl⟩ := Prod.mk.injEq .. ▸ he
  exact Nat.lt_of_le_of_lt length_ellipsis_le (length_primary hinner hk hr)

omit hinner in
/-- Further members are read and joined to those before, unless the part is `stuck`. -/
def ReadsMore (stuck : List Char → Prop) (kind : Kind) (item : Handle) (bs : List Body)
    (t : List Char) (s : Reductions) (r : List Body × List Char) : Prop :=
  YieldsMany grammar false item true t (s.push (kind.list bs)) (.took r.2)
      (s.push (kind.list (bs ++ r.1))) ∨
    stuck r.2 ∧ ∃ js, 2 ≤ js.length ∧
      YieldsMany grammar false item true t (s.push (kind.list bs)) (.took r.2) (atop s js)

omit hinner in
/-- The attempt that ends a repetition. -/
theorem readsMore_stop {stuck : List Char → Prop} {kind : Kind} {item : Handle} {bs js : List Body}
    (hy : Yields grammar false item t (s.push (kind.list bs)) .refused
      (atop (s.push (kind.list bs)) js)) (hjs : js = [] ∨ stuck t) :
    ReadsMore stuck kind item bs t s ([], t) := by
  cases js with
  | nil =>
    have hstop : YieldsMany grammar false item true t (s.push (kind.list bs)) _ _ :=
      yieldsMany_stop hy
    exact .inl (by simpa using hstop)
  | cons j js =>
    rw [push_eq_atop, atop_atop] at hy
    exact .inr ⟨hjs.resolve_left nofun, j :: js ++ [kind.list bs], by simp, yieldsMany_stop hy⟩

omit hinner in
theorem ReadsMore.step {stuck : List Char → Prop} {kind : Kind} {item : Handle} {bs : List Body}
    {b : Body} {t' : List Char} {r : List Body × List Char} (hne : t' ≠ t)
    (hy : Yields grammar false item t (s.push (kind.list bs)) (.took t')
      (s.push (kind.list (bs ++ [b])))) (hr : ReadsMore stuck kind item (bs ++ [b]) t' s r) :
    ReadsMore stuck kind item bs t s (b :: r.1, r.2) := by
  have he : bs ++ b :: r.1 = bs ++ [b] ++ r.1 := by simp
  rcases hr with hm | ⟨hb, js, hjs, hm⟩
  · exact .inl (he ▸ yieldsMany_step hy hne hm)
  · exact .inr ⟨hb, js, hjs, yieldsMany_step hy hne hm⟩

theorem readsMore_members_stop {bs : List Body} (hk : t.length ≤ k)
    (hp : Direct.postfixed inner (skip t) = none) :
    ReadsMore (fun r => Opens (skip r)) .conj repeating bs t s ([], t) := by
  have hskip := length_skip_le t
  have hy := reads_postfixed hinner (s := s.push (Kind.conj.list bs)) (by omega) (skip_skip t)
  rw [hp] at hy
  obtain ⟨js, hy, hjs⟩ := hy
  exact readsMore_stop (yields_sequence rfl (yieldsAll_cons yields_ws (yieldsAll_single hy))) hjs

theorem reads_members {n : Nat} {bs : List Body} (hbs : bs ≠ []) (hk : t.length ≤ k)
    (hn : t.length ≤ n) :
    ReadsMore (fun r => Opens (skip r)) .conj repeating bs t s (Direct.members inner n t) := by
  induction n generalizing t bs with
  | zero =>
    refine readsMore_members_stop hinner hk ?_
    cases hp : Direct.postfixed inner (skip t) with
    | none => rfl
    | some r =>
      have hskip := length_skip_le t
      have := length_postfixed hinner (t := skip t) (by omega) hp
      omega
  | succ n ih =>
    unfold Direct.members
    cases hp : Direct.postfixed inner (skip t) with
    | none => exact readsMore_members_stop hinner hk hp
    | some r =>
      obtain ⟨b, t'⟩ := r
      have hskip := length_skip_le t
      have hlen := length_postfixed hinner (t := skip t) (by omega) hp
      have hy := reads_postfixed hinner (s := s.push (Kind.conj.list bs)) (by omega) (skip_skip t)
      rw [hp] at hy
      have hj := yields_sequence (h := repeating) rfl
        (yieldsAll_cons yields_ws (yieldsAll_single hy))
      have hfired : firedOn false (grammar.actions.node repeating) t
          ((s.push (Kind.conj.list bs)).push b) (.took t') = s.push (Kind.conj.list (bs ++ [b])) :=
        congrArg s.push (Kind.join_list .conj hbs b)
      rw [hfired] at hj
      exact .step (by rintro rfl; omega) hj (ih (by simp) (by omega) (by omega))

theorem reads_sequence (hk : t.length ≤ k) :
    ReadsUnless (fun r => Opens (skip r)) Layout.sequence t s (Direct.sequence inner t) := by
  have node {v s'} (h : YieldsAll grammar false [ws, postfixed, ws, members] t s v s') :
      Yields grammar false Layout.sequence t s v s' :=
    (yields_sequence rfl h).plain rfl
  have hskip := length_skip_le t
  have hy := reads_postfixed hinner (s := s) (by omega) (skip_skip t)
  unfold Direct.sequence
  cases hp : Direct.postfixed inner (skip t) with
  | none =>
    rw [hp] at hy
    obtain ⟨js, hy, -⟩ := hy
    exact ⟨js, node (yieldsAll_cons yields_ws (yieldsAll_refused hy))⟩
  | some r =>
    obtain ⟨b, t₁⟩ := r
    rw [hp] at hy
    have hlen := length_postfixed hinner (t := skip t) (by omega) hp
    have hskip₁ := length_skip_le t₁
    have rest {v s'} (h : YieldsMany grammar false repeating true (skip t₁) (s.push b) v s') :
        Yields grammar false Layout.sequence t s v s' :=
      node (yieldsAll_cons yields_ws (yieldsAll_cons hy (yieldsAll_cons yields_ws
        (yieldsAll_single ((yields_zeroOrMore rfl h).plain rfl)))))
    rcases reads_members hinner (s := s) (List.cons_ne_nil b []) (by omega) hskip₁ with
      hm | ⟨hb, js, hjs, hm⟩
    · exact .inl (rest hm)
    · exact .inr ⟨hb, js, hjs, rest hm⟩

/-- Without a bar, or with a bar and no sequence behind it, there is no further alternative. -/
theorem readsMore_alternatives_stop {bs : List Body} (hk : t.length ≤ k)
    (hp : ((symbol '|' (skip t)).bind fun t => Direct.sequence inner (skip t)) = none) :
    ReadsMore Blocked .disj alternative bs t s ([], t) := by
  have node {v s₁ s'} (h : YieldsAll grammar false [ws, bar, ws, Layout.sequence] t s₁ v s')
      (hv : v = .refused) : Yields grammar false alternative t s₁ v s' := by
    subst hv
    exact yields_sequence rfl h
  have hbar : Yields grammar false bar (skip t) (s.push (Kind.disj.list bs))
      (.ofRest (symbol '|' (skip t))) (s.push (Kind.disj.list bs)) := yields_symbol rfl rfl rfl
  have hskip := length_skip_le t
  cases hs : symbol '|' (skip t) with
  | none =>
    rw [hs] at hbar
    have hstop := node (yieldsAll_cons yields_ws (yieldsAll_refused hbar)) rfl
    rw [← atop_nil (s.push (Kind.disj.list bs))] at hstop
    exact readsMore_stop hstop (.inl rfl)
  | some t₁ =>
    rw [hs] at hbar hp
    have he := symbol_eq_some hs
    have hlen := congrArg List.length he
    have hskip₁ := length_skip_le t₁
    rw [List.length_cons] at hlen
    have hy := reads_sequence hinner (t := skip t₁) (s := s.push (Kind.disj.list bs)) (by omega)
    rw [show Direct.sequence inner (skip t₁) = none from hp] at hy
    obtain ⟨js, hy⟩ := hy
    exact readsMore_stop (node (yieldsAll_cons yields_ws (yieldsAll_cons hbar
      (yieldsAll_cons yields_ws (yieldsAll_single hy)))) rfl) (.inr ⟨'|', t₁, he, by simp⟩)

omit hinner in
/-- Where a part opens, there is no further alternative. -/
theorem alternatives_of_opens (n : Nat) (ht : Opens (skip t)) :
    Direct.alternatives inner n t = ([], t) := by
  cases n with
  | zero => rfl
  | succ n => simp [Direct.alternatives, ht.symbol_bar]

omit hinner in
theorem yieldsMany_of_opens (ht : Opens (skip t)) :
    YieldsMany grammar false alternative true t s (.took t) s := by
  have hbar : Yields grammar false bar (skip t) s (.ofRest (symbol '|' (skip t))) s :=
    yields_symbol rfl rfl rfl
  rw [ht.symbol_bar] at hbar
  exact yieldsMany_stop (yields_sequence (h := alternative) rfl
    (yieldsAll_cons yields_ws (yieldsAll_refused hbar)))

theorem reads_alternatives {n : Nat} {bs : List Body} (hbs : bs ≠ []) (hk : t.length ≤ k)
    (hn : t.length ≤ n) :
    ReadsMore Blocked .disj alternative bs t s (Direct.alternatives inner n t) := by
  induction n generalizing t bs with
  | zero =>
    obtain rfl := List.eq_nil_of_length_eq_zero (Nat.le_zero.mp hn)
    exact readsMore_alternatives_stop hinner hk rfl
  | succ n ih =>
    unfold Direct.alternatives
    cases hp : (symbol '|' (skip t)).bind fun t => Direct.sequence inner (skip t) with
    | none => exact readsMore_alternatives_stop hinner hk hp
    | some r =>
      obtain ⟨b, t'⟩ := r
      obtain ⟨t₁, hs, hp⟩ := Option.bind_eq_some_iff.mp hp
      have hbar : Yields grammar false bar (skip t) (s.push (Kind.disj.list bs)) (.took t₁)
          (s.push (Kind.disj.list bs)) := by
        have := yields_symbol (q := false) (h := bar) (t := skip t)
          (s := s.push (Kind.disj.list bs)) (c := '|') rfl rfl rfl
        rwa [hs] at this
      have hlen := length_lt_of_symbol hs
      have hskip₁ := length_skip_le t₁
      have hy := reads_sequence hinner (t := skip t₁) (s := s.push (Kind.disj.list bs)) (by omega)
      rw [hp] at hy
      have hlen' := hy.length_le
      have hne : t' ≠ t := by rintro rfl; omega
      have node {s'} (h : Yields grammar false Layout.sequence (skip t₁)
          (s.push (Kind.disj.list bs)) (.took t') s') :
          Yields grammar false alternative t (s.push (Kind.disj.list bs)) (.took t')
            (s'.join Reductions.disjoin) :=
        yields_sequence (h := alternative) rfl
          (yieldsAll_cons yields_ws (yieldsAll_cons hbar (yieldsAll_cons yields_ws
            (yieldsAll_single h))))
      rcases hy with hy | ⟨hb, js, hjs, hy⟩
      · have hj := node hy
        have hfired : ((s.push (Kind.disj.list bs)).push b).join Reductions.disjoin =
            s.push (Kind.disj.list (bs ++ [b])) :=
          congrArg s.push (Kind.join_list .disj hbs b)
        rw [hfired] at hj
        exact .step hne hj (ih (by simp) (by omega) (by omega))
      · -- the joined parts are not those that were read; what opens here ends the list
        change ReadsMore Blocked .disj alternative bs t s
          (b :: (Direct.alternatives inner n t').1, (Direct.alternatives inner n t').2)
        rw [alternatives_of_opens n hb]
        match js, hjs with
        | j₁ :: j₂ :: js, _ =>
          rw [push_eq_atop, atop_atop] at hy
          exact .inr ⟨.of_opens hb, Reductions.disjoin j₂ j₁ :: (js ++ [Kind.disj.list bs]),
            by simp, yieldsMany_step (node hy) hne (yieldsMany_of_opens hb)⟩

theorem reads_choice (hk : t.length ≤ k) :
    ReadsUnless Blocked Layout.expression t s (Direct.choice inner t) := by
  have node {v s'} (h : YieldsAll grammar false [ws, Layout.sequence, ws, alternatives] t s v s') :
      Yields grammar false Layout.expression t s v s' :=
    (yields_sequence rfl h).plain rfl
  have hskip := length_skip_le t
  have hy := reads_sequence hinner (t := skip t) (s := s) (by omega)
  unfold Direct.choice
  cases hp : Direct.sequence inner (skip t) with
  | none =>
    rw [hp] at hy
    obtain ⟨js, hy⟩ := hy
    exact ⟨js, node (yieldsAll_cons yields_ws (yieldsAll_refused hy))⟩
  | some r =>
    obtain ⟨b, t₁⟩ := r
    rw [hp] at hy
    have hlen := hy.length_le
    have hskip₁ := length_skip_le t₁
    have rest {s₁ v s'} (hy : Yields grammar false Layout.sequence (skip t) s (.took t₁) s₁)
        (h : YieldsMany grammar false alternative true (skip t₁) s₁ v s') :
        Yields grammar false Layout.expression t s v s' :=
      node (yieldsAll_cons yields_ws (yieldsAll_cons hy (yieldsAll_cons yields_ws
        (yieldsAll_single ((yields_zeroOrMore rfl h).plain rfl)))))
    rcases hy with hy | ⟨hb, js, hjs, hy⟩
    · rcases reads_alternatives hinner (s := s) (List.cons_ne_nil b []) (by omega) hskip₁ with
        hm | ⟨hb, js, hjs, hm⟩
      · exact .inl (rest hy hm)
      · exact .inr ⟨hb, js, hjs, rest hy hm⟩
    · have hb' : Opens (skip (skip t₁)) := (skip_skip t₁).symm ▸ hb
      simp only [Option.bind_eq_bind, Option.bind_some, alternatives_of_opens _ hb']
      exact .inr ⟨.of_opens hb', js, hjs, rest hy (yieldsMany_of_opens hb')⟩

end

/-! ## Expressions -/

theorem reads_expressionAt {n : Nat} (hn : t.length < n) :
    ReadsUnless Blocked Layout.expression t s (expressionAt n t) := by
  induction n generalizing t s with
  | zero => exact absurd hn (Nat.not_lt_zero _)
  | succ n ih => exact reads_choice (fun _ _ => ih) (Nat.le_of_lt_succ hn)

theorem reads_expression :
    ReadsUnless Blocked Layout.expression t s (Direct.expression t) :=
  reads_expressionAt (Nat.lt_succ_self _)

/-! ## Rules -/

/-- The side of a rule is read, or the rule is lost: nothing can follow, or more is left on the
stack than the definition takes. -/
def ReadsSide (t : List Char) (s : Reductions) : Option (Side × Body × List Char) → Prop
  | some (k, b, rest) => Yields grammar false Layout.side t s (.took rest) (s.push b) ∨
      ∃ js, 2 ≤ js.length ∧ Yields grammar false Layout.side t s (.took rest) (atop s js) ∧
        (Direct.stop (skip rest) = none ∨ k = .graphic)
  | none => ∃ js, Yields grammar false Layout.side t s .refused (atop s js)

theorem reads_side : ReadsSide t s (Direct.side t) := by
  have node {v s'} (h : YieldsFirst grammar false [Layout.expression, graphic] t s v s') :
      Yields grammar false Layout.side t s v s' :=
    (yields_choice rfl h).plain rfl
  have hy := reads_expression (t := t) (s := s)
  unfold Direct.side
  cases he : Direct.expression t with
  | some r =>
    rw [he] at hy
    rcases hy with hy | ⟨hb, js, hjs, hy⟩
    · exact .inl (node (yieldsFirst_head hy nofun))
    · exact .inr ⟨js, hjs, node (yieldsFirst_head hy nofun), .inl hb.stop_eq_none⟩
  | none =>
    rw [he] at hy
    obtain ⟨js, hy⟩ := hy
    have hg := pushes_graphic (t := t) (s := atop s js)
    cases hr : Direct.graphic t with
    | none =>
      rw [hr] at hg
      exact ⟨js, node (yieldsFirst_cons hy (yieldsFirst_cons hg yieldsFirst_nil))⟩
    | some r =>
      rw [hr] at hg
      have hboth := node (yieldsFirst_cons hy (yieldsFirst_head hg nofun))
      cases js with
      | nil => exact .inl hboth
      | cons j js => exact .inr ⟨.lit r.1 :: j :: js, by simp, hboth, .inr rfl⟩

/-- Bodies that the definition does not take keep the rule from being read. -/
theorem result?_define_atop {js : List Body} (hjs : 2 ≤ js.length) (b : Body) (m : Mode) :
    (atop ⟨[.body b], m, none⟩ js).define.fault = none →
      (atop ⟨[.body b], m, none⟩ js).define.result? = none := by
  match js, hjs with
  | j₁ :: j₂ :: js, _ =>
    cases j₂ with
    | name n => cases js <;> exact fun _ => rfl
    | _ => exact nofun

def ReadsRule (t : List Char) : Option Reading → Prop
  | some r => Yields grammar false declaration t .init (.took r.rest)
        ⟨[.definition r.name r.definition], r.definition.mode, none⟩ ∨
      r.side = .graphic ∧ ∃ st, Yields grammar false declaration t .init (.took r.rest) st ∧
        (st.fault = none → st.result? = none)
  | none => ∃ st, Yields grammar false declaration t .init .refused st

/-- The name and the sign of a rule are read before its side. -/
theorem yieldsAll_heading {n : String} {m : Mode} {t₁ t₂ : List Char} {hs : List Handle}
    {v : Verdict} {s' : Reductions} (hn : Direct.name (skip t) = some (n, t₁))
    (ha : Direct.assigns (skip t₁) = some (m, t₂))
    (h : YieldsAll grammar false hs (skip t₂) ⟨[.body (.name n)], m, none⟩ v s') :
    YieldsAll grammar false (ws :: name :: ws :: assigns :: ws :: hs) t .init v s' := by
  have hname := yields_name (t := skip t) (s := .init)
  have hassigns := yields_assigns (t := skip t₁) (s := Reductions.init.push (.name n))
  rw [hn] at hname
  rw [ha] at hassigns
  exact yieldsAll_cons yields_ws (yieldsAll_cons hname (yieldsAll_cons yields_ws
    (yieldsAll_cons hassigns (yieldsAll_cons yields_ws h))))

/-- A rule that is read leaves its definition, made of what is then on the stack. One that is not
read leaves bodies only. -/
theorem yields_declaration :
    match Direct.rule t with
    | some r => ∃ js, Yields grammar false declaration t .init (.took r.rest)
          (atop ⟨[.body (.name r.name)], r.definition.mode, none⟩ js).define ∧
        (js = [r.definition.body] ∨ 2 ≤ js.length ∧ r.side = .graphic)
    | none => ∃ js m, Yields grammar false declaration t .init .refused (atop ⟨[], m, none⟩ js) := by
  have refused {js m} (h : YieldsAll grammar false
      [ws, name, ws, assigns, ws, Layout.side, ws, stop] t .init .refused (atop ⟨[], m, none⟩ js)) :
      ∃ js m, Yields grammar false declaration t .init .refused (atop ⟨[], m, none⟩ js) :=
    ⟨js, m, yields_sequence rfl h⟩
  unfold Direct.rule
  cases hn : Direct.name (skip t) with
  | none =>
    have hname := yields_name (t := skip t) (s := .init)
    rw [hn] at hname
    obtain ⟨js, hy, -⟩ := hname
    exact refused (yieldsAll_cons yields_ws (yieldsAll_refused hy))
  | some r =>
  obtain ⟨n, t₁⟩ := r
  cases ha : Direct.assigns (skip t₁) with
  | none =>
    have hname := yields_name (t := skip t) (s := .init)
    have hassigns := yields_assigns (t := skip t₁) (s := Reductions.init.push (.name n))
    rw [hn] at hname
    rw [ha] at hassigns
    simp only [Option.bind_eq_bind, Option.bind_some, ha]
    exact ⟨[.name n], .loose, yields_sequence rfl (yieldsAll_cons yields_ws (yieldsAll_cons hname
      (yieldsAll_cons yields_ws (yieldsAll_refused hassigns))))⟩
  | some r =>
  obtain ⟨m, t₂⟩ := r
  have heading {hs v s'} (h : YieldsAll grammar false hs (skip t₂) ⟨[.body (.name n)], m, none⟩
      v s') : YieldsAll grammar false (ws :: name :: ws :: assigns :: ws :: hs) t .init v s' :=
    yieldsAll_heading hn ha h
  have bottom (js : List Body) : atop ⟨[.body (.name n)], m, none⟩ js =
      atop ⟨[], m, none⟩ (js ++ [.name n]) :=
    atop_atop ⟨[], m, none⟩ [.name n] js
  have hside := reads_side (t := skip t₂) (s := ⟨[.body (.name n)], m, none⟩)
  cases hs : Direct.side (skip t₂) with
  | none =>
    rw [hs] at hside
    obtain ⟨js, hy⟩ := hside
    simp only [Option.bind_eq_bind, Option.bind_some, ha, hs]
    rw [bottom] at hy
    exact refused (heading (yieldsAll_refused hy))
  | some r =>
  obtain ⟨k, b, t₃⟩ := r
  rw [hs] at hside
  simp only [Option.bind_eq_bind, Option.bind_some, ha, hs]
  have hside : ∃ js, Yields grammar false Layout.side (skip t₂) ⟨[.body (.name n)], m, none⟩
      (.took t₃) (atop ⟨[.body (.name n)], m, none⟩ js) ∧
        (js = [b] ∨ 2 ≤ js.length ∧ (Direct.stop (skip t₃) = none ∨ k = .graphic)) := by
    rcases hside with hy | ⟨js, hjs, hy, hlost⟩
    · exact ⟨[b], hy, .inl rfl⟩
    · exact ⟨js, hy, .inr ⟨hjs, hlost⟩⟩
  obtain ⟨js, hy, hjs⟩ := hside
  have sided {v s'} (h : Yields grammar false stop (skip t₃)
      (atop ⟨[.body (.name n)], m, none⟩ js) v s') :
      YieldsAll grammar false [ws, name, ws, assigns, ws, Layout.side, ws, stop] t .init v s' :=
    heading (yieldsAll_cons hy (yieldsAll_cons yields_ws (yieldsAll_single h)))
  have hstop := yields_stop (q := false) (t := skip t₃)
    (s := atop ⟨[.body (.name n)], m, none⟩ js)
  cases hst : Direct.stop (skip t₃) with
  | none =>
    rw [hst] at hstop
    have hy := sided hstop
    rw [bottom] at hy
    exact refused hy
  | some rest =>
    rw [hst] at hstop hjs
    refine ⟨js, yields_sequence (h := declaration) rfl (sided hstop), ?_⟩
    exact hjs.imp_right fun ⟨hlen, hk⟩ => ⟨hlen, hk.resolve_left nofun⟩

theorem reads_rule : ReadsRule t (Direct.rule t) := by
  have h := yields_declaration (t := t)
  cases hr : Direct.rule t with
  | none =>
    rw [hr] at h
    obtain ⟨js, m, hy⟩ := h
    exact ⟨_, hy⟩
  | some r =>
    rw [hr] at h
    obtain ⟨js, hy, rfl | ⟨hjs, hg⟩⟩ := h
    · exact .inl hy
    · exact .inr ⟨hg, _, hy, result?_define_atop hjs (.name r.name) r.definition.mode⟩

end Layout

/-! ## Texts of rules -/

/-- What a reader answers when its notation yields this verdict and these reductions. -/
def Reductions.answer (st : Reductions) (text : String) (v : Verdict) :
    Except ReadError (String × Definition) :=
  let unreadable := .error (.unreadable 1 (String.ofList (trim text.toList)))
  match v, st.fault, st.result? with
  | .fault e, _, _ => .error (.parse e)
  | _, some fault, _ => .error (.reduction fault)
  | .took rest, none, some result => if rest.all isWhiteSpace then .ok result else unreadable
  | _, none, _ => unreadable

/-- A rule is read when all of it was taken and the definition is all that it leaves. -/
theorem Reductions.answer_eq_ok_iff {st : Reductions} {text : String} {v : Verdict} {n : String}
    {d : Definition} : st.answer text v = .ok (n, d) ↔
      ∃ rest, v = .took rest ∧ st.fault = none ∧ st.result? = some (n, d) ∧
        rest.all isWhiteSpace := by
  unfold answer
  cases v with
  | fault e => simp
  | refused => cases st.fault <;> simp
  | took rest =>
    cases st.fault with
    | some fault => simp
    | none =>
      cases st.result? with
      | none => simp
      | some result => by_cases hrest : rest.all isWhiteSpace <;> simp [hrest, -List.all_eq_true]

theorem Reader.read_of_yields {r : Reader} {text : String} {v : Verdict} {st : Reductions}
    (hy : Yields r.grammar false r.phrases.declaration text.toList .init v st) :
    r.read text = st.answer text v := by
  obtain ⟨o, hp, ho⟩ := parse_iff_yields.mp hy
  unfold Reader.read Reductions.answer
  rw [hp]
  cases o with
  | exhausted => cases ho
  | fault e =>
    cases ho
    rfl
  | failed c =>
    cases ho
    dsimp only
    cases st.fault <;> rfl
  | matched c =>
    cases ho
    dsimp only
    cases st.fault <;> cases st.result? <;> rfl

section
variable {text : String} {v : Verdict} {st : Reductions}
variable (hy : Yields Layout.grammar false Layout.declaration text.toList .init v st)
include hy

theorem readRule_of_yields : readRule text = st.answer text v := by
  unfold readRule
  simp only [Layout.reader_eq]
  exact Reader.read_of_yields (r := ⟨Layout.grammar, Layout.phrases⟩) hy

theorem readRule_eq_ok_iff {n : String} {d : Definition} : readRule text = .ok (n, d) ↔
    ∃ rest, v = .took rest ∧ st.fault = none ∧ st.result? = some (n, d) ∧
      rest.all isWhiteSpace := by
  rw [readRule_of_yields hy]
  exact Reductions.answer_eq_ok_iff

end

theorem readRule_of_rule {text : String} {r : Direct.Reading}
    (hr : Direct.rule text.toList = some r) (hs : r.side = .expression)
    (hrest : r.rest.all isWhiteSpace) : readRule text = .ok (r.name, r.definition) := by
  have h := Layout.reads_rule (t := text.toList)
  rw [hr] at h
  have hy := h.resolve_right (by rintro ⟨hg, -⟩; rw [hs] at hg; cases hg)
  exact (readRule_eq_ok_iff hy).mpr ⟨_, rfl, rfl, rfl, hrest⟩

theorem exists_rule_of_readRule {text : String} {n : String} {d : Definition}
    (h : readRule text = .ok (n, d)) :
    ∃ r, Direct.rule text.toList = some r ∧ r.rest.all isWhiteSpace ∧ r.name = n ∧
      r.definition = d := by
  have hread := Layout.reads_rule (t := text.toList)
  cases hr : Direct.rule text.toList with
  | none =>
    rw [hr] at hread
    obtain ⟨st, hy⟩ := hread
    obtain ⟨rest, hv, -⟩ := (readRule_eq_ok_iff hy).mp h
    cases hv
  | some r =>
    rw [hr] at hread
    refine ⟨r, rfl, ?_⟩
    rcases hread with hy | ⟨-, st, hy, hlost⟩
    · obtain ⟨rest, hv, -, hres, hrest⟩ := (readRule_eq_ok_iff hy).mp h
      cases hv
      obtain ⟨rfl, rfl⟩ := Prod.mk.injEq .. ▸ Option.some.inj hres
      exact ⟨hrest, rfl, rfl⟩
    · obtain ⟨rest, hv, hf, hres, -⟩ := (readRule_eq_ok_iff hy).mp h
      rw [hlost hf] at hres
      cases hres

/-- What is read is what the direct reader reads, and whatever it reads as an expression is read. -/
theorem readRule_agrees (text : String) :
    (∀ n d, readRule text = .ok (n, d) →
      ∃ r, Direct.rule text.toList = some r ∧ r.rest.all isWhiteSpace ∧ r.name = n ∧
        r.definition = d) ∧
    ∀ r, Direct.rule text.toList = some r → r.side = .expression → r.rest.all isWhiteSpace →
      readRule text = .ok (r.name, r.definition) :=
  ⟨fun _ _ => exists_rule_of_readRule, fun _ => readRule_of_rule⟩

theorem readRule_agrees_on_rule :
    readRule "<a> ::= <b> [ c | \"d\\n\" ]... | e" =
      .ok ("a", ⟨.disj [.conj [.name "b", .plus (.opt (.disj [.lit "c", .lit "d\n"]))], .lit "e"],
        .loose⟩) :=
  (readRule_agrees "<a> ::= <b> [ c | \"d\\n\" ]... | e").2
    ⟨"a", ⟨.disj [.conj [.name "b", .plus (.opt (.disj [.lit "c", .lit "d\n"]))], .lit "e"], .loose⟩,
      .expression, []⟩ (by decide +kernel) rfl rfl

end Peg.Bnf
