import Peg.Proofs.Reading.Agreement
import Peg.Proofs.Reading.NormalForm

/-!
# Printed rules are read back

A body is read off the front of a text that begins with what it prints, whatever stands behind it,
as long as that ends the list that the body stands in. A list is left at the same place up to white
space.
-/

namespace Peg.Bnf

namespace Direct

/-! ## Words -/

theorem run_append {p : Char → Bool} {u r : List Char} (hne : u ≠ []) (hu : ∀ c ∈ u, p c)
    (hr : ∀ c v, r = c :: v → ¬p c) : run p (u ++ r) = some (String.ofList u, r) := by
  have htake : r.takeWhile p = [] := by
    cases r with
    | nil => rfl
    | cons c v => exact List.takeWhile_cons_of_neg (hr c v rfl)
  have hdrop : r.dropWhile p = r := by
    cases r with
    | nil => rfl
    | cons c v => exact List.dropWhile_cons_of_neg (hr c v rfl)
  rw [run, List.takeWhile_append_of_pos hu, List.dropWhile_append_of_pos hu, htake, hdrop,
    List.append_nil, if_neg (by simpa using hne)]

theorem name_append {n : String} (hn : isName n) (r : List Char) :
    name ('<' :: n.toList ++ ['>'] ++ r) = some (n, r) := by
  obtain ⟨hne, hall⟩ := Bool.and_eq_true_iff.mp hn
  have hrun : run isNameChar (n.toList ++ '>' :: r) = some (n, '>' :: r) := by
    rw [run_append (by simpa using hne) (List.all_eq_true.mp hall), String.ofList_toList]
    rintro c v hc
    obtain ⟨rfl, -⟩ := List.cons.inj hc
    decide
  have he : '<' :: n.toList ++ ['>'] ++ r = '<' :: (n.toList ++ '>' :: r) := by simp
  simp only [name, he, symbol_self, Option.bind_eq_bind, Option.bind_some, hrun]
  rfl

theorem quotedText_escape (u r : List Char) : quotedText (escape u ++ '"' :: r) = some (u, r) := by
  induction u with
  | nil => rfl
  | cons c u ih =>
    unfold escape
    cases he : escapeOf? c with
    | some e => simp [quotedText, escaped?_escapeOf? he, ih]
    | none =>
      have hb : c ≠ '\\' := ne_backslash_of_escapeOf? he
      have hq : c ≠ '"' := by rintro rfl; cases he
      simp only [List.cons_append]
      rw [quotedText, ih]
      · rfl
      · exact hq
      · exact fun _ _ h => absurd h hb
      · exact fun h => absurd h hb

theorem quoted_append (u r : List Char) : quoted (quote u ++ r) = some (String.ofList u, r) := by
  have he : quote u ++ r = '"' :: (escape u ++ '"' :: r) := by simp [quote]
  simp only [quoted, he, symbol_self, Option.bind_eq_bind, Option.bind_some, quotedText_escape]
  rfl

/-! ## Where parts begin and end -/

def IsOpener (c : Char) : Prop :=
  c = '<' ∨ c = '"' ∨ c = '[' ∨ c = '\x7b'

theorem skip_opener {c : Char} (hc : IsOpener c) (t : List Char) : skip (c :: t) = c :: t := by
  rcases hc with rfl | rfl | rfl | rfl <;> rfl

theorem skip_space_opener {c : Char} (hc : IsOpener c) (t : List Char) :
    skip (' ' :: c :: t) = c :: t :=
  skip_opener hc t

/-- Nothing more of a list of alternatives stands here. -/
def Closes (r : List Char) : Prop :=
  skip r = [] ∨ ∃ c v, skip r = c :: v ∧ (c = ']' ∨ c = '\x7d')

/-- Nothing more of a sequence stands here. -/
def Parts (r : List Char) : Prop :=
  Closes r ∨ ∃ v, skip r = '|' :: v

theorem closes_nil : Closes [] :=
  .inl rfl

theorem parts_bar (r : List Char) : Parts (" | ".toList ++ r) :=
  .inr ⟨_, rfl⟩

theorem Closes.symbol_bar {r : List Char} (hr : Closes r) : symbol '|' (skip r) = none := by
  rcases hr with h | ⟨c, v, h, rfl | rfl⟩ <;> rw [h] <;> rfl

theorem Parts.head_ne_dot {r : List Char} (hr : Parts r) : r.head? ≠ some '.' := by
  cases r with
  | nil => exact nofun
  | cons c v =>
    intro h
    obtain rfl := Option.some.inj h
    have hskip : skip ('.' :: v) = '.' :: v := rfl
    rcases hr with (h | ⟨c, v, h, rfl | rfl⟩) | ⟨v, h⟩ <;> rw [hskip] at h <;> cases h

theorem ellipsis_eq_none {r : List Char} (hr : r.head? ≠ some '.') : ellipsis r = none := by
  unfold ellipsis
  split
  · exact absurd rfl hr
  · rfl

section
variable {inner : List Char → Option (Body × List Char)}

theorem Parts.postfixed_eq_none {r : List Char} (hr : Parts r) :
    postfixed inner (skip r) = none := by
  rcases hr with (h | ⟨c, v, h, rfl | rfl⟩) | ⟨v, h⟩ <;> rw [h] <;> rfl

/-! ## Lists

What is read from a list depends on the text behind the white space only. -/

theorem members_congr (inner : List Char → Option (Body × List Char)) (n : Nat) {t t' : List Char}
    (ht : skip t = skip t') :
    (members inner n t).1 = (members inner n t').1 ∧
      skip (members inner n t).2 = skip (members inner n t').2 := by
  cases n with
  | zero => exact ⟨rfl, ht⟩
  | succ n =>
    unfold members
    rw [ht]
    cases postfixed inner (skip t') with
    | none => exact ⟨rfl, ht⟩
    | some r => exact ⟨rfl, rfl⟩

theorem alternatives_congr (inner : List Char → Option (Body × List Char)) (n : Nat)
    {t t' : List Char} (ht : skip t = skip t') :
    (alternatives inner n t).1 = (alternatives inner n t').1 ∧
      skip (alternatives inner n t).2 = skip (alternatives inner n t').2 := by
  cases n with
  | zero => exact ⟨rfl, ht⟩
  | succ n =>
    unfold alternatives
    rw [ht]
    cases (symbol '|' (skip t')).bind fun t => sequence inner (skip t) with
    | none => exact ⟨rfl, ht⟩
    | some r => exact ⟨rfl, rfl⟩

def Opens (u : List Char) : Prop :=
  ∃ c v, u = c :: v ∧ IsOpener c

theorem Opens.skip_append {u : List Char} (hu : Opens u) (r : List Char) :
    skip (u ++ r) = u ++ r := by
  obtain ⟨c, v, rfl, hc⟩ := hu
  exact skip_opener hc (v ++ r)

theorem Opens.skip_space {u : List Char} (hu : Opens u) (r : List Char) :
    skip (' ' :: (u ++ r)) = u ++ r := by
  obtain ⟨c, v, rfl, hc⟩ := hu
  exact skip_space_opener hc (v ++ r)

structure IsMember (inner : List Char → Option (Body × List Char)) (u : List Char) (b : Body) :
    Prop where
  opens : Opens u
  read : ∀ r, r.head? ≠ some '.' → postfixed inner (u ++ r) = some (b, r)

structure IsSequence (inner : List Char → Option (Body × List Char)) (u : List Char) (b : Body) :
    Prop where
  opens : Opens u
  read : ∀ r, Parts r → ∃ r', sequence inner (u ++ r) = some (b, r') ∧ skip r' = skip r

variable {text : Body → List Char} {value : Body → Body} {bs : List Body}

theorem length_le_flatMap {f : Body → List Char} (hf : ∀ b ∈ bs, 0 < (f b).length) :
    bs.length ≤ (bs.flatMap f).length := by
  induction bs with
  | nil => exact Nat.le_refl 0
  | cons b bs ih =>
    obtain ⟨hb, hbs⟩ := List.forall_mem_cons.mp hf
    have := ih hbs
    rw [List.flatMap_cons, List.length_append, List.length_cons]
    omega

theorem length_le_flatMap_of_mem {f : Body → List Char} {b : Body} (hb : b ∈ bs) :
    (f b).length ≤ (bs.flatMap f).length := by
  obtain ⟨before, behind, rfl⟩ := List.append_of_mem hb
  simp only [List.flatMap_append, List.flatMap_cons, List.length_append]
  omega

theorem members_joined (h : ∀ b ∈ bs, IsMember inner (text b) (value b)) {r : List Char}
    (hr : Parts r) {n : Nat} (hn : bs.length ≤ n) :
    members inner n (bs.flatMap (fun b => ' ' :: text b) ++ r) = (bs.map value, r) := by
  induction bs generalizing n with
  | nil =>
    cases n with
    | zero => rfl
    | succ n =>
      unfold members
      rw [List.flatMap_nil, List.nil_append, hr.postfixed_eq_none]
      rfl
  | cons b bs ih =>
    obtain ⟨hb, hbs⟩ := List.forall_mem_cons.mp h
    obtain ⟨n, rfl⟩ : ∃ m, n = m + 1 := ⟨n - 1, by rw [List.length_cons] at hn; omega⟩
    have hrest : (bs.flatMap (fun b => ' ' :: text b) ++ r).head? ≠ some '.' := by
      cases bs with
      | nil => exact hr.head_ne_dot
      | cons c bs => exact fun h => absurd (Option.some.inj h) (by decide)
    unfold members
    rw [List.flatMap_cons, List.append_assoc, List.cons_append, hb.opens.skip_space,
      hb.read _ hrest]
    simp only [ih hbs (Nat.le_of_succ_le_succ hn), List.map_cons]

theorem isSequence_joined (text : Body → List Char) (value : Body → Body) {b : Body}
    (hb : IsMember inner (text b) (value b))
    (hbs : ∀ c ∈ bs, IsMember inner (text c) (value c)) :
    IsSequence inner (text b ++ bs.flatMap fun b => ' ' :: text b)
      (Kind.conj.list (value b :: bs.map value)) where
  opens := by
    obtain ⟨c, v, he, hc⟩ := hb.opens
    exact ⟨c, v ++ _, by rw [he]; rfl, hc⟩
  read r hr := by
    have hrest : (bs.flatMap (fun b => ' ' :: text b) ++ r).head? ≠ some '.' := by
      cases bs with
      | nil => exact hr.head_ne_dot
      | cons c bs => exact fun h => absurd (Option.some.inj h) (by decide)
    have hlen : bs.length ≤ (bs.flatMap (fun b => ' ' :: text b) ++ r).length := by
      rw [List.length_append]
      exact Nat.le_add_right_of_le (length_le_flatMap fun _ _ => Nat.succ_pos _)
    have hm := members_joined hbs hr hlen
    have hc := members_congr inner (bs.flatMap (fun b => ' ' :: text b) ++ r).length
      (skip_skip (bs.flatMap (fun b => ' ' :: text b) ++ r))
    rw [hm] at hc
    refine ⟨_, ?_, hc.2⟩
    simp only [sequence, List.append_assoc, hb.opens.skip_append, hb.read _ hrest,
      Option.bind_eq_bind, Option.bind_some, hc.1]
    rfl

theorem parts_alternatives (text : Body → List Char) (bs : List Body) {r : List Char} (hr : Closes r) :
    Parts (bs.flatMap (fun b => " | ".toList ++ text b) ++ r) := by
  cases bs with
  | nil => exact .inl hr
  | cons b bs =>
    rw [List.flatMap_cons, List.append_assoc, List.append_assoc]
    exact parts_bar _

theorem skip_alternatives {b : Body} (r : List Char) :
    skip ((b :: bs).flatMap (fun b => " | ".toList ++ text b) ++ r) =
      '|' :: ' ' :: (text b ++ (bs.flatMap (fun b => " | ".toList ++ text b) ++ r)) := by
  rw [List.flatMap_cons, List.append_assoc, List.append_assoc]
  rfl

theorem alternatives_joined (h : ∀ b ∈ bs, IsSequence inner (text b) (value b)) {r : List Char}
    (hr : Closes r) {n : Nat} (hn : bs.length ≤ n) :
    ∃ r', alternatives inner n (bs.flatMap (fun b => " | ".toList ++ text b) ++ r) =
      (bs.map value, r') ∧ skip r' = skip r := by
  induction bs generalizing n with
  | nil =>
    refine ⟨r, ?_, rfl⟩
    cases n with
    | zero => rfl
    | succ n =>
      unfold alternatives
      rw [List.flatMap_nil, List.nil_append, hr.symbol_bar]
      rfl
  | cons b bs ih =>
    obtain ⟨hb, hbs⟩ := List.forall_mem_cons.mp h
    obtain ⟨n, rfl⟩ : ∃ m, n = m + 1 := ⟨n - 1, by rw [List.length_cons] at hn; omega⟩
    obtain ⟨t, ht, hskip⟩ := hb.read _ (parts_alternatives text bs hr)
    obtain ⟨r', hr', hskip'⟩ := ih hbs (Nat.le_of_succ_le_succ hn)
    have hc := alternatives_congr inner n hskip
    rw [hr'] at hc
    refine ⟨(alternatives inner n t).2, ?_, hc.2.trans hskip'⟩
    rw [alternatives, skip_alternatives, symbol_self, Option.bind_some, hb.opens.skip_space, ht]
    simp only [hc.1, List.map_cons]

theorem choice_joined (text : Body → List Char) (value : Body → Body) {b : Body}
    (hb : IsSequence inner (text b) (value b))
    (hbs : ∀ c ∈ bs, IsSequence inner (text c) (value c)) {r : List Char} (hr : Closes r) :
    ∃ r', choice inner (text b ++ (bs.flatMap (fun b => " | ".toList ++ text b) ++ r)) =
      some (Kind.disj.list (value b :: bs.map value), r') ∧ skip r' = skip r := by
  obtain ⟨t, ht, hskip⟩ := hb.read _ (parts_alternatives text bs hr)
  have hlen : bs.length ≤ t.length := by
    refine le_trans ?_ (length_skip_le t)
    rw [hskip]
    cases bs with
    | nil => exact Nat.zero_le _
    | cons c bs =>
      have : bs.length ≤ (bs.flatMap fun b => " | ".toList ++ text b).length :=
        length_le_flatMap fun _ _ => Nat.succ_pos _
      rw [skip_alternatives]
      simp only [List.length_cons, List.length_append]
      omega
  obtain ⟨r', hr', hskip'⟩ := alternatives_joined hbs hr hlen
  have hc := alternatives_congr inner t.length ((skip_skip t).trans hskip)
  rw [hr'] at hc
  refine ⟨_, ?_, hc.2.trans hskip'⟩
  simp only [choice, hb.opens.skip_append, ht, Option.bind_eq_bind, Option.bind_some, hc.1]
  rfl

end

/-! ## Bodies -/

/-- A member of a sequence, in braces if it is a list. -/
def memberText (b : Body) : List Char :=
  if b.isConj || b.isDisj then braced b.render else b.render

/-- An alternative, in braces if it is a list of alternatives. -/
def sequenceText (b : Body) : List Char :=
  if b.isDisj then braced b.render else b.render

theorem renderList_cons (sep : List Char) (wrap : Body → Bool) (b : Body) (bs : List Body) :
    renderList sep wrap (b :: bs) = (if wrap b then braced b.render else b.render) ++
      bs.flatMap fun b => sep ++ if wrap b then braced b.render else b.render := by
  induction bs generalizing b with
  | nil => rw [renderList, List.flatMap_nil, List.append_nil]
  | cons c bs ih =>
    rw [renderList, ih, List.flatMap_cons, List.append_assoc, List.append_assoc]
    exact List.cons_ne_nil c bs

theorem render_conj (b : Body) (bs : List Body) :
    (Body.conj (b :: bs)).render = memberText b ++ bs.flatMap fun b => ' ' :: memberText b := by
  rw [Body.render, renderList_cons]
  rfl

theorem render_disj (b : Body) (bs : List Body) :
    (Body.disj (b :: bs)).render =
      sequenceText b ++ bs.flatMap fun b => " | ".toList ++ sequenceText b := by
  rw [Body.render, renderList_cons]
  rfl

structure IsChoice (inner : List Char → Option (Body × List Char)) (u : List Char) (b : Body) :
    Prop where
  opens : Opens u
  read : ∀ r, Closes r → ∃ r', choice inner (u ++ r) = some (b, r') ∧ skip r' = skip r

structure IsPrimary (inner : List Char → Option (Body × List Char)) (u : List Char) (b : Body) :
    Prop where
  opens : Opens u
  read : ∀ r, primary inner (u ++ r) = some (b, r)

section
variable {inner : List Char → Option (Body × List Char)} {u : List Char} {b : Body}

theorem isPrimary_name {n : String} (hn : isName n) :
    IsPrimary inner (Body.name n).render (.name n) where
  opens := ⟨'<', _, rfl, by simp [IsOpener]⟩
  read r := by
    rw [Body.render]
    simp only [primary, name_append hn]

theorem isPrimary_lit (text : String) : IsPrimary inner (Body.lit text).render (.lit text) where
  opens := ⟨'"', _, rfl, by simp [IsOpener]⟩
  read r := by
    have hname : name (quote text.toList ++ r) = none := rfl
    rw [Body.render]
    simp only [primary, hname, quoted_append, String.ofList_toList]

theorem IsPrimary.isMember (h : IsPrimary inner u b) : IsMember inner u b where
  opens := h.opens
  read r hr := by
    simp only [postfixed, h.read, Option.bind_eq_bind, Option.bind_some, ellipsis_eq_none hr]
    rfl

theorem IsPrimary.isMember_plus (h : IsPrimary inner u b) :
    IsMember inner (u ++ "...".toList) (.plus b) where
  opens := by
    obtain ⟨c, v, rfl, hc⟩ := h.opens
    exact ⟨c, v ++ "...".toList, rfl, hc⟩
  read r _ := by
    rw [List.append_assoc]
    simp only [postfixed, h.read, Option.bind_eq_bind, Option.bind_some]
    rfl

theorem IsMember.isSequence (h : IsMember inner u b) : IsSequence inner u b := by
  have hnone : ∀ c ∈ ([] : List Body), IsMember inner u b := nofun
  have := isSequence_joined (fun _ => u) (fun _ => b) (b := b) h hnone
  rwa [List.flatMap_nil, List.append_nil] at this

theorem IsSequence.isChoice (h : IsSequence inner u b) : IsChoice inner u b where
  opens := h.opens
  read _ hr := by
    have hnone : ∀ c ∈ ([] : List Body), IsSequence inner u b := nofun
    exact choice_joined (fun _ => u) (fun _ => b) (b := b) h hnone hr

variable {n : Nat}

theorem IsChoice.enclosed_eq (h : IsChoice (expressionAt n) u b) {o c : Char} (ho : IsOpener o)
    (hc : c = ']' ∨ c = '\x7d') (r : List Char) :
    enclosed (expressionAt (n + 1)) o c (o :: ' ' :: (u ++ ' ' :: c :: r)) = some (b, r) := by
  have hskip : skip (' ' :: c :: r) = c :: r := by
    rcases hc with rfl | rfl <;> rfl
  have hcloses : Closes (' ' :: c :: r) := .inr ⟨c, r, hskip, hc⟩
  obtain ⟨r', hr', he⟩ := h.read _ hcloses
  simp only [enclosed, skip_opener ho, symbol_self, Option.bind_eq_bind, Option.bind_some,
    h.opens.skip_space, expressionAt, hr', he, hskip]
  rfl

theorem IsChoice.isPrimary_braced (h : IsChoice (expressionAt n) u b) :
    IsPrimary (expressionAt (n + 1)) (braced u) b where
  opens := ⟨'\x7b', _, rfl, by simp [IsOpener]⟩
  read r := by
    have he : braced u ++ r = '\x7b' :: ' ' :: (u ++ ' ' :: '\x7d' :: r) := by simp [braced]
    rw [he]
    exact h.enclosed_eq (by simp [IsOpener]) (.inr rfl) r

theorem IsChoice.isPrimary_opt (h : IsChoice (expressionAt n) u b) :
    IsPrimary (expressionAt (n + 1)) ("[ ".toList ++ u ++ " ]".toList) (.opt b) where
  opens := ⟨'[', _, rfl, by simp [IsOpener]⟩
  read r := by
    have he : "[ ".toList ++ u ++ " ]".toList ++ r = '[' :: ' ' :: (u ++ ' ' :: ']' :: r) := by
      simp
    have hopt := h.enclosed_eq (o := '[') (by simp [IsOpener]) (.inl rfl) r
    have hname : name ('[' :: ' ' :: (u ++ ' ' :: ']' :: r)) = none := rfl
    have hquoted : quoted ('[' :: ' ' :: (u ++ ' ' :: ']' :: r)) = none := rfl
    have hbare : bare ('[' :: ' ' :: (u ++ ' ' :: ']' :: r)) = none := rfl
    rw [he]
    simp only [primary, hname, hquoted, hbare, hopt]

end

/-- The body is read back from its text, wherever it stands. Brackets in a text are less deep than
it is long. -/
structure ReadsBack (b : Body) : Prop where
  primary : b.isPrimary → ∀ n, b.render.length ≤ n → IsPrimary (expressionAt n) b.render b.norm
  member : ∀ n, (memberText b).length ≤ n → IsMember (expressionAt n) (memberText b) b.norm
  sequence : ∀ n, (sequenceText b).length ≤ n →
    IsSequence (expressionAt n) (sequenceText b) b.norm
  choice : ∀ n, b.render.length ≤ n → IsChoice (expressionAt n) b.render b.norm

theorem length_braced (u : List Char) : (braced u).length = u.length + 4 := by
  simp [braced]

theorem isPrimary_of_choice {b : Body}
    (h : ∀ n, b.render.length ≤ n → IsChoice (expressionAt n) b.render b.norm) {n : Nat}
    (hn : (braced b.render).length ≤ n) :
    IsPrimary (expressionAt n) (braced b.render) b.norm := by
  rw [length_braced] at hn
  obtain ⟨n, rfl⟩ : ∃ m, n = m + 1 := ⟨n - 1, by omega⟩
  exact (h n (by omega)).isPrimary_braced

/-- Names, literals and options stand everywhere without braces. -/
theorem readsBack_of_primary {b : Body} (hb : b.isPrimary)
    (h : ∀ n, b.render.length ≤ n → IsPrimary (expressionAt n) b.render b.norm) :
    ReadsBack b := by
  have hm : memberText b = b.render := by cases b <;> cases hb <;> rfl
  have hs : sequenceText b = b.render := by cases b <;> cases hb <;> rfl
  refine ⟨fun _ => h, fun n hn => ?_, fun n hn => ?_, fun n hn => (h n hn).isMember.isSequence.isChoice⟩
  · rw [hm] at hn ⊢
    exact (h n hn).isMember
  · rw [hs] at hn ⊢
    exact (h n hn).isMember.isSequence

theorem readsBack_plus {b : Body} (h : ReadsBack b) : ReadsBack (.plus b) := by
  have hm (n) (hn : (Body.plus b).render.length ≤ n) :
      IsMember (expressionAt n) (Body.plus b).render (Body.plus b).norm := by
    rw [Body.render, List.length_append] at hn
    rw [Body.render, Body.norm]
    by_cases hp : b.isPrimary
    · rw [if_pos hp] at hn ⊢
      exact (h.primary hp n (by omega)).isMember_plus
    · rw [if_neg hp] at hn ⊢
      exact (isPrimary_of_choice h.choice (by omega)).isMember_plus
  exact ⟨nofun, hm, fun n hn => (hm n hn).isSequence, fun n hn => (hm n hn).isSequence.isChoice⟩

theorem readsBack_conj {b : Body} {bs : List Body} (hb : ReadsBack b)
    (hbs : ∀ c ∈ bs, ReadsBack c) : ReadsBack (.conj (b :: bs)) := by
  have hs (n) (hn : (Body.conj (b :: bs)).render.length ≤ n) :
      IsSequence (expressionAt n) (Body.conj (b :: bs)).render (Body.conj (b :: bs)).norm := by
    rw [render_conj, List.length_append] at hn
    rw [render_conj, Body.norm, normList, normList_eq]
    refine isSequence_joined memberText Body.norm (hb.member n (by omega)) fun c hc =>
      (hbs c hc).member n ?_
    have := length_le_flatMap_of_mem (f := fun b => ' ' :: memberText b) hc
    rw [List.length_cons] at this
    omega
  have hc (n) (hn : (Body.conj (b :: bs)).render.length ≤ n) := (hs n hn).isChoice
  exact ⟨nofun, fun n hn => (isPrimary_of_choice hc hn).isMember, hs, hc⟩

theorem readsBack_disj {b : Body} {bs : List Body} (hb : ReadsBack b)
    (hbs : ∀ c ∈ bs, ReadsBack c) : ReadsBack (.disj (b :: bs)) := by
  have hc (n) (hn : (Body.disj (b :: bs)).render.length ≤ n) :
      IsChoice (expressionAt n) (Body.disj (b :: bs)).render (Body.disj (b :: bs)).norm := by
    rw [render_disj, List.length_append] at hn
    have hfirst := hb.sequence n (by omega)
    have hmore (c) (hc : c ∈ bs) : IsSequence (expressionAt n) (sequenceText c) c.norm := by
      refine (hbs c hc).sequence n ?_
      have := length_le_flatMap_of_mem (f := fun b => " | ".toList ++ sequenceText b) hc
      rw [List.length_append] at this
      omega
    rw [render_disj, Body.norm, normList, normList_eq]
    refine ⟨?_, fun r hr => ?_⟩
    · obtain ⟨c, v, he, hc⟩ := hfirst.opens
      exact ⟨c, v ++ _, by rw [he]; rfl, hc⟩
    · rw [List.append_assoc]
      exact choice_joined sequenceText Body.norm hfirst hmore hr
  have hp (n) (hn : (braced (Body.disj (b :: bs)).render).length ≤ n) :=
    (isPrimary_of_choice hc hn).isMember
  exact ⟨nofun, hp, fun n hn => (hp n hn).isSequence, hc⟩

mutual

theorem readsBack : ∀ b : Body, b.isPrintable → ReadsBack b
  | .name _, h => readsBack_of_primary rfl fun _ _ => isPrimary_name h
  | .lit text, _ => readsBack_of_primary rfl fun _ _ => isPrimary_lit text
  | .opt b, h => readsBack_of_primary rfl fun n hn => by
    have hlen : (Body.opt b).render.length = b.render.length + 4 := by simp [Body.render]
    obtain ⟨n, rfl⟩ : ∃ m, n = m + 1 := ⟨n - 1, by omega⟩
    rw [Body.render, Body.norm]
    exact ((readsBack b h).choice n (by omega)).isPrimary_opt
  | .plus b, h => readsBack_plus (readsBack b h)
  | .conj (b :: bs), h => by
    obtain ⟨hb, hbs⟩ := Bool.and_eq_true_iff.mp (Bool.and_eq_true_iff.mp h).2
    exact readsBack_conj (readsBack b hb) (readsBack_of_mem bs hbs)
  | .disj (b :: bs), h => by
    obtain ⟨hb, hbs⟩ := Bool.and_eq_true_iff.mp (Bool.and_eq_true_iff.mp h).2
    exact readsBack_disj (readsBack b hb) (readsBack_of_mem bs hbs)

theorem readsBack_of_mem : ∀ bs : List Body, allPrintable bs → ∀ c ∈ bs, ReadsBack c
  | [], _, c, hc => absurd hc List.not_mem_nil
  | b :: bs, h, c, hc => by
    obtain ⟨hb, hbs⟩ := Bool.and_eq_true_iff.mp h
    rcases List.mem_cons.mp hc with hc | hc
    · rw [hc]
      exact readsBack b hb
    · exact readsBack_of_mem bs hbs c hc

end

theorem expression_render {b : Body} (hb : b.isPrintable) :
    ∃ r, expression b.render = some (b.norm, r) ∧ skip r = [] := by
  have := ((readsBack b hb).choice _ (Nat.le_refl _)).read [] closes_nil
  rwa [List.append_nil] at this

theorem assigns_sign (m : Mode) (t : List Char) : assigns (m.sign.toList ++ t) = some (m, t) := by
  cases m <;> rfl

theorem rule_renderAs {n : String} {d : Definition} (hn : isName n) (hd : d.body.isPrintable) :
    rule (d.renderAs n).toList = some ⟨n, ⟨d.body.norm, d.mode⟩, .expression, []⟩ := by
  have hopens := ((readsBack d.body hd).choice _ (Nat.le_refl _)).opens
  obtain ⟨r, hr, hskip⟩ := expression_render hd
  have he : (d.renderAs n).toList = '<' :: n.toList ++ ['>'] ++
      ' ' :: (d.mode.sign.toList ++ ' ' :: d.body.render) := by
    simp [Definition.renderAs, Definition.render]
  have hfirst : skip ('<' :: n.toList ++ ['>'] ++ ' ' :: (d.mode.sign.toList ++ ' ' :: d.body.render))
      = '<' :: n.toList ++ ['>'] ++ ' ' :: (d.mode.sign.toList ++ ' ' :: d.body.render) := rfl
  have hsign : skip (' ' :: (d.mode.sign.toList ++ ' ' :: d.body.render)) =
      d.mode.sign.toList ++ ' ' :: d.body.render := by
    cases d.mode <;> rfl
  have hbody : skip (' ' :: d.body.render) = d.body.render := by
    simpa using hopens.skip_space []
  have hside : side d.body.render = some (.expression, d.body.norm, r) := by
    simp only [side, hr]
  simp only [rule, he, hfirst, name_append hn, hsign, assigns_sign, hbody, hside, hskip,
    Option.bind_eq_bind, Option.bind_some]
  rfl

end Direct

/-- A printed rule is read back with its body in normal form. -/
theorem readRule_renderAs (n : String) (d : Definition) (hn : isName n) (hd : d.body.isPrintable) :
    readRule (d.renderAs n) = .ok (n, ⟨d.body.norm, d.mode⟩) :=
  readRule_of_rule (Direct.rule_renderAs hn hd) rfl rfl

theorem readRule_renderAs_nested :
    readRule (Definition.renderAs ⟨.conj [.conj [.lit "a\"", .disj [.plus (.conj [.name "b"])]],
        .lit "..."], .loose⟩ "x") =
      .ok ("x", ⟨.conj [.lit "a\"", .plus (.name "b"), .lit "..."], .loose⟩) :=
  readRule_renderAs "x" ⟨.conj [.conj [.lit "a\"", .disj [.plus (.conj [.name "b"])]], .lit "..."],
    .loose⟩ (by decide +kernel) (by decide +kernel)

end Peg.Bnf
