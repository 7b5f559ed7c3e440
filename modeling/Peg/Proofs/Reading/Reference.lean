import Peg.Bnf.Quoted
import Peg.Bnf.Reductions

/-!
# A direct reader of rules

The notation of rules, read without a stack: each function gives what it has read and the text
behind it, or nothing. What an alternative that fails has seen leaves no trace.
-/

namespace Peg.Bnf

/-! ## Lists of members -/

inductive Kind
  | conj
  | disj
  deriving DecidableEq, Repr

namespace Kind

def make : Kind → List Body → Body
  | conj, bs => .conj bs
  | disj, bs => .disj bs

def members? : Kind → Body → Option (List Body)
  | conj, .conj bs => some bs
  | disj, .disj bs => some bs
  | _, _ => none

/-- The list of these members. A single one stands for itself, and a first one that is a list of
this kind takes up the others. -/
def list (k : Kind) : List Body → Body
  | [] => k.make []
  | [b] => b
  | b :: bs =>
    match k.members? b with
    | some first => k.make (first ++ bs)
    | none => k.make (b :: bs)

end Kind

namespace Direct

/-! ## Characters and white space -/

def isGap (c : Char) : Bool :=
  " \t\r\n\x0c\x0b".toList.contains c

def isNameChar (c : Char) : Bool :=
  ('a' ≤ c && c ≤ 'z') || ('A' ≤ c && c ≤ 'Z') || ('0' ≤ c && c ≤ '9') ||
    " -_:=/.".toList.contains c

def lineEnd : List Char → Option (List Char)
  | '\n' :: t => some t
  | '\r' :: '\n' :: t => some t
  | _ => none

def blankLine (t : List Char) : Option (List Char) :=
  (lineEnd t).bind lineEnd

/-- Drops white space, up to a blank line. -/
def skip : List Char → List Char
  | [] => []
  | c :: t => if (blankLine (c :: t)).isNone && isGap c then skip t else c :: t

theorem length_skip_le (t : List Char) : (skip t).length ≤ t.length := by
  induction t with
  | nil => exact Nat.le_refl 0
  | cons c t ih =>
    rw [skip]
    split
    · exact Nat.le_succ_of_le ih
    · exact Nat.le_refl _

theorem skip_skip (t : List Char) : skip (skip t) = skip t := by
  induction t with
  | nil => rfl
  | cons c t ih =>
    rw [skip]
    split
    · exact ih
    · rename_i h
      rw [skip, if_neg h]

def symbol (c : Char) : List Char → Option (List Char)
  | [] => none
  | d :: t => if d = c then some t else none

theorem symbol_eq_some {c : Char} {t r : List Char} (h : symbol c t = some r) : t = c :: r := by
  cases t with
  | nil => cases h
  | cons d t =>
    by_cases hd : d = c
    · subst hd
      rw [symbol, if_pos rfl] at h
      rw [Option.some.inj h]
    · rw [symbol, if_neg hd] at h
      cases h

/-- A symbol shortens the text, white space before it or not. -/
theorem length_lt_of_symbol {c : Char} {t r : List Char} (h : symbol c (skip t) = some r) :
    r.length < t.length := by
  have := length_skip_le t
  rw [symbol_eq_some h] at this
  exact this

theorem symbol_self (c : Char) (t : List Char) : symbol c (c :: t) = some t :=
  if_pos rfl

/-! ## Words -/

/-- The characters at the front that `p` accepts, of which there must be one. -/
def run (p : Char → Bool) (t : List Char) : Option (String × List Char) :=
  if (t.takeWhile p).isEmpty then none else some (String.ofList (t.takeWhile p), t.dropWhile p)

def name (t : List Char) : Option (String × List Char) := do
  let t ← symbol '<' t
  let (n, t) ← run isNameChar t
  let t ← symbol '>' t
  return (n, t)

/-- Up to the closing quote, with the escapes resolved. -/
def quotedText : List Char → Option (List Char × List Char)
  | '"' :: t => some ([], t)
  | '\\' :: e :: t => do
    let c ← escaped? e
    let (u, t) ← quotedText t
    return (c :: u, t)
  | ['\\'] => none
  | c :: t => do
    let (u, t) ← quotedText t
    return (c :: u, t)
  | [] => none

def quoted (t : List Char) : Option (String × List Char) := do
  let t ← symbol '"' t
  let (u, t) ← quotedText t
  return (String.ofList u, t)

def bare : List Char → Option (String × List Char) :=
  run fun c => c != ' ' && isNameChar c

def graphic : List Char → Option (String × List Char) :=
  run fun c => !isGap c

def assigns : List Char → Option (Mode × List Char)
  | ':' :: '=' :: '=' :: t => some (.strict, t)
  | ':' :: ':' :: '=' :: t => some (.loose, t)
  | _ => none

def ellipsis : List Char → Option (List Char)
  | '.' :: '.' :: '.' :: t => some t
  | _ => none

theorem exists_of_run {p : Char → Bool} {t rest : List Char} {u : String}
    (h : run p t = some (u, rest)) : ∃ c r, t = c :: r ∧ p c ∧ rest.length < t.length := by
  unfold run at h
  split at h
  · cases h
  · rename_i hne
    cases t with
    | nil => exact absurd rfl hne
    | cons c r =>
      by_cases hc : p c
      · rw [List.dropWhile_cons_of_pos hc] at h
        obtain ⟨-, rfl⟩ := Prod.mk.injEq .. ▸ Option.some.inj h
        exact ⟨c, r, rfl, hc, Nat.lt_succ_of_le (List.dropWhile_suffix p).length_le⟩
      · rw [List.takeWhile_cons_of_neg hc] at hne
        exact absurd rfl hne

theorem exists_of_name {t rest : List Char} {n : String} (h : name t = some (n, rest)) :
    ∃ t₁, t = '<' :: t₁ ∧ run isNameChar t₁ = some (n, '>' :: rest) := by
  simp only [name, Option.bind_eq_bind, Option.bind_eq_some_iff, Prod.exists] at h
  obtain ⟨t₁, h₁, n', t₂, h₂, t₃, h₃, he⟩ := h
  obtain rfl := symbol_eq_some h₁
  obtain rfl := symbol_eq_some h₃
  obtain ⟨rfl, rfl⟩ := Prod.mk.injEq .. ▸ Option.some.inj he
  exact ⟨t₁, rfl, h₂⟩

theorem exists_of_quoted {t rest : List Char} {u : String} (h : quoted t = some (u, rest)) :
    ∃ t₁ w, t = '"' :: t₁ ∧ quotedText t₁ = some (w, rest) ∧ u = String.ofList w := by
  simp only [quoted, Option.bind_eq_bind, Option.bind_eq_some_iff, Prod.exists] at h
  obtain ⟨t₁, h₁, w, t₂, h₂, he⟩ := h
  obtain rfl := symbol_eq_some h₁
  obtain ⟨rfl, rfl⟩ := Prod.mk.injEq .. ▸ Option.some.inj he
  exact ⟨t₁, w, rfl, h₂, rfl⟩

theorem length_quotedText {t rest w : List Char} (h : quotedText t = some (w, rest)) :
    rest.length < t.length := by
  induction t using quotedText.induct generalizing w rest with
  | case1 t =>
    rw [quotedText] at h
    obtain ⟨-, rfl⟩ := Prod.mk.injEq .. ▸ Option.some.inj h
    exact Nat.lt_succ_self _
  | case2 e t ih =>
    simp only [quotedText, Option.bind_eq_bind, Option.bind_eq_some_iff, Prod.exists] at h
    obtain ⟨c, -, u, r, hq, he⟩ := h
    obtain ⟨-, rfl⟩ := Prod.mk.injEq .. ▸ Option.some.inj he
    have := ih hq
    simp only [List.length_cons]
    omega
  | case3 => simp [quotedText] at h
  | case4 c t h₁ h₂ h₃ ih =>
    rw [quotedText] at h
    · simp only [Option.bind_eq_bind, Option.bind_eq_some_iff, Prod.exists] at h
      obtain ⟨u, r, hq, he⟩ := h
      obtain ⟨-, rfl⟩ := Prod.mk.injEq .. ▸ Option.some.inj he
      exact Nat.lt_succ_of_lt (ih hq)
    · exact h₁
    · exact h₂
    · exact h₃
  | case5 => simp [quotedText] at h

/-! ## Expressions -/

section
variable (inner : List Char → Option (Body × List Char))

def enclosed (opening closing : Char) (t : List Char) : Option (Body × List Char) := do
  let t ← symbol opening (skip t)
  let (b, t) ← inner (skip t)
  let t ← symbol closing (skip t)
  return (b, t)

def primary (t : List Char) : Option (Body × List Char) :=
  match name t, quoted t, bare t with
  | some (n, t), _, _ => some (.name n, t)
  | none, some (u, t), _ => some (.lit u, t)
  | none, none, some (u, t) => some (.lit u, t)
  | none, none, none =>
    match enclosed inner '[' ']' t with
    | some (b, t) => some (.opt b, t)
    | none => enclosed inner '\x7b' '\x7d' t

def postfixed (t : List Char) : Option (Body × List Char) := do
  let (b, t) ← primary inner t
  return match ellipsis t with
    | some t => (.plus b, t)
    | none => (b, t)

def members : (n : Nat) → List Char → List Body × List Char
  | 0, t => ([], t)
  | n + 1, t =>
    match postfixed inner (skip t) with
    | some (b, t) => (b :: (members n t).1, (members n t).2)
    | none => ([], t)

def sequence (t : List Char) : Option (Body × List Char) := do
  let (b, t) ← postfixed inner (skip t)
  let (bs, t) := members inner t.length (skip t)
  return (Kind.conj.list (b :: bs), t)

def alternatives : (n : Nat) → List Char → List Body × List Char
  | 0, t => ([], t)
  | n + 1, t =>
    match (symbol '|' (skip t)).bind fun t => sequence inner (skip t) with
    | some (b, t) => (b :: (alternatives n t).1, (alternatives n t).2)
    | none => ([], t)

def choice (t : List Char) : Option (Body × List Char) := do
  let (b, t) ← sequence inner (skip t)
  let (bs, t) := alternatives inner t.length (skip t)
  return (Kind.disj.list (b :: bs), t)

end

/-- An expression whose brackets are less than `n` deep. -/
def expressionAt : (n : Nat) → List Char → Option (Body × List Char)
  | 0, _ => none
  | n + 1, t => choice (expressionAt n) t

/-- Brackets are at most as deep as the text is long. -/
def expression (t : List Char) : Option (Body × List Char) :=
  expressionAt (t.length + 1) t

/-! ## Rules -/

inductive Side
  | expression
  | graphic
  deriving DecidableEq, Repr

/-- Which alternative has read the right-hand side, and the side itself. -/
def side (t : List Char) : Option (Side × Body × List Char) :=
  match expression t with
  | some (b, t) => some (.expression, b, t)
  | none => (graphic t).map fun (u, t) => (.graphic, .lit u, t)

/-- A rule ends at a blank line or with the text. -/
def stop (t : List Char) : Option (List Char) :=
  match blankLine t with
  | some t => some t
  | none => if t.isEmpty then some t else none

structure Reading where
  name : String
  definition : Definition
  side : Side
  rest : List Char
  deriving DecidableEq

def rule (t : List Char) : Option Reading := do
  let (n, t) ← name (skip t)
  let (m, t) ← assigns (skip t)
  let (k, b, t) ← side (skip t)
  let t ← stop (skip t)
  return ⟨n, ⟨b, m⟩, k, t⟩

theorem rule_eq_some_iff {t : List Char} {r : Reading} : rule t = some r ↔
    ∃ t₁ t₂ t₃, name (skip t) = some (r.name, t₁) ∧
      assigns (skip t₁) = some (r.definition.mode, t₂) ∧
        side (skip t₂) = some (r.side, r.definition.body, t₃) ∧ stop (skip t₃) = some r.rest := by
  simp only [rule, Option.bind_eq_bind, Option.bind_eq_some_iff, Prod.exists]
  constructor
  · rintro ⟨n, t₁, hn, m, t₂, ha, k, b, t₃, hs, rest, hstop, he⟩
    obtain rfl := Option.some.inj he
    exact ⟨t₁, t₂, t₃, hn, ha, hs, hstop⟩
  · rintro ⟨t₁, t₂, t₃, hn, ha, hs, hstop⟩
    exact ⟨_, t₁, hn, _, t₂, ha, _, _, t₃, hs, _, hstop, rfl⟩

end Direct

end Peg.Bnf
