import Peg.Proofs.Engine.TextAhead
import Peg.Proofs.Reading.Printing

/-!
# Quoting

The notation's expression for quoted literals takes a quoted text up to its own closing quote,
whatever stands behind it, and `unquote` gives back the text that was quoted. A text that the
expression takes as a whole holds no backslash that escapes nothing: `turns` tells which branch
`unescape` takes at each place of a text.
-/

namespace Peg

universe u

/-! ## Parses that take a known piece -/

section
variable {σ : Type u} {g : Grammar σ} {h : Handle} {s s' : σ} {text : String}

theorem parse_eq_matched {u rest : List Char} (ht : text.toList = u ++ rest)
    (hy : Yields g false h text.toList s (.took rest) s') :
    g.parse h text s = (.matched (.between u rest), s') := by
  obtain ⟨v, hv, hc⟩ := parse_consumed? (parse_verdict?_eq_some_iff.mpr ⟨s', hy⟩)
  obtain rfl : u = v := List.append_cancel_right (ht.symm.trans hv)
  obtain ⟨o, hp, ho⟩ := parse_iff_yields.mp hy
  obtain ⟨d, rfl, rfl⟩ := Outcome.eq_matched_of_verdict? ho
  rw [hp] at hc ⊢
  have hoff : d.offset = byteLength u := Option.some.inj hc
  rw [Cursor.between, ← hoff]

theorem yields_nil_of_isMatchOf (hm : (g.parse h text s).1.isMatchOf text) :
    ∃ s', Yields g false h text.toList s (.took []) s' := by
  have hall : (g.parse h text s).1.consumed? = some text.utf8ByteSize := by
    simpa [Outcome.isMatchOf] using hm
  obtain ⟨d, hd⟩ : ∃ d, (g.parse h text s).1 = .matched d := by
    cases ho : (g.parse h text s).1 with
    | matched d => exact ⟨d, rfl⟩
    | _ => rw [ho] at hall; cases hall
  have hv : (g.parse h text s).1.verdict? = some (.took d.rest) := by
    rw [hd]
    rfl
  obtain ⟨u, hu, hc⟩ := parse_consumed? hv
  have hlen : text.utf8ByteSize = byteLength u := Option.some.inj (hall.symm.trans hc)
  rw [← byteLength_toList, hu, byteLength_append] at hlen
  have hrest : d.rest = [] := Cursor.byteLength_eq_zero (by omega)
  exact parse_verdict?_eq_some_iff.mp (hrest ▸ hv)

end

end Peg

namespace Peg.Bnf

/-! ## The branches of `unescape` -/

/-- What `unescape` finds at a place of a text. -/
inductive Turn
  | plain (c : Char)
  | escape (e c : Char)
  /-- A backslash before a character that it does not escape. -/
  | unknown (e : Char)
  /-- A backslash at the end of the text. -/
  | trailing
  deriving DecidableEq, Repr

namespace Turn

def source : Turn → List Char
  | plain c => [c]
  | escape e _ => ['\\', e]
  | unknown e => ['\\', e]
  | trailing => ['\\']

/-- The characters that stand for it in the result. -/
def meaning : Turn → List Char
  | plain c => [c]
  | escape _ c => [c]
  | unknown e => ['\\', e]
  | trailing => ['\\']

def Fits : Turn → Prop
  | plain c => c ≠ '\\'
  | escape e c => escaped? e = some c
  | unknown e => escaped? e = none
  | trailing => True

/-- The backslash escapes nothing. -/
def isStray : Turn → Bool
  | unknown _ => true
  | trailing => true
  | _ => false

end Turn

def turns : List Char → List Turn
  | [] => []
  | '\\' :: e :: text =>
    match escaped? e with
    | some c => .escape e c :: turns text
    | none => .unknown e :: turns text
  | ['\\'] => [.trailing]
  | c :: text => .plain c :: turns text

theorem turns_cons_of_ne {c : Char} (h : c ≠ '\\') (text : List Char) :
    turns (c :: text) = .plain c :: turns text := by
  rw [turns]
  · exact fun _ _ hc => absurd hc h
  · exact fun hc => absurd hc h

theorem flatMap_source_turns (text : List Char) : (turns text).flatMap Turn.source = text := by
  induction text using turns.induct with
  | case1 => rfl
  | case2 e text c he ih => simp [turns, he, Turn.source, ih]
  | case3 e text he ih => simp [turns, he, Turn.source, ih]
  | case4 => rfl
  | case5 c text hb hs ih =>
    have hc := ne_backslash_of_cases hb hs
    simp [turns_cons_of_ne hc, Turn.source, ih]

theorem flatMap_meaning_turns (text : List Char) :
    (turns text).flatMap Turn.meaning = unescape text := by
  induction text using turns.induct with
  | case1 => rfl
  | case2 e text c he ih => simp [turns, unescape, he, Turn.meaning, ih]
  | case3 e text he ih => simp [turns, unescape, he, Turn.meaning, ih]
  | case4 => rfl
  | case5 c text hb hs ih =>
    have hc := ne_backslash_of_cases hb hs
    simp [turns_cons_of_ne hc, unescape_cons_of_ne hc, Turn.meaning, ih]

theorem fits_turns (text : List Char) : ∀ turn ∈ turns text, turn.Fits := by
  induction text using turns.induct with
  | case1 => exact nofun
  | case2 e text c he ih =>
    simp only [turns, he]
    exact List.forall_mem_cons.mpr ⟨he, ih⟩
  | case3 e text he ih =>
    simp only [turns, he]
    exact List.forall_mem_cons.mpr ⟨he, ih⟩
  | case4 => exact List.forall_mem_cons.mpr ⟨trivial, nofun⟩
  | case5 c text hb hs ih =>
    have hc := ne_backslash_of_cases hb hs
    rw [turns_cons_of_ne hc]
    exact List.forall_mem_cons.mpr ⟨hc, ih⟩

def interior (text : List Char) : List Char :=
  match text with
  | '"' :: inner => if inner.getLast? = some '"' then inner.dropLast else text
  | _ => text

theorem unquote_eq_unescape (text : List Char) : unquote text = unescape (interior text) := by
  fun_cases interior text with
  | case1 inner h => rw [unquote, if_pos h]
  | case2 inner h => rw [unquote, if_neg h]
  | case3 _ h =>
    rw [unquote]
    exact h

theorem interior_quoted (w : List Char) : interior ('"' :: (w ++ ['"'])) = w := by
  simp [interior]

namespace Direct

/-- What is read up to the closing quote holds no stray backslash. -/
theorem exists_turns_of_quotedText {t u rest : List Char} (h : quotedText t = some (u, rest)) :
    ∃ w, t = w ++ '"' :: rest ∧ ∀ turn ∈ turns w, turn.isStray = false := by
  induction t using quotedText.induct generalizing u with
  | case1 t =>
    obtain ⟨-, rfl⟩ := Prod.mk.inj (Option.some.inj h)
    exact ⟨[], rfl, fun turn hturn => absurd hturn List.not_mem_nil⟩
  | case2 e t ih =>
    simp only [quotedText, Option.bind_eq_bind, Option.bind_eq_some_iff, Prod.exists] at h
    obtain ⟨c, hc, v, r, hq, he⟩ := h
    obtain ⟨-, rfl⟩ := Prod.mk.inj (Option.some.inj he)
    obtain ⟨w, rfl, hw⟩ := ih hq
    refine ⟨'\\' :: e :: w, rfl, ?_⟩
    simp only [turns, hc]
    exact List.forall_mem_cons.mpr ⟨rfl, hw⟩
  | case3 => cases h
  | case4 c t hq hb hs ih =>
    have hc := ne_backslash_of_cases hb hs
    rw [quotedText] at h
    · simp only [Option.bind_eq_bind, Option.bind_eq_some_iff, Prod.exists] at h
      obtain ⟨v, r, hq, he⟩ := h
      obtain ⟨-, rfl⟩ := Prod.mk.inj (Option.some.inj he)
      obtain ⟨w, rfl, hw⟩ := ih hq
      refine ⟨c :: w, rfl, ?_⟩
      rw [turns_cons_of_ne hc]
      exact List.forall_mem_cons.mpr ⟨rfl, hw⟩
    · exact hq
    · exact hb
    · exact hs
  | case5 => cases h

end Direct

/-! ## Quoted literals in the notation -/

namespace Layout

/-- A quoted text is taken up to its closing quote, and what was quoted is pushed. -/
theorem parse_quoted (s t : String) (st : Reductions) :
    grammar.parse quoted (String.ofList (Bnf.quote s.toList) ++ t) st =
      (.matched (.between (Bnf.quote s.toList) t.toList), st.push (.lit s)) := by
  have ht : (String.ofList (Bnf.quote s.toList) ++ t).toList = Bnf.quote s.toList ++ t.toList := by
    simp
  have hy := pushes_quoted (t := Bnf.quote s.toList ++ t.toList) (s := st)
  rw [Direct.quoted_append, Option.map_some, String.ofList_toList, ← ht] at hy
  exact parse_eq_matched ht hy

/-- What is taken as a whole stands between quotes, without a stray backslash. -/
theorem exists_turns_of_isMatchOf {q : String} {st : Reductions}
    (hm : (grammar.parse quoted q st).1.isMatchOf q) :
    ∃ w, q.toList = '"' :: (w ++ ['"']) ∧ ∀ turn ∈ turns w, turn.isStray = false := by
  obtain ⟨st', hy⟩ := yields_nil_of_isMatchOf hm
  have hp := pushes_quoted (t := q.toList) (s := st)
  cases hq : Direct.quoted q.toList with
  | none =>
    -- the expression would refuse the text
    rw [hq] at hp
    exact absurd (hy.unique hp).1 nofun
  | some r =>
    obtain ⟨u, rest⟩ := r
    rw [hq] at hp
    obtain rfl : [] = rest := Verdict.took.inj (hy.unique hp).1
    obtain ⟨t, v, ht, hv, -⟩ := Direct.exists_of_quoted hq
    obtain ⟨w, rfl, hw⟩ := Direct.exists_turns_of_quotedText hv
    exact ⟨w, ht, hw⟩

end Layout

/-- Quoting is exact: the notation's expression for quoted literals takes of a quoted text with
anything behind it just the quoted text, from which `unquote` gets back what was quoted. `unquote`
goes through the turns of the interior, and on a text that the expression takes as a whole none of
them is at a backslash that escapes nothing. -/
theorem quoting_exact : ∃ r, reader = .ok r ∧
    (∀ (s t : String) (st : Reductions),
      r.grammar.parse r.phrases.quoted (String.ofList (quote s.toList) ++ t) st =
        (.matched (.between (quote s.toList) t.toList), st.push (.lit s))) ∧
    (∀ s, unquote (quote s) = s) ∧
    (∀ q, (turns (interior q)).flatMap Turn.source = interior q ∧
      (turns (interior q)).flatMap Turn.meaning = unquote q ∧
      ∀ turn ∈ turns (interior q), turn.Fits) ∧
    ∀ (q : String) (st : Reductions), (r.grammar.parse r.phrases.quoted q st).1.isMatchOf q →
      ∀ turn ∈ turns (interior q.toList), turn.isStray = false := by
  refine ⟨_, Layout.reader_eq, Layout.parse_quoted, unquote_quote, ?_, ?_⟩
  · intro q
    refine ⟨flatMap_source_turns (interior q), ?_, fits_turns (interior q)⟩
    rw [flatMap_meaning_turns, unquote_eq_unescape]
  · intro q st hm
    obtain ⟨w, hq, hw⟩ := Layout.exists_turns_of_isMatchOf hm
    rwa [hq, interior_quoted]

/-- A quote and a backslash are quoted, before another backslash and quote. -/
theorem quoting_exact_backslashes : ∃ r, reader = .ok r ∧
    r.grammar.parse r.phrases.quoted "\"\\\"\\\\\"\\\"" .init =
      (.matched ⟨6, ['\\', '"']⟩, Reductions.init.push (.lit "\"\\")) ∧
    (r.grammar.parse r.phrases.quoted "\"a\\\\\\t\"" .init).1.isMatchOf "\"a\\\\\\t\"" ∧
    ∀ turn ∈ [Turn.plain 'a', .escape '\\' '\\', .escape 't' '\t'], turn.isStray = false := by
  obtain ⟨r, hr, hquote, -, -, hwhole⟩ := quoting_exact
  obtain rfl : ⟨Layout.grammar, Layout.phrases⟩ = r := Except.ok.inj (Layout.reader_eq ▸ hr)
  have htext : String.ofList (quote "\"\\".toList) ++ "\\\"" = "\"\\\"\\\\\"\\\"" := by
    decide +kernel
  have hplace : Cursor.between (quote "\"\\".toList) "\\\"".toList = ⟨6, ['\\', '"']⟩ := by
    decide +kernel
  have hq := hquote "\"\\" "\\\"" .init
  rw [htext, hplace] at hq
  have hturns : turns (interior "\"a\\\\\\t\"".toList) =
      [.plain 'a', .escape '\\' '\\', .escape 't' '\t'] := by decide +kernel
  have hm :
      (Layout.grammar.parse Layout.quoted "\"a\\\\\\t\"" .init).1.isMatchOf "\"a\\\\\\t\"" := by
    decide +kernel
  have hall := hwhole _ .init hm
  rw [hturns] at hall
  exact ⟨_, hr, hq, hm, hall⟩

end Peg.Bnf
