import Peg.Proofs.Reading.Layout
import Peg.Proofs.Reading.Reference

/-!
# Words of the notation

What the reader's expressions for characters, white space and words yield is what the direct reader
says. Words are pushed onto the stack.
-/

namespace Peg

universe u

/-! ## Texts taken piece by piece -/

def Verdict.ofRest : Option (List Char) → Verdict
  | some rest => .took rest
  | none => .refused

section
variable {σ : Type u} {g : Grammar σ} {quiet : Bool} {h : Handle} {hs : List Handle}
variable {t : List Char} {s : σ}

theorem yieldsAll_ofRest {o : Option (List Char)} {k : List Char → Option (List Char)}
    (hh : Yields g quiet h t s (.ofRest o) s)
    (hk : ∀ t', YieldsAll g quiet hs t' s (.ofRest (k t')) s) :
    YieldsAll g quiet (h :: hs) t s (.ofRest (o.bind k)) s := by
  cases o with
  | none => exact yieldsAll_refused hh
  | some t' => exact yieldsAll_cons hh (hk t')

end

end Peg

namespace Peg.Bnf.Layout

open Direct

variable {q : Bool} {t : List Char} {s : Reductions}

/-! ## White space -/

theorem yields_symbol {h : Handle} {chars : String} {c : Char}
    (hn : grammar.arena.node? h = some (.oneOf chars)) (hc : chars.toList = [c])
    (ha : grammar.actions.node h = none) :
    Yields grammar q h t s (.ofRest (symbol c t)) s := by
  have hy : Yields grammar q h t s _ s := (yields_takeIf hn fun _ _ => rfl).plain ha
  have he : takeOne (fun ch => chars.toList.contains ch) t = .ofRest (symbol c t) := by
    cases t with
    | nil => rfl
    | cons d t => by_cases hd : d = c <;> simp [takeOne, symbol, hc, hd, Verdict.ofRest]
  exact he ▸ hy

theorem lineEnd_eq (t : List Char) : lineEnd t = symbol '\n' ((symbol '\r' t).getD t) := by
  unfold lineEnd
  split
  · rfl
  · rfl
  · rename_i h₁ h₂
    rcases t with _ | ⟨c, t⟩
    · rfl
    · by_cases hc : c = '\r'
      · subst hc
        rcases t with _ | ⟨d, t⟩
        · rfl
        · have hd : d ≠ '\n' := fun e => h₂ t (e ▸ rfl)
          simp [symbol, hd]
      · have hc' : c ≠ '\n' := fun e => h₁ t (e ▸ rfl)
        simp [symbol, hc, hc']

theorem yields_eol : Yields grammar q eol t s (.ofRest (lineEnd t)) s := by
  have hcr : Yields grammar q cr t s (.ofRest (symbol '\r' t)) s := yields_symbol rfl rfl rfl
  have hnothing : Yields grammar q nothing t s (.took t) s :=
    (yields_sequence rfl yieldsAll_nil).plain rfl
  have hmay : Yields grammar q mayCr t s (.took ((symbol '\r' t).getD t)) s := by
    refine (yields_choice rfl ?_).plain rfl
    cases hs : symbol '\r' t with
    | none =>
      rw [hs] at hcr
      exact yieldsFirst_cons hcr (yieldsFirst_head hnothing (by simp))
    | some r =>
      rw [hs] at hcr
      exact yieldsFirst_head hcr nofun
  have hlf (t) : YieldsAll grammar q [lf] t s (.ofRest (symbol '\n' t)) s :=
    yieldsAll_single (yields_symbol rfl rfl rfl)
  rw [lineEnd_eq]
  exact (yields_sequence rfl (yieldsAll_cons hmay (hlf _))).plain rfl

theorem yieldsAll_eols : YieldsAll grammar q [eol, eol] t s (.ofRest (Direct.blankLine t)) s :=
  yieldsAll_ofRest yields_eol fun _ => yieldsAll_single yields_eol

theorem yields_noBlankLine :
    Yields grammar q noBlankLine t s
      (if (Direct.blankLine t).isNone then .took t else .refused) s := by
  have htwo : Yields grammar true twoEols t s (.ofRest (Direct.blankLine t)) s :=
    (yields_sequence rfl yieldsAll_eols).plain rfl
  have : Yields grammar q noBlankLine t s _ s := (yields_notAhead rfl htwo).plain rfl
  cases hb : Direct.blankLine t <;> simpa [hb, Verdict.ofRest, Verdict.negate] using this

theorem yields_gap : Yields grammar q gap t s (takeOne isGap t) s :=
  (yields_takeIf rfl fun _ _ => rfl).plain rfl

theorem yields_ws : Yields grammar q ws t s (.took (skip t)) s := by
  refine (yields_zeroOrMore rfl ?_).plain rfl
  have step (t) {v} (h : YieldsAll grammar q [noBlankLine, gap] t s v s) :
      Yields grammar q gapStep t s v s :=
    (yields_sequence rfl h).plain rfl
  induction t with
  | nil => exact yieldsMany_stop (step _ (yieldsAll_cons yields_noBlankLine
      (yieldsAll_refused yields_gap)))
  | cons c t ih =>
    have hb := yields_noBlankLine (q := q) (t := c :: t) (s := s)
    have hg := yields_gap (q := q) (t := c :: t) (s := s)
    by_cases hblank : (Direct.blankLine (c :: t)).isNone
    · rw [hblank] at hb
      by_cases hgap : isGap c
      · rw [skip, hblank, hgap]
        simp only [takeOne, hgap, ite_true] at hg
        exact yieldsMany_step (step _ (yieldsAll_cons hb (yieldsAll_cons hg yieldsAll_nil)))
          (List.cons_ne_self c t).symm ih
      · rw [skip, hblank, Bool.eq_false_iff.mpr hgap]
        simp only [takeOne, hgap, Bool.false_eq_true, ite_false] at hg
        exact yieldsMany_stop (step _ (yieldsAll_cons hb (yieldsAll_refused hg)))
    · rw [skip, Bool.eq_false_iff.mpr hblank]
      rw [Bool.eq_false_iff.mpr hblank] at hb
      exact yieldsMany_stop (step _ (yieldsAll_refused hb))

/-! ## Words -/

theorem yields_nameChar : Yields grammar q nameChar t s (takeOne isNameChar t) s := by
  have hp : isNameChar = fun c => ('a' ≤ c && c ≤ 'z') || (('A' ≤ c && c ≤ 'Z') ||
      (('0' ≤ c && c ≤ '9') || (" -_:=/.".toList.contains c || false))) := by
    funext c
    simp only [isNameChar, Bool.or_false, Bool.or_assoc]
  rw [hp]
  refine (yields_choice rfl ?_).plain rfl
  refine yieldsFirst_takeOne ((yields_takeIf rfl fun _ _ => rfl).plain rfl) ?_
  refine yieldsFirst_takeOne ((yields_takeIf rfl fun _ _ => rfl).plain rfl) ?_
  refine yieldsFirst_takeOne ((yields_takeIf rfl fun _ _ => rfl).plain rfl) ?_
  exact yieldsFirst_takeOne ((yields_takeIf rfl fun _ _ => rfl).plain rfl) yieldsFirst_takeOne_nil

/-- A step of a run: a character that the predicate before it lets pass. -/
theorem yields_guarded {h guard item banned : Handle} {p p' : Char → Bool}
    (hn : grammar.arena.node? h = some (.sequence [guard, item]))
    (hg : grammar.arena.node? guard = some (.notAhead banned))
    (ha : grammar.actions.node h = none) (ha' : grammar.actions.node guard = none)
    (hb : Yields grammar true banned t s (takeOne p t) s)
    (hi : Yields grammar q item t s (takeOne p' t) s) :
    Yields grammar q h t s (takeOne (fun c => !p c && p' c) t) s := by
  have hguard : Yields grammar q guard t s _ s := (yields_notAhead hg hb).plain ha'
  refine (yields_sequence hn ?_).plain ha
  cases t with
  | nil => exact yieldsAll_cons hguard (yieldsAll_refused hi)
  | cons c t =>
    by_cases hc : p c
    · simp only [takeOne, hc, ite_true, Verdict.negate] at hguard
      simp only [takeOne, hc, Bool.not_true, Bool.false_and]
      exact yieldsAll_refused hguard
    · simp only [takeOne, hc, Bool.false_eq_true, ite_false, Verdict.negate] at hguard
      simp only [takeOne, hc, Bool.not_false, Bool.true_and]
      exact yieldsAll_cons hguard (yieldsAll_single hi)

theorem yields_bareStep :
    Yields grammar q bareStep t s (takeOne (fun c => c != ' ' && isNameChar c) t) s := by
  have hspace : Yields grammar true space t s (takeOne (fun c => c == ' ') t) s := by
    have he : (fun c : Char => c == ' ') = fun c => " ".toList.contains c := by
      funext c
      simp [Bool.beq_eq_decide_eq]
    rw [he]
    exact (yields_takeIf rfl fun _ _ => rfl).plain rfl
  exact yields_guarded rfl rfl rfl rfl hspace yields_nameChar

theorem yields_graphicStep :
    Yields grammar q graphicStep t s (takeOne (fun c => !isGap c) t) s := by
  have hany : Yields grammar q anyVisible t s (takeOne (fun _ => true) t) s :=
    (yields_takeIf rfl fun _ _ => rfl).plain rfl
  have := yields_guarded (h := graphicStep) rfl rfl rfl rfl yields_gap hany
  simpa only [Bool.and_true] using this

/-- The expression pushes the word that the direct reader finds. -/
def Pushes (h : Handle) (t : List Char) (s : Reductions) : Option (Body × List Char) → Prop
  | some (b, rest) => Yields grammar false h t s (.took rest) (s.push b)
  | none => Yields grammar false h t s .refused s

theorem pushes_run {h item : Handle} {p : Char → Bool} {mk : String → Body}
    (hn : grammar.arena.node? h = some (.oneOrMore item))
    (hi : ∀ t, Yields grammar false item t s (takeOne p t) s)
    (ha : grammar.actions.node h = some fun text st => st.push (mk text)) :
    Pushes h t s ((run p t).map fun (u, rest) => (mk u, rest)) := by
  cases t with
  | nil => exact yields_oneOrMore hn (yieldsMany_stop (hi []))
  | cons c t =>
    have hc := hi (c :: t)
    by_cases hp : p c
    · simp only [takeOne, hp, ite_true] at hc
      have hy := yields_oneOrMore hn
        (yieldsMany_step hc (List.cons_ne_self c t).symm (yieldsMany_takeOne hi))
      have htaken : taken (c :: t) (t.dropWhile p) = c :: t.takeWhile p := by
        have := taken_append (c :: t.takeWhile p) (t.dropWhile p)
        rwa [List.cons_append, List.takeWhile_append_dropWhile] at this
      simp only [ha, firedOn, htaken] at hy
      simpa [run, hp, Pushes] using hy
    · simp only [takeOne, hp, Bool.false_eq_true, ite_false] at hc
      simpa [run, hp, Pushes] using yields_oneOrMore hn (yieldsMany_stop hc)

theorem pushes_nameBody :
    Pushes nameBody t s ((run isNameChar t).map fun (u, rest) => (.name u, rest)) :=
  pushes_run rfl (fun _ => yields_nameChar) rfl

theorem pushes_bare : Pushes bare t s ((Direct.bare t).map fun (u, rest) => (.lit u, rest)) :=
  pushes_run rfl (fun _ => yields_bareStep) rfl

theorem pushes_graphic :
    Pushes graphic t s ((Direct.graphic t).map fun (u, rest) => (.lit u, rest)) :=
  pushes_run rfl (fun _ => yields_graphicStep) rfl

theorem yields_assigns :
    Yields grammar false assigns t s (.ofRest ((Direct.assigns t).map (·.2)))
      (match Direct.assigns t with
        | some (m, _) => { s with mode := m }
        | none => s) := by
  refine (yields_choice rfl ?_).plain rfl
  unfold Direct.assigns
  split
  · rename_i t
    exact yieldsFirst_head (yields_literal ":==" rfl t) nofun
  · rename_i t
    refine yieldsFirst_cons (yields_literal_refused rfl ?_)
      (yieldsFirst_head (yields_literal "::=" rfl t) nofun)
    rintro ⟨r, hr⟩
    cases hr
  · rename_i h₁ h₂
    refine yieldsFirst_cons (yields_literal_refused rfl ?_)
      (yieldsFirst_cons (yields_literal_refused rfl ?_) yieldsFirst_nil)
    · rintro ⟨r, rfl⟩; exact h₁ r rfl
    · rintro ⟨r, rfl⟩; exact h₂ r rfl

theorem yields_stop : Yields grammar q stop t s (.ofRest (Direct.stop t)) s := by
  have hb : Yields grammar q blankLine t s (.ofRest (Direct.blankLine t)) s :=
    (yields_sequence rfl yieldsAll_eols).plain rfl
  have hany : Yields grammar true anyChar t s (takeOne (fun _ => true) t) s :=
    (yields_takeIf rfl fun _ _ => rfl).plain rfl
  have he : Yields grammar q eof t s _ s := (yields_notAhead rfl hany).plain rfl
  refine (yields_choice rfl ?_).plain rfl
  unfold Direct.stop
  cases hbl : Direct.blankLine t with
  | some r =>
    rw [hbl] at hb
    exact yieldsFirst_head hb nofun
  | none =>
    rw [hbl] at hb
    cases t with
    | nil => exact yieldsFirst_cons hb (yieldsFirst_head he nofun)
    | cons c t => exact yieldsFirst_cons hb (yieldsFirst_cons he yieldsFirst_nil)

/-! ## Quoted literals -/

/-- What the repetition inside the quotes leaves over. -/
def quotedRest : List Char → List Char
  | '\\' :: e :: t => if (escaped? e).isSome then quotedRest t else '\\' :: e :: t
  | c :: t => if c = '"' ∨ c = '\\' then c :: t else quotedRest t
  | [] => []

theorem contains_escapable (c : Char) :
    "\\\"rntvf".toList.contains c = (escaped? c).isSome := by
  have he : "\\\"rntvf".toList = ['\\', '"', 'r', 'n', 't', 'v', 'f'] := rfl
  unfold escaped?
  split <;> simp_all

theorem yields_escape (e : Char) (t : List Char) :
    Yields grammar q escape ('\\' :: e :: t) s
      (if (escaped? e).isSome then .took t else .refused) s := by
  have hb : Yields grammar q backslash ('\\' :: e :: t) s (.took (e :: t)) s :=
    yields_symbol (c := '\\') rfl rfl rfl
  have he : Yields grammar q escapable (e :: t) s
      (takeOne (fun c => "\\\"rntvf".toList.contains c) (e :: t)) s :=
    (yields_takeIf rfl fun _ _ => rfl).plain rfl
  simp only [takeOne, contains_escapable] at he
  exact (yields_sequence rfl (yieldsAll_cons hb (yieldsAll_single he))).plain rfl

theorem yields_escape_refused {t : List Char} (ht : ∀ e r, t ≠ '\\' :: e :: r) :
    Yields grammar q escape t s .refused s := by
  refine (yields_sequence rfl ?_).plain rfl
  have hb : Yields grammar q backslash t s (.ofRest (symbol '\\' t)) s := yields_symbol rfl rfl rfl
  cases t with
  | nil => exact yieldsAll_refused hb
  | cons c r =>
    by_cases hc : c = '\\'
    · obtain rfl : r = [] := by
        cases r with
        | nil => rfl
        | cons e r => exact absurd (hc ▸ rfl) (ht e r)
      have he : Yields grammar q escapable [] s
          (takeOne (fun c => "\\\"rntvf".toList.contains c) []) s :=
        (yields_takeIf rfl fun _ _ => rfl).plain rfl
      rw [symbol, if_pos hc] at hb
      exact yieldsAll_cons hb (yieldsAll_refused he)
    · rw [symbol, if_neg hc] at hb
      exact yieldsAll_refused hb

theorem yields_unescaped : Yields grammar q unescaped t s
    (takeOne (fun c => !(c == '"' || c == '\\')) t) s := by
  have he : (fun c : Char => !(c == '"' || c == '\\')) = fun c => !"\"\\".toList.contains c := by
    funext c
    simp [Bool.beq_eq_decide_eq]
  rw [he]
  exact (yields_takeIf rfl fun _ _ => rfl).plain rfl

theorem yieldsMany_quotedStep :
    YieldsMany grammar q quotedStep true t s (.took (quotedRest t)) s := by
  have step {t v} (h : YieldsFirst grammar q [escape, unescaped] t s v s) :
      Yields grammar q quotedStep t s v s :=
    (yields_choice rfl h).plain rfl
  induction t using quotedRest.induct with
  | case1 e t he ih =>
    have hesc := yields_escape (q := q) (s := s) e t
    rw [he] at hesc
    rw [quotedRest, if_pos he]
    refine yieldsMany_step (step (yieldsFirst_head hesc (by simp))) ?_ ih
    intro h
    have := congrArg List.length h
    simp only [List.length_cons] at this
    omega
  | case2 e t he =>
    have hesc := yields_escape (q := q) (s := s) e t
    rw [if_neg he] at hesc
    rw [quotedRest, if_neg he]
    exact yieldsMany_stop (step (yieldsFirst_cons hesc (yieldsFirst_cons yields_unescaped
      yieldsFirst_nil)))
  | case3 c t hne hc =>
    have hesc := yields_escape_refused (q := q) (s := s) (t := c :: t)
      fun e r h => hne e r (List.cons.inj h).1 (List.cons.inj h).2
    have hun := yields_unescaped (q := q) (s := s) (t := c :: t)
    have hcb : (c == '"' || c == '\\') = true := by simpa using hc
    simp only [takeOne, hcb, Bool.not_true, Bool.false_eq_true, ite_false] at hun
    rw [quotedRest, if_pos hc]
    · exact yieldsMany_stop (step (yieldsFirst_cons hesc (yieldsFirst_cons hun yieldsFirst_nil)))
    · exact hne
  | case4 c t hne hc ih =>
    have hesc := yields_escape_refused (q := q) (s := s) (t := c :: t)
      fun e r h => hne e r (List.cons.inj h).1 (List.cons.inj h).2
    have hun := yields_unescaped (q := q) (s := s) (t := c :: t)
    have hcb : (c == '"' || c == '\\') = false := by simpa using hc
    simp only [takeOne, hcb, Bool.not_false, ite_true] at hun
    rw [quotedRest, if_neg hc]
    · exact yieldsMany_step (step (yieldsFirst_cons hesc (yieldsFirst_head hun (by simp))))
        (List.cons_ne_self c t).symm ih
    · exact hne
  | case5 =>
    refine yieldsMany_stop (step (yieldsFirst_cons (yields_escape_refused (by simp))
      (yieldsFirst_cons yields_unescaped yieldsFirst_nil)))

/-- The direct reader stops where the repetition does, and resolves what lies before as a whole. -/
theorem quotedText_spec (t : List Char) :
    match Direct.quotedText t with
    | some (u, rest) => quotedRest t = '"' :: rest ∧ ∃ w, t = w ++ '"' :: rest ∧ unescape w = u
    | none => symbol '"' (quotedRest t) = none := by
  induction t using Direct.quotedText.induct with
  | case1 t => exact ⟨rfl, [], rfl, rfl⟩
  | case2 e t ih =>
    simp only [Direct.quotedText, quotedRest]
    cases he : escaped? e with
    | none => rfl
    | some c =>
      simp only [Option.isSome_some, ite_true, Option.bind_eq_bind, Option.bind_some]
      cases hq : Direct.quotedText t with
      | none => rw [hq] at ih; exact ih
      | some r =>
        rw [hq] at ih
        obtain ⟨hr, w, hw, hu⟩ := ih
        refine ⟨hr, '\\' :: e :: w, by rw [hw]; rfl, ?_⟩
        simp only [unescape, he, hu]
  | case3 => rfl
  | case4 c t hq hb hs ih =>
    have hc := ne_backslash_of_cases hb hs
    have hne : ∀ (e : Char) (r : List Char), c = '\\' → t = e :: r → False :=
      fun _ _ h _ => hc h
    rw [Direct.quotedText, quotedRest, if_neg (not_or_intro hq hc)]
    · simp only [Option.bind_eq_bind]
      cases hq : Direct.quotedText t with
      | none => rw [hq] at ih; exact ih
      | some r =>
        rw [hq] at ih
        obtain ⟨hr, w, hw, hu⟩ := ih
        refine ⟨hr, c :: w, by rw [hw]; rfl, ?_⟩
        rw [unescape_cons_of_ne hc, hu]
    · exact hne
    · exact hq
    · exact hne
    · exact hs
  | case5 => rfl

theorem unquote_quoted (w : List Char) : Bnf.unquote ('"' :: (w ++ ['"'])) = unescape w := by
  simp [Bnf.unquote]

theorem pushes_quoted : Pushes quoted t s ((Direct.quoted t).map fun (u, rest) => (.lit u, rest)) := by
  have hopen : Yields grammar false quote t s (.ofRest (symbol '"' t)) s := yields_symbol rfl rfl rfl
  have hclose (t) : Yields grammar false unquote t s (.ofRest (symbol '"' t)) s :=
    yields_symbol rfl rfl rfl
  have htext (t) : Yields grammar false quotedText t s (.took (quotedRest t)) s :=
    (yields_zeroOrMore rfl yieldsMany_quotedStep).plain rfl
  cases hs : symbol '"' t with
  | none =>
    rw [hs] at hopen
    have : Direct.quoted t = none := by simp [Direct.quoted, hs]
    rw [this]
    exact yields_sequence rfl (yieldsAll_refused hopen)
  | some t₁ =>
    rw [hs] at hopen
    have ht : t = '"' :: t₁ := symbol_eq_some hs
    have hspec := quotedText_spec t₁
    cases hq : Direct.quotedText t₁ with
    | none =>
      have hc := hclose (quotedRest t₁)
      rw [hq] at hspec
      rw [hspec] at hc
      have : Direct.quoted t = none := by simp [Direct.quoted, hs, hq]
      rw [this]
      exact yields_sequence rfl
        (yieldsAll_cons hopen (yieldsAll_cons (htext t₁) (yieldsAll_refused hc)))
    | some r =>
      obtain ⟨u, rest⟩ := r
      rw [hq] at hspec
      obtain ⟨hr, w, hw, hu⟩ := hspec
      have : Direct.quoted t = some (String.ofList u, rest) := by simp [Direct.quoted, hs, hq]
      rw [this]
      have htext₁ := htext t₁
      rw [hr] at htext₁
      have hc : Yields grammar false unquote ('"' :: rest) s (.took rest) s := hclose ('"' :: rest)
      have hy := yields_sequence (h := quoted) rfl
        (yieldsAll_cons hopen (yieldsAll_cons htext₁ (yieldsAll_single hc)))
      have htaken : taken t rest = '"' :: (w ++ ['"']) := by
        have := taken_append ('"' :: (w ++ ['"'])) rest
        rwa [List.cons_append, List.append_assoc, List.singleton_append, ← hw, ← ht] at this
      have hfired : firedOn false (grammar.actions.node quoted) t s (.took rest) =
          s.push (.lit (String.ofList u)) := by
        change s.push (.lit (String.ofList (Bnf.unquote (String.ofList (taken t rest)).toList))) = _
        rw [htaken, String.toList_ofList, unquote_quoted, hu]
      rw [hfired] at hy
      exact hy

/-! ## Names -/

/-- The state with these bodies on top of the stack, the last one pushed first. -/
def atop (s : Reductions) (bs : List Body) : Reductions :=
  { s with stack := bs.map .body ++ s.stack }

@[simp] theorem atop_nil (s : Reductions) : atop s [] = s :=
  rfl

theorem atop_atop (s : Reductions) (bs cs : List Body) : atop (atop s bs) cs = atop s (cs ++ bs) := by
  simp [atop]

theorem push_eq_atop (s : Reductions) (b : Body) : s.push b = atop s [b] :=
  rfl

/-- A name that is not closed stays on the stack. -/
theorem yields_name :
    match Direct.name t with
    | some (n, rest) => Yields grammar false name t s (.took rest) (s.push (.name n))
    | none => ∃ js, Yields grammar false name t s .refused (atop s js) ∧
        (js = [] ↔ (symbol '<' t).bind (run isNameChar) = none) := by
  have hless : Yields grammar false less t s (.ofRest (symbol '<' t)) s := yields_symbol rfl rfl rfl
  have node {v s'} (h : YieldsAll grammar false [less, nameBody, greater] t s v s') :
      Yields grammar false name t s v s' :=
    (yields_sequence rfl h).plain rfl
  cases hs : symbol '<' t with
  | none =>
    rw [hs] at hless
    simp only [Direct.name, hs, Option.bind_eq_bind, Option.bind_none]
    exact ⟨[], node (yieldsAll_refused hless), iff_of_true rfl trivial⟩
  | some t₁ =>
    rw [hs] at hless
    have hbody := pushes_nameBody (t := t₁) (s := s)
    cases hr : run isNameChar t₁ with
    | none =>
      rw [hr] at hbody
      simp only [Direct.name, hs, hr, Option.bind_eq_bind, Option.bind_some, Option.bind_none]
      exact ⟨[], node (yieldsAll_cons hless (yieldsAll_refused hbody)), iff_of_true rfl trivial⟩
    | some r =>
      obtain ⟨n, t₂⟩ := r
      rw [hr] at hbody
      have hgreater : Yields grammar false greater t₂ (s.push (.name n)) (.ofRest (symbol '>' t₂))
          (s.push (.name n)) :=
        yields_symbol rfl rfl rfl
      have hall := yieldsAll_cons hless (yieldsAll_cons hbody (yieldsAll_single hgreater))
      cases hg : symbol '>' t₂ with
      | none =>
        rw [hg] at hall
        simp only [Direct.name, hs, hr, hg, Option.bind_eq_bind, Option.bind_some, Option.bind_none]
        exact ⟨[.name n], node hall, iff_of_false (List.cons_ne_nil _ _) (Option.some_ne_none _)⟩
      | some t₃ =>
        rw [hg] at hall
        simp only [Direct.name, hs, hr, hg, Option.bind_eq_bind, Option.bind_some]
        exact node hall

end Peg.Bnf.Layout
