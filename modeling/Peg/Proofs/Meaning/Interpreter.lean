import Peg.Bnf.RuleSet
import Peg.Proofs.Engine.Yields

/-!
# What rules mean

Rules are interpreted as they stand, without expressions: a name means the body that is defined for
it, in the mode of its own rule, and otherwise whatever `outer` says. Verdicts are those of parsing
expression grammars.
-/

namespace Peg.Bnf

namespace Options

/-- The rule that comes before each member of a sequence. -/
def spacer? (o : Options) (m : Mode) : Option String :=
  match m, o.spacing with
  | .loose, .interleave => o.whiteSpace
  | _, _ => none

def spaced (o : Options) (m : Mode) (bs : List Body) : List Body :=
  match o.spacer? m with
  | some ws => bs.flatMap ([.name ws, ·])
  | none => bs

end Options

inductive Goal
  | body (b : Body)
  | all (bs : List Body)
  | first (bs : List Body)
  | more (b : Body) (enough : Bool)

/-- The goal comes to a verdict on a text, in a rule of this mode. -/
inductive Meaning (defs : Definitions) (o : Options) (outer : String → List Char → Verdict → Prop) :
    Mode → Goal → List Char → Verdict → Prop
  | litTook {m : Mode} {text : String} {t rest : List Char} (h : t = text.toList ++ rest) :
    Meaning defs o outer m (.body (.lit text)) t (.took rest)
  | litRefused {m : Mode} {text : String} {t : List Char} (h : ¬text.toList <+: t) :
    Meaning defs o outer m (.body (.lit text)) t .refused
  | defined {m : Mode} {n : String} {d : Definition} {t : List Char} {v : Verdict}
    (hd : defs[n]? = some d) (h : Meaning defs o outer d.mode (.body d.body) t v) :
    Meaning defs o outer m (.body (.name n)) t v
  | outer {m : Mode} {n : String} {t : List Char} {v : Verdict}
    (hd : defs[n]? = none) (h : outer n t v) : Meaning defs o outer m (.body (.name n)) t v
  | optHead {m : Mode} {b : Body} {t : List Char} {v : Verdict}
    (h : Meaning defs o outer m (.body b) t v) (hv : v ≠ .refused) :
    Meaning defs o outer m (.body (.opt b)) t v
  | optNothing {m : Mode} {b : Body} {t : List Char}
    (h : Meaning defs o outer m (.body b) t .refused) :
    Meaning defs o outer m (.body (.opt b)) t (.took t)
  | plus {m : Mode} {b : Body} {t : List Char} {v : Verdict}
    (h : Meaning defs o outer m (.more b false) t v) : Meaning defs o outer m (.body (.plus b)) t v
  | conj {m : Mode} {bs : List Body} {t : List Char} {v : Verdict}
    (h : Meaning defs o outer m (.all (o.spaced m bs)) t v) :
    Meaning defs o outer m (.body (.conj bs)) t v
  | disj {m : Mode} {bs : List Body} {t : List Char} {v : Verdict}
    (h : Meaning defs o outer m (.first bs) t v) : Meaning defs o outer m (.body (.disj bs)) t v
  | allNil {m : Mode} {t : List Char} : Meaning defs o outer m (.all []) t (.took t)
  | allCons {m : Mode} {b : Body} {bs : List Body} {t t' : List Char} {v : Verdict}
    (h : Meaning defs o outer m (.body b) t (.took t'))
    (hs : Meaning defs o outer m (.all bs) t' v) : Meaning defs o outer m (.all (b :: bs)) t v
  | allStop {m : Mode} {b : Body} {bs : List Body} {t : List Char} {v : Verdict}
    (h : Meaning defs o outer m (.body b) t v) (hv : ∀ t', v ≠ .took t') :
    Meaning defs o outer m (.all (b :: bs)) t v
  | firstNil {m : Mode} {t : List Char} : Meaning defs o outer m (.first []) t .refused
  | firstCons {m : Mode} {b : Body} {bs : List Body} {t : List Char} {v : Verdict}
    (h : Meaning defs o outer m (.body b) t .refused)
    (hs : Meaning defs o outer m (.first bs) t v) : Meaning defs o outer m (.first (b :: bs)) t v
  | firstHead {m : Mode} {b : Body} {bs : List Body} {t : List Char} {v : Verdict}
    (h : Meaning defs o outer m (.body b) t v) (hv : v ≠ .refused) :
    Meaning defs o outer m (.first (b :: bs)) t v
  | moreStop {m : Mode} {b : Body} {enough : Bool} {t : List Char}
    (h : Meaning defs o outer m (.body b) t .refused) :
    Meaning defs o outer m (.more b enough) t (if enough then .took t else .refused)
  | moreFault {m : Mode} {b : Body} {enough : Bool} {t : List Char} {e : Fault}
    (h : Meaning defs o outer m (.body b) t (.fault e)) :
    Meaning defs o outer m (.more b enough) t (.fault e)
  | moreIdle {m : Mode} {b : Body} {enough : Bool} {t : List Char}
    (h : Meaning defs o outer m (.body b) t (.took t)) :
    Meaning defs o outer m (.more b enough) t (.took t)
  | moreStep {m : Mode} {b : Body} {enough : Bool} {t t' : List Char} {v : Verdict}
    (h : Meaning defs o outer m (.body b) t (.took t')) (hne : t' ≠ t)
    (hs : Meaning defs o outer m (.more b true) t' v) : Meaning defs o outer m (.more b enough) t v

section
variable {defs : Definitions} {o : Options} {outer : String → List Char → Verdict → Prop} {m : Mode}
  {b : Body} {t : List Char} {v : Verdict}

theorem Meaning.allSingle (h : Meaning defs o outer m (.body b) t v) :
    Meaning defs o outer m (.all [b]) t v := by
  cases v with
  | took rest => exact .allCons h .allNil
  | refused => exact .allStop h nofun
  | fault e => exact .allStop h nofun

theorem Meaning.firstSingle (h : Meaning defs o outer m (.body b) t v) :
    Meaning defs o outer m (.first [b]) t v := by
  by_cases hv : v = .refused
  · subst hv
    exact .firstCons h .firstNil
  · exact .firstHead h hv

end

/-- A text has one verdict at most. -/
theorem Meaning.unique {defs : Definitions} {o : Options}
    {outer : String → List Char → Verdict → Prop}
    (ho : ∀ n t v v', outer n t v → outer n t v' → v = v') {m : Mode} {goal : Goal} {t : List Char}
    {v v' : Verdict} (h : Meaning defs o outer m goal t v) (h' : Meaning defs o outer m goal t v') :
    v = v' := by
  induction h generalizing v' with
  | litTook h =>
    cases h' with
    | litTook h' => rw [List.append_cancel_left (h.symm.trans h')]
    | litRefused hn => exact absurd ⟨_, h.symm⟩ hn
  | litRefused hn =>
    cases h' with
    | litTook h' => exact absurd ⟨_, h'.symm⟩ hn
    | litRefused _ => rfl
  | defined hd _ ih =>
    cases h' with
    | defined hd' h' =>
      obtain rfl := Option.some.inj (hd.symm.trans hd')
      exact ih h'
    | outer hd' _ => cases hd.symm.trans hd'
  | outer hd h =>
    cases h' with
    | defined hd' _ => cases hd.symm.trans hd'
    | outer _ h' => exact ho _ _ _ _ h h'
  | optHead _ hv ih =>
    cases h' with
    | optHead h' _ => exact ih h'
    | optNothing h' => exact absurd (ih h') hv
  | optNothing _ ih =>
    cases h' with
    | optHead h' hv => exact absurd (ih h').symm hv
    | optNothing _ => rfl
  | plus _ ih =>
    cases h' with
    | plus h' => exact ih h'
  | conj _ ih =>
    cases h' with
    | conj h' => exact ih h'
  | disj _ ih =>
    cases h' with
    | disj h' => exact ih h'
  | allNil => cases h'; rfl
  | allCons _ _ ih ihs =>
    cases h' with
    | allCons h' hs' =>
      obtain rfl := Verdict.took.inj (ih h')
      exact ihs hs'
    | allStop h' hv => exact absurd (ih h').symm (hv _)
  | allStop _ hv ih =>
    cases h' with
    | allCons h' _ => exact absurd (ih h') (hv _)
    | allStop h' _ => exact ih h'
  | firstNil => cases h'; rfl
  | firstCons _ _ ih ihs =>
    cases h' with
    | firstCons _ hs' => exact ihs hs'
    | firstHead h' hv => exact absurd (ih h').symm hv
  | firstHead _ hv ih =>
    cases h' with
    | firstCons h' _ => exact absurd (ih h') hv
    | firstHead h' _ => exact ih h'
  | moreStop _ ih =>
    cases h' with
    | moreStop _ => rfl
    | moreFault h' => cases ih h'
    | moreIdle h' => cases ih h'
    | moreStep h' _ _ => cases ih h'
  | moreFault _ ih =>
    cases h' with
    | moreStop h' => cases ih h'
    | moreFault h' => exact ih h'
    | moreIdle h' => cases ih h'
    | moreStep h' _ _ => cases ih h'
  | moreIdle _ ih =>
    cases h' with
    | moreStop h' => cases ih h'
    | moreFault h' => cases ih h'
    | moreIdle _ => rfl
    | moreStep h' hne _ => exact absurd (Verdict.took.inj (ih h')).symm hne
  | moreStep _ hne _ ih ihs =>
    cases h' with
    | moreStop h' => cases ih h'
    | moreFault h' => cases ih h'
    | moreIdle h' => exact absurd (Verdict.took.inj (ih h')) hne
    | moreStep h' _ hs' =>
      obtain rfl := Verdict.took.inj (ih h')
      exact ihs hs'

end Peg.Bnf
