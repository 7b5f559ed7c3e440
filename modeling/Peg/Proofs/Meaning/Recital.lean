import Peg.Proofs.Meaning.Interpreter

/-!
# What rules say on the way

The rules are interpreted as they stand once more, and this time each match of a defined rule is
written down when it is complete: those that are given up later as well, and the white space between
the members of a sequence.
-/

namespace Peg.Bnf

def noted (n : String) (t : List Char) : Verdict → List (String × String)
  | .took rest => [(n, String.ofList (taken t rest))]
  | _ => []

/-- The goal comes to a verdict on a text, and these are the matches of defined rules. -/
inductive Recital (defs : Definitions) (o : Options) (outer : String → List Char → Verdict → Prop) :
    Mode → Goal → List Char → Verdict → List (String × String) → Prop
  | litTook {m : Mode} {text : String} {t rest : List Char} (h : t = text.toList ++ rest) :
    Recital defs o outer m (.body (.lit text)) t (.took rest) []
  | litRefused {m : Mode} {text : String} {t : List Char} (h : ¬text.toList <+: t) :
    Recital defs o outer m (.body (.lit text)) t .refused []
  | defined {m : Mode} {n : String} {d : Definition} {t : List Char} {v : Verdict}
    {log : List (String × String)} (hd : defs[n]? = some d)
    (h : Recital defs o outer d.mode (.body d.body) t v log) :
    Recital defs o outer m (.body (.name n)) t v (log ++ noted n t v)
  | outer {m : Mode} {n : String} {t : List Char} {v : Verdict}
    (hd : defs[n]? = none) (h : outer n t v) : Recital defs o outer m (.body (.name n)) t v []
  | optHead {m : Mode} {b : Body} {t : List Char} {v : Verdict} {log : List (String × String)}
    (h : Recital defs o outer m (.body b) t v log) (hv : v ≠ .refused) :
    Recital defs o outer m (.body (.opt b)) t v log
  | optNothing {m : Mode} {b : Body} {t : List Char} {log : List (String × String)}
    (h : Recital defs o outer m (.body b) t .refused log) :
    Recital defs o outer m (.body (.opt b)) t (.took t) log
  | plus {m : Mode} {b : Body} {t : List Char} {v : Verdict} {log : List (String × String)}
    (h : Recital defs o outer m (.more b false) t v log) :
    Recital defs o outer m (.body (.plus b)) t v log
  | conj {m : Mode} {bs : List Body} {t : List Char} {v : Verdict} {log : List (String × String)}
    (h : Recital defs o outer m (.all (o.spaced m bs)) t v log) :
    Recital defs o outer m (.body (.conj bs)) t v log
  | disj {m : Mode} {bs : List Body} {t : List Char} {v : Verdict} {log : List (String × String)}
    (h : Recital defs o outer m (.first bs) t v log) :
    Recital defs o outer m (.body (.disj bs)) t v log
  | allNil {m : Mode} {t : List Char} : Recital defs o outer m (.all []) t (.took t) []
  | allCons {m : Mode} {b : Body} {bs : List Body} {t t' : List Char} {v : Verdict}
    {log log' : List (String × String)} (h : Recital defs o outer m (.body b) t (.took t') log)
    (hs : Recital defs o outer m (.all bs) t' v log') :
    Recital defs o outer m (.all (b :: bs)) t v (log ++ log')
  | allStop {m : Mode} {b : Body} {bs : List Body} {t : List Char} {v : Verdict}
    {log : List (String × String)} (h : Recital defs o outer m (.body b) t v log)
    (hv : ∀ t', v ≠ .took t') : Recital defs o outer m (.all (b :: bs)) t v log
  | firstNil {m : Mode} {t : List Char} : Recital defs o outer m (.first []) t .refused []
  | firstCons {m : Mode} {b : Body} {bs : List Body} {t : List Char} {v : Verdict}
    {log log' : List (String × String)} (h : Recital defs o outer m (.body b) t .refused log)
    (hs : Recital defs o outer m (.first bs) t v log') :
    Recital defs o outer m (.first (b :: bs)) t v (log ++ log')
  | firstHead {m : Mode} {b : Body} {bs : List Body} {t : List Char} {v : Verdict}
    {log : List (String × String)} (h : Recital defs o outer m (.body b) t v log)
    (hv : v ≠ .refused) : Recital defs o outer m (.first (b :: bs)) t v log
  | moreStop {m : Mode} {b : Body} {enough : Bool} {t : List Char} {log : List (String × String)}
    (h : Recital defs o outer m (.body b) t .refused log) :
    Recital defs o outer m (.more b enough) t (if enough then .took t else .refused) log
  | moreFault {m : Mode} {b : Body} {enough : Bool} {t : List Char} {e : Fault}
    {log : List (String × String)} (h : Recital defs o outer m (.body b) t (.fault e) log) :
    Recital defs o outer m (.more b enough) t (.fault e) log
  | moreIdle {m : Mode} {b : Body} {enough : Bool} {t : List Char} {log : List (String × String)}
    (h : Recital defs o outer m (.body b) t (.took t) log) :
    Recital defs o outer m (.more b enough) t (.took t) log
  | moreStep {m : Mode} {b : Body} {enough : Bool} {t t' : List Char} {v : Verdict}
    {log log' : List (String × String)} (h : Recital defs o outer m (.body b) t (.took t') log)
    (hne : t' ≠ t) (hs : Recital defs o outer m (.more b true) t' v log') :
    Recital defs o outer m (.more b enough) t v (log ++ log')

/-- Writing down the matches does not change the verdicts. -/
theorem meaning_iff_recital {defs : Definitions} {o : Options}
    {outer : String → List Char → Verdict → Prop} {m : Mode} {goal : Goal} {t : List Char}
    {v : Verdict} : Meaning defs o outer m goal t v ↔ ∃ log, Recital defs o outer m goal t v log := by
  constructor
  · intro h
    induction h with
    | litTook h => exact ⟨_, .litTook h⟩
    | litRefused h => exact ⟨_, .litRefused h⟩
    | defined hd _ ih => exact ⟨_, .defined hd ih.choose_spec⟩
    | outer hd h => exact ⟨_, .outer hd h⟩
    | optHead _ hv ih => exact ⟨_, .optHead ih.choose_spec hv⟩
    | optNothing _ ih => exact ⟨_, .optNothing ih.choose_spec⟩
    | plus _ ih => exact ⟨_, .plus ih.choose_spec⟩
    | conj _ ih => exact ⟨_, .conj ih.choose_spec⟩
    | disj _ ih => exact ⟨_, .disj ih.choose_spec⟩
    | allNil => exact ⟨_, .allNil⟩
    | allCons _ _ ih ihs => exact ⟨_, .allCons ih.choose_spec ihs.choose_spec⟩
    | allStop _ hv ih => exact ⟨_, .allStop ih.choose_spec hv⟩
    | firstNil => exact ⟨_, .firstNil⟩
    | firstCons _ _ ih ihs => exact ⟨_, .firstCons ih.choose_spec ihs.choose_spec⟩
    | firstHead _ hv ih => exact ⟨_, .firstHead ih.choose_spec hv⟩
    | moreStop _ ih => exact ⟨_, .moreStop ih.choose_spec⟩
    | moreFault _ ih => exact ⟨_, .moreFault ih.choose_spec⟩
    | moreIdle _ ih => exact ⟨_, .moreIdle ih.choose_spec⟩
    | moreStep _ hne _ ih ihs => exact ⟨_, .moreStep ih.choose_spec hne ihs.choose_spec⟩
  · rintro ⟨log, h⟩
    induction h with
    | litTook h => exact .litTook h
    | litRefused h => exact .litRefused h
    | defined hd _ ih => exact .defined hd ih
    | outer hd h => exact .outer hd h
    | optHead _ hv ih => exact .optHead ih hv
    | optNothing _ ih => exact .optNothing ih
    | plus _ ih => exact .plus ih
    | conj _ ih => exact .conj ih
    | disj _ ih => exact .disj ih
    | allNil => exact .allNil
    | allCons _ _ ih ihs => exact .allCons ih ihs
    | allStop _ hv ih => exact .allStop ih hv
    | firstNil => exact .firstNil
    | firstCons _ _ ih ihs => exact .firstCons ih ihs
    | firstHead _ hv ih => exact .firstHead ih hv
    | moreStop _ ih => exact .moreStop ih
    | moreFault _ ih => exact .moreFault ih
    | moreIdle _ ih => exact .moreIdle ih
    | moreStep _ hne _ ih ihs => exact .moreStep ih hne ihs

end Peg.Bnf
