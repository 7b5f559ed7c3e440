import Peg.Bnf.Basic
import Peg.Bnf.Quoted

/-!
# The text of a rule

Braces stand around members that would otherwise read as part of the list that they are in.
-/

namespace Peg.Bnf

def braced (text : List Char) : List Char :=
  "\x7b ".toList ++ text ++ " \x7d".toList

mutual

def Body.render : Body → List Char
  | .name n => '<' :: n.toList ++ ['>']
  | .lit text => quote text.toList
  | .opt b => "[ ".toList ++ b.render ++ " ]".toList
  | .plus b => (if b.isPrimary then b.render else braced b.render) ++ "...".toList
  | .conj bs => renderList " ".toList (fun b => b.isConj || b.isDisj) bs
  | .disj bs => renderList " | ".toList Body.isDisj bs

/-- The members of a list with `sep` between them, in braces where `wrap` says so. -/
def renderList (sep : List Char) (wrap : Body → Bool) : List Body → List Char
  | [] => []
  | [b] => if wrap b then braced b.render else b.render
  | b :: bs => (if wrap b then braced b.render else b.render) ++ sep ++ renderList sep wrap bs

end

def Mode.sign : Mode → String
  | .strict => ":=="
  | .loose => "::="

def Definition.render (d : Definition) : String :=
  d.mode.sign ++ " " ++ String.ofList d.body.render

/-- The text of the whole rule. -/
def Definition.renderAs (d : Definition) (name : String) : String :=
  "<" ++ name ++ "> " ++ d.render

end Peg.Bnf
