/-!
# Patterns

A pattern is a regular expression that is tried at the start of a text. Its text is put into a
group behind the condition for the start; nothing else keeps a match there, so that a text which
closes the group itself can have branches beside the condition.

How regular expressions are read and searched for is left to a library.
-/

namespace Peg

/-- A library of regular expressions. It refuses a text, or searches for matches of the expression
that the text stands for: where the match in a text starts and stops, in characters. -/
class RegexLibrary where
  compile? : String → Option (List Char → Option (Nat × Nat))

structure Pattern where
  text : String
  search : List Char → Option (Nat × Nat)

def Pattern.anchor (text : String) : String :=
  "^(?:" ++ text ++ ")"

def Pattern.anchored (p : Pattern) : String :=
  anchor p.text

def Pattern.ofString? [RegexLibrary] (text : String) : Option Pattern :=
  (RegexLibrary.compile? (anchor text)).map (⟨text, ·⟩)

end Peg
