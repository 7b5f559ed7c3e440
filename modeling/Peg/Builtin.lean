import Peg.Arena.Build
import Peg.Grammar

/-!
# Builtin rules

Rules that the text of a grammar commonly leaves undefined.
-/

namespace Peg.Builtin

open Building

/-- The builtin rules, in the order of their names: any character, the end of the text, white
space, and an identifier. -/
def init : Building RuleTable := do
  let dot ← any
  let eoi ← notAhead (← any)
  -- zero or more, so it never fails
  let whiteSpace ← star (← charClass .whiteSpace)
  let first ← charClass .xidStart
  let underscore ← oneOf "_"
  let further ← charClass .xidContinue
  let identifier ← seq [← choice [first, underscore], ← star further]
  return .ofList [("Dot", dot), ("EOI", eoi), ("WHITESPACE", whiteSpace),
    ("XID_IDENTIFIER", identifier)]

/-- The rules of `table` among `names`. -/
def among (table : RuleTable) (names : List String) : RuleTable :=
  table.filter fun name _ => names.contains name

end Peg.Builtin
