import Peg.Text.Identifier
import Peg.Text.WhiteSpace

/-!
# Character classes

The classes of characters that are too large to be spelled out as a set.
-/

namespace Peg

inductive CharClass
  | whiteSpace
  | xidStart
  | xidContinue
  deriving DecidableEq, Repr

def CharClass.contains : CharClass → Char → Bool
  | .whiteSpace, c => isWhiteSpace c
  | .xidStart, c => Peg.xidStart.contains c
  | .xidContinue, c => Peg.xidContinue.contains c

end Peg
