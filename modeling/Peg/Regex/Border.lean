import Peg.Regex.Basic

/-!
# Conditions at the borders of a match

What a sequence begins with is found in its first part, and in the next ones as long as the parts
before them take nothing; what it ends with, in the same way from the last part on. Every branch of
a choice has to begin or end with it.
-/

namespace Peg.Re

mutual

/-- Whether `l` has to hold where a match begins. -/
def beginsWith (l : Look) : Re → Bool
  | look m => l == m
  | rep min _ _ r => min != 0 && r.beginsWith l
  | group _ r => r.beginsWith l
  | seq rs => firstBeginsWith l rs
  | alt rs => allBeginWith l rs
  | empty | text _ | set _ => false

def firstBeginsWith (l : Look) : List Re → Bool
  | [] => false
  | r :: rs => r.beginsWith l || r.maxBytes == some 0 && firstBeginsWith l rs

def allBeginWith (l : Look) : List Re → Bool
  | [] => true
  | r :: rs => r.beginsWith l && allBeginWith l rs

end

mutual

/-- Whether `l` has to hold where a match ends. -/
def endsWith (l : Look) : Re → Bool
  | look m => l == m
  | rep min _ _ r => min != 0 && r.endsWith l
  | group _ r => r.endsWith l
  | seq rs => lastEndsWith l rs
  | alt rs => allEndWith l rs
  | empty | text _ | set _ => false

def lastEndsWith (l : Look) : List Re → Bool
  | [] => false
  | r :: rs => lastEndsWith l rs || r.endsWith l && rs.all (·.maxBytes == some 0)

def allEndWith (l : Look) : List Re → Bool
  | [] => true
  | r :: rs => r.endsWith l && allEndWith l rs

end

end Peg.Re
