import Peg.Regex.CharSet
import Peg.Text.Utf8

/-!
# Regular expressions

Expressions are kept in a simple form, which the functions that build them see to: texts next to
each other are one text, a choice between characters is a set, and what all branches of a choice
begin with stands before the choice. The last of these can change which match is preferred, when
what is taken out can itself match in more than one way.
-/

namespace Peg

/-- Conditions on a position, given by the characters on its two sides. A line may also end in a
carriage return, alone or before a line feed; the letters and digits of a word may be ASCII only. -/
inductive Look
  | textStart
  | textEnd
  | lineStart (crlf : Bool)
  | lineEnd (crlf : Bool)
  | wordBoundary (ascii : Bool)
  | notWordBoundary (ascii : Bool)
  | wordStart (ascii : Bool)
  | wordEnd (ascii : Bool)
  | wordStartHalf (ascii : Bool)
  | wordEndHalf (ascii : Bool)
  deriving DecidableEq

def isAsciiWordChar (c : Char) : Bool :=
  c.isAlphanum || c == '_'

def inWord (ascii : Bool) (c : Option Char) : Bool :=
  c.any (if ascii then isAsciiWordChar else isWordChar)

def Look.holds (before after : Option Char) : Look → Bool
  | textStart => before.isNone
  | textEnd => after.isNone
  | lineStart false => before.all (· == '\n')
  | lineStart true => before.all (· == '\n') || before == some '\r' && after != some '\n'
  | lineEnd false => after.all (· == '\n')
  | lineEnd true => after.all (· == '\r') || after == some '\n' && before != some '\r'
  | wordBoundary ascii => inWord ascii before != inWord ascii after
  | notWordBoundary ascii => inWord ascii before == inWord ascii after
  | wordStart ascii => !inWord ascii before && inWord ascii after
  | wordEnd ascii => inWord ascii before && !inWord ascii after
  | wordStartHalf ascii => !inWord ascii before
  | wordEndHalf ascii => !inWord ascii after

/-- A repetition is of `min` times, with up to `more` on top. A greedy one prefers to go on, a lazy one
to stop. Groups that capture are numbered. -/
inductive Re
  | empty
  | text (cs : List Char)
  | set (s : CharSet)
  | look (l : Look)
  | rep (min : Nat) (more : Option Nat) (greedy : Bool) (r : Re)
  | group (index : Nat) (r : Re)
  | seq (rs : List Re)
  | alt (rs : List Re)

namespace Re

/-! ## Equality -/

mutual

def beq : Re → Re → Bool
  | empty, empty => true
  | text a, text b => a == b
  | set s, set t => s == t
  | look l, look m => l == m
  | rep a b g r, rep c d h s => a == c && b == d && g == h && r.beq s
  | group i r, group j s => i == j && r.beq s
  | seq rs, seq ss => beqList rs ss
  | alt rs, alt ss => beqList rs ss
  | _, _ => false

def beqList : List Re → List Re → Bool
  | [], [] => true
  | r :: rs, s :: ss => r.beq s && beqList rs ss
  | _, _ => false

end

/-! ## Lengths of matches -/

/-- The sum of two lengths, if both are known. -/
def addLength : Option Nat → Option Nat → Option Nat
  | some a, some b => some (a + b)
  | _, _ => none

mutual

/-- The least number of bytes of a match; none is given if there may be no match. -/
def minBytes : Re → Option Nat
  | empty | look _ => some 0
  | text cs => some (byteLength cs)
  | set s => s.minBytes
  | rep min _ _ r => r.minBytes.map (· * min)
  | group _ r => r.minBytes
  | seq rs => sumMinBytes rs
  | alt rs => leastMinBytes rs

def sumMinBytes : List Re → Option Nat
  | [] => some 0
  | r :: rs => addLength r.minBytes (sumMinBytes rs)

def leastMinBytes : List Re → Option Nat
  | [] => none
  | [r] => r.minBytes
  | r :: rs =>
    match r.minBytes, leastMinBytes rs with
    | some a, some b => some (min a b)
    | _, _ => none

end

mutual

/-- The greatest number of bytes of a match, if there is one. -/
def maxBytes : Re → Option Nat
  | empty | look _ => some 0
  | text cs => some (byteLength cs)
  | set s => s.maxBytes
  | rep min more _ r => more.bind fun n => r.maxBytes.map (· * (min + n))
  | group _ r => r.maxBytes
  | seq rs => sumMaxBytes rs
  | alt rs => greatestMaxBytes rs

def sumMaxBytes : List Re → Option Nat
  | [] => some 0
  | r :: rs => addLength r.maxBytes (sumMaxBytes rs)

def greatestMaxBytes : List Re → Option Nat
  | [] => none
  | [r] => r.maxBytes
  | r :: rs =>
    match r.maxBytes, greatestMaxBytes rs with
    | some a, some b => some (max a b)
    | _, _ => none

end

/-! ## Building expressions -/

def ofSet (s : CharSet) : Re :=
  match s.single? with
  | some c => text [c]
  | none => set s

/-- What matches nothing but the empty text needs to be matched at most once. -/
def repeated (min : Nat) (max : Option Nat) (greedy : Bool) (r : Re) : Re :=
  let (min, max) :=
    if r.maxBytes = some 0 then (Nat.min min 1, some ((max.getD 1).min 1)) else (min, max)
  if min = 0 ∧ max = some 0 then empty
  else if min = 1 ∧ max = some 1 then r
  else rep min (max.map (· - min)) greedy r

/-- The members of a sequence that `r` stands for. -/
def members : Re → List Re
  | empty => []
  | seq rs => rs
  | r => [r]

/-- Puts texts next to each other together. -/
def joinTexts : List Re → List Re
  | [] => []
  | text cs :: rs =>
    match joinTexts rs with
    | text ds :: rs => text (cs ++ ds) :: rs
    | rs => text cs :: rs
  | r :: rs => r :: joinTexts rs

def sequence (rs : List Re) : Re :=
  match joinTexts (rs.flatMap members) with
  | [] => empty
  | [r] => r
  | rs => seq rs

/-- The branches of a choice that `r` stands for. -/
def branches : Re → List Re
  | alt rs => rs
  | r => [r]

/-- The set that a choice between single characters, or one between sets, comes to. -/
def choiceSet? (rs : List Re) : Option CharSet :=
  let chars := rs.mapM fun
    | text [c] => some (CharSet.single c)
    | _ => none
  let sets := rs.mapM fun
    | set s => some s
    | _ => none
  (chars.or sets).map fun ss => ss.foldl CharSet.union []

/-- What two lists begin with in common. -/
def commonStart : List Re → List Re → List Re
  | r :: rs, s :: ss => if r.beq s then r :: commonStart rs ss else []
  | _, _ => []

/-- What all branches begin with, if all are sequences. -/
def sharedStart : List Re → List Re
  | [] => []
  | [seq rs] => rs
  | seq rs :: branches => commonStart rs (sharedStart branches)
  | _ => []

/-- A choice as it is, but for sets. -/
def choose (rs : List Re) : Re :=
  match rs.flatMap branches with
  | [] => set []
  | [r] => r
  | rs =>
    match choiceSet? rs with
    | some s => ofSet s
    | none => alt rs

/-- A choice, with what all its branches begin with before it. -/
def choice (rs : List Re) : Re :=
  let rs := rs.flatMap branches
  match sharedStart rs with
  | [] => choose rs
  | start =>
    if rs.length ≤ 1 then choose rs
    else sequence (start ++ [choose (rs.map fun r => sequence (r.members.drop start.length))])

end Re

end Peg
