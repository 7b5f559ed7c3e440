import Peg.Text.CaseFold
import Peg.Text.WhiteSpace
import Peg.Text.Word

/-!
# Sets of characters

The sets that a regular expression can name, as lists of ranges in order that neither overlap nor
touch, so that equal sets are equal lists.
-/

namespace Peg

abbrev CharSet := Ranges

namespace CharSet

/-! ## Building sets -/

/-- Adds the range from `lo` to `hi`. -/
def insert (lo hi : Nat) : CharSet → CharSet
  | [] => [(lo, hi)]
  | (a, b) :: s =>
    if hi + 1 < a then (lo, hi) :: (a, b) :: s
    else if b + 1 < lo then (a, b) :: insert lo hi s
    else insert (min lo a) (max hi b) s

def range (lo hi : Char) : CharSet :=
  [(lo.toNat, hi.toNat)]

def single (c : Char) : CharSet :=
  range c c

def union (s t : CharSet) : CharSet :=
  t.foldl (fun s (lo, hi) => insert lo hi s) s

def ofRanges (rs : List (Char × Char)) : CharSet :=
  rs.foldl (fun s (lo, hi) => insert lo.toNat hi.toNat s) []

/-! ## Complements

Between U+D7FF and U+E000 there are no characters. -/

def next (n : Nat) : Nat :=
  if n = 0xD7FF then 0xE000 else n + 1

def previous (n : Nat) : Nat :=
  if n = 0xE000 then 0xD7FF else n - 1

/-- The characters from `n` on that are not in the set. -/
def complFrom (n : Nat) : CharSet → CharSet
  | [] => if n ≤ 0x10FFFF then [(n, 0x10FFFF)] else []
  | (a, b) :: s => if n < a then (n, previous a) :: complFrom (next b) s else complFrom (next b) s

def compl (s : CharSet) : CharSet :=
  complFrom 0 s

def inter (s t : CharSet) : CharSet :=
  s.flatMap fun (a, b) =>
    t.filterMap fun (c, d) => if max a c ≤ min b d then some (max a c, min b d) else none

def diff (s t : CharSet) : CharSet :=
  inter s (compl t)

def symmDiff (s t : CharSet) : CharSet :=
  union (diff s t) (diff t s)

/-! ## Case -/

def containsNat (s : CharSet) (n : Nat) : Bool :=
  s.any fun (lo, hi) => lo ≤ n && n ≤ hi

/-- The characters that differ from a member in case only, perhaps only those of ASCII. -/
def anyCase (ascii : Bool) (s : CharSet) : CharSet :=
  let pairs := if ascii then casePairs.filter fun (c, d) => c < 128 && d < 128 else casePairs
  let folded := (pairs.filter fun (c, d) => s.containsNat c || s.containsNat d).map (·.2)
  let variants := (pairs.filter fun (_, d) => folded.contains d).map (·.1)
  (folded ++ variants).foldl (fun s n => insert n n s) s

/-! ## Members -/

/-- The only member. -/
def single? : CharSet → Option Char
  | [(a, b)] => if a = b then some (Char.ofNat a) else none
  | _ => none

/-- The least number of bytes that a member takes. -/
def minBytes (s : CharSet) : Option Nat :=
  s.head?.map fun (a, _) => (Char.ofNat a).utf8Size

/-- The greatest number of bytes that a member takes. -/
def maxBytes (s : CharSet) : Option Nat :=
  s.getLast?.map fun (_, b) => (Char.ofNat b).utf8Size

/-! ## Named sets -/

def digit : CharSet :=
  decimalDigits

def space : CharSet :=
  Peg.whiteSpace

def word : CharSet :=
  wordChars

def asciiDigit : CharSet :=
  ofRanges [('0', '9')]

def asciiSpace : CharSet :=
  ofRanges [('\t', '\r'), (' ', ' ')]

def asciiWord : CharSet :=
  ofRanges [('0', '9'), ('A', 'Z'), ('_', '_'), ('a', 'z')]

/-- The ASCII classes by name. -/
def named? : String → Option CharSet
  | "alnum" => ofRanges [('0', '9'), ('A', 'Z'), ('a', 'z')]
  | "alpha" => ofRanges [('A', 'Z'), ('a', 'z')]
  | "ascii" => ofRanges [('\x00', '\x7f')]
  | "blank" => ofRanges [('\t', '\t'), (' ', ' ')]
  | "cntrl" => ofRanges [('\x00', '\x1f'), ('\x7f', '\x7f')]
  | "digit" => asciiDigit
  | "graph" => ofRanges [('!', '~')]
  | "lower" => ofRanges [('a', 'z')]
  | "print" => ofRanges [(' ', '~')]
  | "punct" => ofRanges [('!', '/'), (':', '@'), ('[', '\x60'), ('\x7b', '~')]
  | "space" => asciiSpace
  | "upper" => ofRanges [('A', 'Z')]
  | "word" => asciiWord
  | "xdigit" => ofRanges [('0', '9'), ('A', 'F'), ('a', 'f')]
  | _ => none

end CharSet

end Peg
