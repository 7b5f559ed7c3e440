import Peg.Regex.CharSet

/-!
# Sets of characters as sequences of byte ranges

The UTF-8 encodings of the characters of a set are covered by sequences of byte ranges: any choice
of one byte from each range of a sequence is the encoding of a member.
-/

namespace Peg.CharSet

/-- The characters whose encodings have one byte, two, three, and four. Those of three bytes have a
gap in them. -/
def byLength : CharSet :=
  [(0, 0x7F), (0x80, 0x7FF), (0x800, 0xD7FF), (0xE000, 0xFFFF), (0x10000, 0x10FFFF)]

/-- Cuts a range that spans several blocks of `n` into the end of a block, whole blocks, and the
beginning of a block. -/
def cutBlocks (n : Nat) : Nat × Nat → CharSet
  | (lo, hi) =>
    if lo / n = hi / n then [(lo, hi)]
    else
      let start := (lo + n - 1) / n * n
      let stop := (hi + 1) / n * n
      [(lo, start), (start, stop), (stop, hi + 1)].filterMap fun (a, b) =>
        if a < b then some (a, b - 1) else none

/-- A block holds the characters that differ in the last byte only, in the last two, or in the last
three. -/
def cutByBytes (r : Nat × Nat) : CharSet :=
  if r.2 ≤ 0x7F then [r]
  else (cutBlocks 64 r).flatMap fun r => (cutBlocks 4096 r).flatMap (cutBlocks 262144)

def encode (n : Nat) : List Nat :=
  (String.utf8EncodeChar (Char.ofNat n)).map UInt8.toNat

/-- The sequences in order. -/
def byteRanges (s : CharSet) : List (List (Nat × Nat)) :=
  ((s.inter byLength).flatMap cutByBytes).map fun (lo, hi) => (encode lo).zip (encode hi)

end Peg.CharSet
