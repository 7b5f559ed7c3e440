import Peg.Regex.Basic

/-!
# Escapes and bracketed classes in the text of a regular expression

Every function takes the rest of the text and gives what stands at its front and what follows it,
or nothing if the text is ill-formed. In verbose text, white space and comments are skipped. A
number `n` that comes before the rest is no less than its length.
-/

namespace Peg.Regex

structure Flags where
  ignoreCase : Bool
  multiLine : Bool
  dotAll : Bool
  lazyFirst : Bool
  verbose : Bool
  crlf : Bool
  ascii : Bool
  deriving DecidableEq

def Flags.start : Flags :=
  ⟨false, false, false, false, false, false, false⟩

/-- Drops white space and comments; in a comment, everything up to the end of the line. -/
def dropBlank : (comment : Bool) → List Char → List Char
  | _, [] => []
  | true, c :: r => dropBlank (c != '\n') r
  | false, c :: r =>
    if isWhiteSpace c then dropBlank false r
    else if c = '#' then dropBlank true r
    else c :: r

def Flags.skip (f : Flags) (r : List Char) : List Char :=
  if f.verbose then dropBlank false r else r

/-! ## Sets

With the ASCII flag, sets consist of bytes, and those that are not ASCII are no characters. So no
set can be turned round: what is outside of it is not only text. -/

def withCase (f : Flags) (s : CharSet) : CharSet :=
  if f.ignoreCase then s.anyCase f.ascii else s

def signed? (f : Flags) (negated : Bool) (s : CharSet) : Option CharSet :=
  if negated then if f.ascii then none else some s.compl else some s

/-! ## Escapes -/

inductive Atom
  | char (c : Char)
  | set (s : CharSet)
  | look (l : Look)

/-- A character is no byte if it is not ASCII. -/
def Atom.fitsClass (f : Flags) : Atom → Bool
  | char c => !f.ascii || c.toNat < 128
  | set _ | look _ => true

/-- Characters that stand for themselves behind a backslash. -/
def isEscapable (c : Char) : Bool :=
  c.toNat < 128 && !c.isAlphanum && c != '<' && c != '>'

def charOf? (n : Nat) : Option Char :=
  if n.isValidChar then some (Char.ofNat n) else none

def hexValue? (c : Char) : Option Nat :=
  if c.isDigit then some (c.toNat - '0'.toNat)
  else if 'a' ≤ c ∧ c ≤ 'f' then some (c.toNat - 'a'.toNat + 10)
  else if 'A' ≤ c ∧ c ≤ 'F' then some (c.toNat - 'A'.toNat + 10)
  else none

def hexDigits? (f : Flags) : (n acc : Nat) → List Char → Option (Nat × List Char)
  | 0, acc, r => some (acc, r)
  | _ + 1, _, [] => none
  | n + 1, acc, c :: r => do hexDigits? f n (acc * 16 + (← hexValue? c)) (f.skip r)

/-- The digits up to the closing brace; `n` bounds their number. -/
def hexUntilBrace? (f : Flags) : (n : Nat) → Option Nat → List Char → Option (Nat × List Char)
  | 0, _, _ => none
  | _ + 1, _, [] => none
  | n + 1, acc, c :: r =>
    if c = '\x7d' then acc.map (·, f.skip r)
    else do hexUntilBrace? f n (some (acc.getD 0 * 16 + (← hexValue? c))) (f.skip r)

/-- What follows `\x`, `\u` or `\U`: digits in braces, or exactly `digits` of them. Two digits stand
for a byte if the ASCII flag is set. -/
def hexChar? (f : Flags) (digits n : Nat) (r : List Char) : Option (Char × List Char) := do
  let (v, r) ← match f.skip r with
    | '\x7b' :: r => hexUntilBrace? f (n + 1) none (f.skip r)
    | r => (hexDigits? f digits 0 r).filter fun (v, _) => !(f.ascii && digits == 2 && 128 ≤ v)
  some (← charOf? v, r)

def takeLetters (f : Flags) : (n : Nat) → List Char → List Char × List Char
  | n + 1, c :: r =>
    if c.isAlpha || c == '-' then
      let (cs, r) := takeLetters f n (f.skip r)
      (c :: cs, r)
    else ([], c :: r)
  | _, r => ([], r)

/-- What follows `\b`: a plain word boundary, or one side of a word named in braces. -/
def wordBoundary? (f : Flags) (n : Nat) (r : List Char) : Option (Look × List Char) :=
  match r with
  | '\x7b' :: inner =>
    match f.skip inner with
    | [] => none
    | c :: rest =>
      if c.isAlpha || c == '-' then
        match takeLetters f n (c :: rest) with
        | (name, '\x7d' :: rest) =>
          if name = "start".toList then some (.wordStart f.ascii, rest)
          else if name = "end".toList then some (.wordEnd f.ascii, rest)
          else if name = "start-half".toList then some (.wordStartHalf f.ascii, rest)
          else if name = "end-half".toList then some (.wordEndHalf f.ascii, rest)
          else none
        | _ => none
      else some (.wordBoundary f.ascii, r)
  | _ => some (.wordBoundary f.ascii, r)

/-- What follows a backslash. Classes by a property of characters (`\p`) are not known. -/
def escape? (f : Flags) (n : Nat) : List Char → Option (Atom × List Char)
  | [] => none
  | c :: r =>
    let hex digits := (hexChar? f digits n r).map fun (c, r) => (.char c, r)
    let set negated s := (signed? f negated s).map fun s => (.set s, r)
    match c with
    | 'x' => hex 2
    | 'u' => hex 4
    | 'U' => hex 8
    | 'd' | 'D' => set (c == 'D') (if f.ascii then CharSet.asciiDigit else CharSet.digit)
    | 's' | 'S' => set (c == 'S') (if f.ascii then CharSet.asciiSpace else CharSet.space)
    | 'w' | 'W' => set (c == 'W') (if f.ascii then CharSet.asciiWord else CharSet.word)
    | 'a' => some (.char '\x07', r)
    | 'f' => some (.char '\x0c', r)
    | 't' => some (.char '\t', r)
    | 'n' => some (.char '\n', r)
    | 'r' => some (.char '\r', r)
    | 'v' => some (.char '\x0b', r)
    | 'A' => some (.look .textStart, r)
    | 'z' => some (.look .textEnd, r)
    | 'b' => (wordBoundary? f n r).map fun (l, r) => (.look l, r)
    | 'B' => some (.look (.notWordBoundary f.ascii), r)
    | '<' => some (.look (.wordStart f.ascii), r)
    | '>' => some (.look (.wordEnd f.ascii), r)
    | c => if isEscapable c then some (.char c, r) else none

/-! ## Bracketed classes -/

/-- The members of a class so far: the set they make up, their number, and how deep brackets and
operators are nested in them. -/
structure Members where
  set : CharSet
  count : Nat
  depth : Nat

def Members.none : Members :=
  ⟨[], 0, 0⟩

def Members.add (m : Members) (s : CharSet) (depth : Nat) : Members :=
  ⟨m.set.union s, m.count + 1, max m.depth depth⟩

/-- Several members are one level deeper than the deepest of them. -/
def Members.nesting (m : Members) : Nat :=
  if m.count ≤ 1 then m.depth else m.depth + 1

/-- What is open around the members being read: a bracket, with what was read before it, or an
operator with its left side. -/
inductive Opened
  | bracket (before : Members) (negated : Bool)
  | operator (op : CharSet → CharSet → CharSet) (left : CharSet) (depth : Nat)

/-- Applies the operator that waits for `m` as its right side, if there is one, and gives the depth
of what it comes to. -/
def applyOperator (f : Flags) (m : Members) : List Opened → CharSet × Nat × List Opened
  | .operator op left depth :: st =>
    (op (withCase f left) (withCase f m.set), max depth m.nesting + 1, st)
  | st => (m.set, m.nesting, st)

/-- Dashes that open a class stand for themselves. -/
def leadingDashes (f : Flags) : (n : Nat) → Members → List Char → Members × List Char
  | n + 1, m, '-' :: r => leadingDashes f n (m.add (.single '-') 0) (f.skip r)
  | _, m, r => (m, r)

/-- What follows an opening bracket: whether the class is negated, and the members whose place
makes them literal. -/
def openClass? (f : Flags) (n : Nat) (r : List Char) : Option (Bool × Members × List Char) :=
  let (negated, r) := match f.skip r with
    | '^' :: r => (true, f.skip r)
    | r => (false, r)
  let (m, r) := leadingDashes f n .none r
  match r with
  | [] => none
  | ']' :: rest =>
    if m.count ≠ 0 then some (negated, m, r)
    else if (f.skip rest).isEmpty then none
    else some (negated, m.add (.single ']') 0, f.skip rest)
  | r => some (negated, m, r)

/-- A class named in brackets and colons, such as `[:alpha:]`, behind its opening bracket, and
whether it is negated. -/
def namedClass? : List Char → Option ((Bool × CharSet) × List Char)
  | ':' :: r =>
    let (negated, r) := match r with
      | '^' :: r => (true, r)
      | r => (false, r)
    match r.dropWhile (· != ':') with
    | ':' :: ']' :: rest => do
      let s ← CharSet.named? (String.ofList (r.takeWhile (· != ':')))
      some ((negated, s), rest)
    | _ => none
  | _ => none

def classAtom? (f : Flags) (n : Nat) (r : List Char) : Option (Atom × List Char) :=
  let atom := match r with
    | [] => none
    | '\\' :: r => escape? f n r
    | c :: r => some (.char c, r)
  atom.filter fun (a, _) => a.fitsClass f

/-- The character that decides whether the dash before `r` makes a range. In verbose text it is the
first one that is neither white space nor the sign of a comment; a comment's own text counts. -/
def behindDash (f : Flags) (r : List Char) : Option Char :=
  if f.verbose then
    let seen := match r.dropWhile isWhiteSpace with
      | '#' :: r => r.dropWhile isWhiteSpace
      | r => r
    seen.head?.or r.head?
  else r.head?

/-- One member, or two with a dash between them. -/
def member? (f : Flags) (n : Nat) (r : List Char) : Option (CharSet × List Char) := do
  let (first, r) ← classAtom? f n r
  let alone := match first with
    | .char c => some (CharSet.single c)
    | .set s => some s
    | .look _ => none
  match f.skip r with
  | [] => none
  | '-' :: rest =>
    if behindDash f rest = some ']' ∨ behindDash f rest = some '-' then alone.map (·, '-' :: rest)
    else
      match first, ← classAtom? f n (f.skip rest) with
      | .char lo, (.char hi, r) => if lo ≤ hi then some (.range lo hi, r) else none
      | _, _ => none
  | r => alone.map (·, r)

/-- Reads on within the brackets of `st`, `m` being the members so far. Gives the set and how deep
brackets and operators are nested. -/
def classFrom? (f : Flags) : (n : Nat) → Members → List Opened → List Char →
    Option (CharSet × Nat × List Char)
  | 0, _, _, _ => none
  | n + 1, m, st, r =>
    let operator op r :=
      let (left, depth, st) := applyOperator f m st
      classFrom? f n .none (.operator op left depth :: st) r
    match f.skip r with
    | [] => none
    | '[' :: r =>
      match namedClass? r with
      | some ((negated, s), r) => do
        let s ← signed? f negated (withCase f s)
        classFrom? f n (m.add s 0) st r
      | none => do
        let (negated, inner, r) ← openClass? f n r
        classFrom? f n inner (.bracket m negated :: st) r
    | ']' :: r =>
      let (s, depth, st) := applyOperator f m st
      match st with
      | .bracket before negated :: st => do
        let s ← signed? f negated (withCase f s)
        if st.isEmpty then some (s, depth + 1, r)
        else classFrom? f n (before.add s (depth + 1)) st r
      | _ => none
    | '&' :: '&' :: r => operator .inter r
    | '-' :: '-' :: r => operator .diff r
    | '~' :: '~' :: r => operator .symmDiff r
    | r => do
      let (s, r) ← member? f n r
      classFrom? f n (m.add s 0) st r

/-- A class, behind its opening bracket. -/
def class? (f : Flags) (n : Nat) (r : List Char) : Option (CharSet × Nat × List Char) := do
  let (negated, m, r) ← openClass? f n r
  classFrom? f (n + 1) m [.bracket .none negated] r

end Peg.Regex
