import Peg.Regex.Class
import Peg.Text.Letter

/-!
# Reading regular expressions

The text is read from left to right; open groups wait on a stack for what stands between their
parentheses. A setting of flags holds up to the end of the group that it stands in. Expressions that
are nested too deep are refused.
-/

namespace Peg.Regex

/-- An item of a concatenation: its expression, or nothing for a setting of flags, which cannot be
repeated; and how deep groups, repetitions, concatenations, choices and classes are nested in it. -/
structure Item where
  re : Option Re
  depth : Nat

/-- The depth of what consists of parts of the given depths. A part that stands alone adds none. -/
def nesting : List Nat → Nat
  | [] => 0
  | [d] => d
  | ds => ds.foldl max 0 + 1

def maxNesting : Nat :=
  250

/-- The items of a concatenation, the last one first. -/
abbrev Items := List Item

/-- A group in the making: the branches before the current one, the last one first, with their
depths, and the current one. -/
structure Branches where
  done : List (Re × Nat)
  items : Items

/-- What was read before an open group, and the flags to return to behind it; the number of a group
that captures. -/
structure Outer where
  branches : Branches
  flags : Flags
  index : Option Nat

structure State where
  flags : Flags
  branches : Branches
  outer : List Outer
  names : List (List Char)
  groups : Nat

def Items.toBranch (items : Items) : Re × Nat :=
  (.sequence (items.reverse.filterMap (·.re)), nesting (items.map (·.depth)))

def Branches.toRe (b : Branches) : Re × Nat :=
  let branches := (b.items.toBranch :: b.done).reverse
  (.choice (branches.map (·.1)), nesting (branches.map (·.2)))

def State.start : State :=
  ⟨.start, ⟨[], []⟩, [], [], 0⟩

def State.add (st : State) (r : Re) (depth : Nat) : State :=
  { st with branches.items := ⟨some r, depth⟩ :: st.branches.items }

def State.setFlags (st : State) (flags : Flags) : State :=
  { st with flags := flags, branches.items := ⟨none, 0⟩ :: st.branches.items }

def State.nextBranch (st : State) : State :=
  { st with branches := ⟨st.branches.items.toBranch :: st.branches.done, []⟩ }

def State.openGroup (st : State) (flags : Flags) : State :=
  { st with
    flags := flags
    branches := ⟨[], []⟩
    outer := ⟨st.branches, st.flags, none⟩ :: st.outer }

/-- Groups that capture are numbered in the order of their opening parentheses, from 1 on. -/
def State.openCapture (st : State) : State :=
  { st with
    branches := ⟨[], []⟩
    outer := ⟨st.branches, st.flags, some (st.groups + 1)⟩ :: st.outer
    groups := st.groups + 1 }

def State.closeGroup? (st : State) : Option State :=
  match st.outer with
  | [] => none
  | o :: outer =>
    let (r, depth) := st.branches.toRe
    let r := match o.index with
      | some n => .group n r
      | none => r
    some ({ st with flags := o.flags, branches := o.branches, outer := outer }.add r (depth + 1))

/-- Repeats the last item, if it can be repeated. -/
def State.repeatLast? (st : State) (min : Nat) (max : Option Nat) (greedy : Bool) : Option State :=
  match st.branches.items with
  | ⟨some r, depth⟩ :: items =>
    some { st with branches.items := ⟨some (.repeated min max greedy r), depth + 1⟩ :: items }
  | _ => none

/-! ## Repetitions -/

/-- A `?` behind a repetition turns its preference round. -/
def takeGreedy (f : Flags) : List Char → Bool × List Char
  | '?' :: r => (f.lazyFirst, r)
  | r => (!f.lazyFirst, r)

def takeDigits (f : Flags) : (n : Nat) → List Char → List Char × List Char
  | n + 1, c :: r =>
    if c.isDigit then
      let (cs, r) := takeDigits f n (f.skip r)
      (c :: cs, r)
    else ([], c :: r)
  | _, r => ([], r)

def dropSpace (f : Flags) : (n : Nat) → List Char → List Char
  | n + 1, c :: r => if isWhiteSpace c then dropSpace f n (f.skip r) else c :: r
  | _, r => r

/-- A decimal number with the white space around it; nothing if there are no digits. -/
def takeNumber (f : Flags) (n : Nat) (r : List Char) : Option Nat × List Char :=
  let (ds, r) := takeDigits f n (r.dropWhile isWhiteSpace)
  let r := dropSpace f n r
  (if ds.isEmpty then none else some (ds.foldl (fun n d => n * 10 + (d.toNat - '0'.toNat)) 0), r)

def maxCount : Nat :=
  UInt32.size - 1

/-- The lower and upper bound that follow an opening brace, up to the closing one. -/
def bounds? (f : Flags) (n : Nat) (r : List Char) : Option (Nat × Option Nat × List Char) := do
  let (lo, r) := takeNumber f n (f.skip r)
  let lo ← lo
  guard (lo ≤ maxCount)
  match r with
  | '\x7d' :: r => some (lo, some lo, r)
  | ',' :: r =>
    match f.skip r with
    | '\x7d' :: r => some (lo, none, r)
    | r =>
      let (hi, r) := takeNumber f n r
      let hi ← hi
      guard (lo ≤ hi ∧ hi ≤ maxCount)
      match r with
      | '\x7d' :: r => some (lo, some hi, r)
      | _ => none
  | _ => none

def counted? (st : State) (n : Nat) (r : List Char) : Option (State × List Char) := do
  let (lo, hi, r) ← bounds? st.flags n r
  let (greedy, r) := takeGreedy st.flags (st.flags.skip r)
  some (← st.repeatLast? lo hi greedy, r)

def uncounted? (st : State) (min : Nat) (max : Option Nat) (r : List Char) :
    Option (State × List Char) := do
  let (greedy, r) := takeGreedy st.flags r
  some (← st.repeatLast? min max greedy, r)

/-! ## Groups -/

def Flags.set? (f : Flags) (on : Bool) : Char → Option Flags
  | 'i' => some { f with ignoreCase := on }
  | 'm' => some { f with multiLine := on }
  | 's' => some { f with dotAll := on }
  | 'U' => some { f with lazyFirst := on }
  | 'x' => some { f with verbose := on }
  | 'R' => some { f with crlf := on }
  | 'u' => some { f with ascii := !on }
  | _ => none

/-- Flags up to a colon or closing parenthesis; no letter may come twice, and a `-` needs one
behind it. -/
def flags? (f : Flags) (on : Bool) (seen : List Char) : List Char → Option (Flags × List Char)
  | [] => none
  | c :: r =>
    if c = ':' ∨ c = ')' then
      if seen.head? = some '-' then none
      else if c = ')' ∧ seen.isEmpty then none
      else some (f, c :: r)
    else if seen.contains c then none
    else if c = '-' then flags? f false ('-' :: seen) r
    else do flags? (← f.set? on c) on (c :: seen) r

def isNameChar (c : Char) (first : Bool) : Bool :=
  c == '_' || if first then isLetter c else isLetterOrNumber c || ['.', '[', ']'].contains c

/-- The name of a group, up to its closing bracket. -/
def groupName? (r : List Char) : Option (List Char × List Char) :=
  match r.takeWhile (· != '>'), r.dropWhile (· != '>') with
  | c :: name, _ :: r =>
    if isNameChar c true && name.all (isNameChar · false) then some (c :: name, r) else none
  | _, _ => none

def named? (st : State) (r : List Char) : Option (State × List Char) := do
  let (name, r) ← groupName? r
  if st.names.contains name then none
  else some ({ st.openCapture with names := name :: st.names }, r)

/-- What follows an opening parenthesis. -/
def group? (st : State) (r : List Char) : Option (State × List Char) :=
  match st.flags.skip r with
  | '?' :: '=' :: _ | '?' :: '!' :: _ => none
  | '?' :: '<' :: '=' :: _ | '?' :: '<' :: '!' :: _ => none
  | '?' :: 'P' :: '<' :: r => named? st r
  | '?' :: '<' :: r => named? st r
  | '?' :: r => do
    match ← flags? st.flags true [] r with
    | (f, ')' :: r) => some (st.setFlags f, r)
    | (f, _ :: r) => some (st.openGroup f, r)
    | (_, []) => none
  | r => some (st.openCapture, r)

/-! ## Single characters -/

def atom (f : Flags) : Atom → Re
  | .char c => .ofSet (withCase f (.single c))
  | .set s => .ofSet s
  | .look l => .look l

/-- All characters but those that end a line. -/
def dot? (f : Flags) : Option Re :=
  let ends :=
    if f.dotAll then []
    else if f.crlf then CharSet.ofRanges [('\n', '\n'), ('\r', '\r')]
    else CharSet.single '\n'
  (signed? f true ends).map .ofSet

/-! ## The whole text -/

/-- Reads one item, operator or parenthesis. -/
def next? (st : State) (n : Nat) : List Char → Option (State × List Char)
  | [] => none
  | c :: r =>
    let f := st.flags
    match c with
    | '(' => group? st r
    | ')' => st.closeGroup?.map (·, r)
    | '|' => some (st.nextBranch, r)
    | '[' => (class? f n r).map fun (s, depth, r) => (st.add (.ofSet s) depth, r)
    | '?' => uncounted? st 0 (some 1) r
    | '*' => uncounted? st 0 none r
    | '+' => uncounted? st 1 none r
    | '\x7b' => counted? st n r
    | '\\' => (escape? f n r).map fun (a, r) => (st.add (atom f a) 0, r)
    | '.' => (dot? f).map fun any => (st.add any 0, r)
    | '^' => some (st.add (.look (if f.multiLine then .lineStart f.crlf else .textStart)) 0, r)
    | '$' => some (st.add (.look (if f.multiLine then .lineEnd f.crlf else .textEnd)) 0, r)
    | c => some (st.add (atom f (.char c)) 0, r)

/-- Reads to the end of the text. -/
def readFrom? : (n : Nat) → State → List Char → Option Re
  | 0, _, _ => none
  | n + 1, st, r =>
    match st.flags.skip r with
    | [] =>
      let (r, depth) := st.branches.toRe
      if st.outer.isEmpty ∧ depth ≤ maxNesting then some r else none
    | r => do
      let (st, r) ← next? st n r
      readFrom? n st r

def read? (text : List Char) : Option Re :=
  readFrom? (text.length + 1) .start text

end Peg.Regex
