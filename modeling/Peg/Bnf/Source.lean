import Peg.Bnf.Reader
import Peg.Log

/-!
# Reading the rules of a source

Blank lines separate the rules of a source. A separator is a line end and all blank lines after it,
of which there is at least one.
-/

namespace Peg.Bnf

/-! ## Groups of lines -/

/-- How many characters of the text belong to blank lines at its front; `n` of the current line lie
before it. -/
def blankLines : (n : Nat) → List Char → Nat
  | n, '\n' :: r => n + 1 + blankLines 0 r
  | n, '\r' :: '\n' :: r => n + 2 + blankLines 0 r
  | n, c :: r => if c = ' ' ∨ c = '\t' then blankLines (n + 1) r else 0
  | _, [] => 0

/-- A line end of `n` characters and the `blank` characters of the blank lines after it. -/
def separatorOf (n blank : Nat) : Nat :=
  if blank = 0 then 0 else n + blank

/-- The length of the separator at the front of the text, or 0. -/
def separator : List Char → Nat
  | '\n' :: r => separatorOf 1 (blankLines 0 r)
  | '\r' :: '\n' :: r => separatorOf 2 (blankLines 0 r)
  | _ => 0

/-- What stands between two separators, and the number of line ends before it. -/
structure Group where
  linesBefore : Nat
  text : List Char
  deriving DecidableEq, Repr

/-- The line of the first character that is not white space, counted from one. -/
def Group.line (g : Group) : Nat :=
  g.linesBefore + (g.text.takeWhile isWhiteSpace).count '\n' + 1

def Group.isBlank (g : Group) : Bool :=
  g.text.all isWhiteSpace

/-- Cuts a text at the separators. Of the text before this, `skip` characters of a separator are
still to come, `lines` line ends were seen, and `group` is the group so far, its text reversed. -/
def groupsFrom : (skip lines : Nat) → (group : Group) → List Char → List Group
  | _, _, group, [] => [{ group with text := group.text.reverse }]
  | skip, lines, group, c :: r =>
    let lines := if c = '\n' then lines + 1 else lines
    match skip with
    | skip + 1 => groupsFrom skip lines ⟨lines, []⟩ r
    | 0 =>
      match separator (c :: r) with
      | 0 => groupsFrom 0 lines { group with text := c :: group.text } r
      | n + 1 =>
        { group with text := group.text.reverse } :: groupsFrom n lines ⟨lines, []⟩ r

def groups (source : String) : List Group :=
  groupsFrom 0 0 ⟨0, []⟩ source.toList

/-! ## Definitions -/

abbrev Definitions := Std.TreeMap String Definition

/-- Reads the rule of a group. A rule that cannot be read is reported with its line. -/
def Group.read (g : Group) : Except ReadError (String × Definition) :=
  match readRule (String.ofList g.text) with
  | .error (.unreadable _ text) => .error (.unreadable g.line text)
  | r => r

/-- Reads the rules of the groups that are not blank and adds them to `defs`, up to the first
error. -/
def readGroups (defs : Definitions) : List Group → Logged (Except ReadError Definitions)
  | [] => ⟨.ok defs, []⟩
  | g :: gs =>
    if g.isBlank then readGroups defs gs
    else
      match g.read with
      | .error e => ⟨.error e, []⟩
      | .ok (name, d) =>
        let read := .read g.line name d
        if defs.contains name then ⟨.error (.duplicateRule name), [read]⟩
        else (readGroups (defs.insert name d) gs).after [read]

def readAll (source : String) : Logged (Except ReadError Definitions) :=
  readGroups ∅ (groups source)

end Peg.Bnf
