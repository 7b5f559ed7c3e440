import Peg.Arena.Basic

/-!
# Building expressions

Each function allocates one expression and gives its handle. A sequence or choice of exactly one
part is that part. A function that fails leaves the arena as it was.
-/

namespace Peg

abbrev Building := StateM Arena

namespace Building

def alloc (node : Node) : Building Handle :=
  fun a => a.push node

/-! ## Terminals -/

def any : Building Handle :=
  alloc .any

def oneOf (chars : String) : Building Handle :=
  alloc (.oneOf chars)

def noneOf (chars : String) : Building Handle :=
  alloc (.noneOf chars)

def literal (text : String) : Building Handle :=
  alloc (.literal text)

def charClass (cls : CharClass) : Building Handle :=
  alloc (.charClass cls)

/-- All characters from `lo` to `hi`. -/
def charRange (lo hi : Char) : ExceptT GrammarError Building Handle :=
  if hi < lo then throw (.rangeOrder lo hi) else alloc (.charRange lo hi)

/-- Like `charRange`, with the ends given as strings of one character. -/
def range (lo hi : String) : ExceptT GrammarError Building Handle :=
  match lo.toList, hi.toList with
  | [lo], [hi] => charRange lo hi
  | [_], _ => throw .rangeLast
  | _, _ => throw .rangeFirst

/-- A regular expression, tried at the cursor. -/
def pattern [RegexLibrary] (text : String) : ExceptT GrammarError Building Handle :=
  match Pattern.ofString? text with
  | some p => alloc (.pattern p)
  | none => throw (.badPattern text)

/-! ## Composites -/

def seq : List Handle → Building Handle
  | [item] => pure item
  | items => alloc (.sequence items)

def choice : List Handle → Building Handle
  | [item] => pure item
  | items => alloc (.choice items)

def star (item : Handle) : Building Handle :=
  alloc (.zeroOrMore item)

def plus (item : Handle) : Building Handle :=
  alloc (.oneOrMore item)

/-- `item`, or else nothing. -/
def opt (item : Handle) : Building Handle := do
  choice [item, ← seq []]

def ahead (item : Handle) : Building Handle :=
  alloc (.ahead item)

def notAhead (item : Handle) : Building Handle :=
  alloc (.notAhead item)

/-! ## References -/

/-- A rule of the grammar, looked up when it is needed. -/
def rule (name : String) : Building Handle :=
  alloc (.rule name)

def forward : Building Handle :=
  alloc .forward

/-- Changes the arena unless that fails. -/
def update (f : Arena → Except GrammarError Arena) : ExceptT GrammarError Building Unit :=
  ExceptT.mk fun a =>
    match f a with
    | .ok a => (.ok (), a)
    | .error e => (.error e, a)

def implement (fwd e : Handle) : ExceptT GrammarError Building Unit :=
  update (·.implement fwd e)

def makeAlias (fwd target : Handle) : ExceptT GrammarError Building Unit :=
  update (·.makeAlias fwd target)

end Building

end Peg
