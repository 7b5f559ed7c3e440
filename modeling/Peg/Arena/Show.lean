import Peg.Arena.Basic
import Peg.Text.Visible

/-!
# The written form of an arena
-/

namespace Peg

def CharClass.name : CharClass → String
  | .whiteSpace => "Whitespace"
  | .xidStart => "XidStart"
  | .xidContinue => "XidContinue"

def showHandle (h : Handle) : String :=
  s!"ExprId({h})"

def showHandles (hs : List Handle) : String :=
  "[" ++ ", ".intercalate (hs.map showHandle) ++ "]"

def Node.show : Node → String
  | .any => "Any"
  | .oneOf chars => s!"OneOf({visibleString chars})"
  | .noneOf chars => s!"NoneOf({visibleString chars})"
  | .literal text => s!"Literal({visibleString text})"
  | .charRange lo hi => s!"CharRange({visibleChar lo}, {visibleChar hi})"
  | .charClass cls => s!"Class({cls.name})"
  | .pattern p => s!"Pattern(Regex({visibleString p.anchored}))"
  | .sequence items => s!"Sequence({showHandles items})"
  | .choice items => s!"OrderedChoice({showHandles items})"
  | .zeroOrMore item => s!"ZeroOrMore({showHandle item})"
  | .oneOrMore item => s!"OneOrMore({showHandle item})"
  | .ahead item => s!"Lookahead({showHandle item})"
  | .notAhead item => s!"NegativeLookahead({showHandle item})"
  | .rule name => s!"Rule({visibleString name})"
  | .aliasOf target => s!"Alias({showHandle target})"
  | .forward => "Forward"

def Slot.show (slot : Slot) : String :=
  s!"Slot \x7b node: {slot.node.show}, promoted: {slot.promoted} \x7d"

def Arena.show (a : Arena) : String :=
  "Exprs \x7b slots: RefCell \x7b value: [" ++
    ", ".intercalate (a.slots.toList.map Slot.show) ++ "] \x7d \x7d"

end Peg
