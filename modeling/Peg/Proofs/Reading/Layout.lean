import Peg.Bnf.Reader
import Peg.Proofs.Engine.Yields

/-!
# The grammar of the notation

The expressions that the reader builds, by the place where each of them stands: `reader_eq`. The
nodes and actions of a handle are read off this list.
-/

namespace Peg.Bnf.Layout

/-! ## Handles -/

def cr : Handle := 0
def nothing : Handle := 1
def mayCr : Handle := 2
def lf : Handle := 3
def eol : Handle := 4
def anyChar : Handle := 5
def eof : Handle := 6
def gap : Handle := 7
def twoEols : Handle := 8
def noBlankLine : Handle := 9
def gapStep : Handle := 10
def ws : Handle := 11
def lower : Handle := 12
def upper : Handle := 13
def digit : Handle := 14
def mark : Handle := 15
def nameChar : Handle := 16
def nameBody : Handle := 17
def less : Handle := 18
def greater : Handle := 19
def name : Handle := 20
def strict : Handle := 21
def loose : Handle := 22
def assigns : Handle := 23
def space : Handle := 24
def noSpace : Handle := 25
def bareStep : Handle := 26
def bare : Handle := 27
def backslash : Handle := 28
def escapable : Handle := 29
def escape : Handle := 30
def quote : Handle := 31
def unescaped : Handle := 32
def quotedStep : Handle := 33
def quotedText : Handle := 34
def unquote : Handle := 35
def quoted : Handle := 36
def noGap : Handle := 37
def anyVisible : Handle := 38
def graphicStep : Handle := 39
def graphic : Handle := 40
def expression : Handle := 41
def openOptional : Handle := 42
def closeOptional : Handle := 43
def optional : Handle := 44
def openBraces : Handle := 45
def closeBraces : Handle := 46
def braces : Handle := 47
def primary : Handle := 48
def ellipsis : Handle := 49
def noEllipsis : Handle := 50
def mayRepeat : Handle := 51
def postfixed : Handle := 52
def repeating : Handle := 53
def members : Handle := 54
def sequence : Handle := 55
def bar : Handle := 56
def alternative : Handle := 57
def alternatives : Handle := 58
def choice : Handle := 59
def blankLine : Handle := 60
def stop : Handle := 61
def side : Handle := 62
def declaration : Handle := 63

/-! ## Nodes -/

def nodes : List Node :=
  [.oneOf "\r", .sequence [], .choice [cr, nothing], .oneOf "\n", .sequence [mayCr, lf],
   .any, .notAhead anyChar, .oneOf " \t\r\n\x0c\x0b", .sequence [eol, eol], .notAhead twoEols,
   .sequence [noBlankLine, gap], .zeroOrMore gapStep,
   .charRange 'a' 'z', .charRange 'A' 'Z', .charRange '0' '9', .oneOf " -_:=/.",
   .choice [lower, upper, digit, mark], .oneOrMore nameChar, .oneOf "<", .oneOf ">",
   .sequence [less, nameBody, greater], .literal ":==", .literal "::=", .choice [strict, loose],
   .oneOf " ", .notAhead space, .sequence [noSpace, nameChar], .oneOrMore bareStep,
   .oneOf "\\", .oneOf "\\\"rntvf", .sequence [backslash, escapable], .oneOf "\"",
   .noneOf "\"\\", .choice [escape, unescaped], .zeroOrMore quotedStep, .oneOf "\"",
   .sequence [quote, quotedText, unquote], .notAhead gap, .any, .sequence [noGap, anyVisible],
   .oneOrMore graphicStep, .sequence [ws, sequence, ws, alternatives],
   .oneOf "[", .oneOf "]", .sequence [ws, openOptional, ws, expression, ws, closeOptional],
   .oneOf "\x7b", .oneOf "\x7d", .sequence [ws, openBraces, ws, expression, ws, closeBraces],
   .choice [name, quoted, bare, optional, braces], .literal "...", .sequence [],
   .choice [ellipsis, noEllipsis], .sequence [primary, mayRepeat], .sequence [ws, postfixed],
   .zeroOrMore repeating, .sequence [ws, postfixed, ws, members], .oneOf "|",
   .sequence [ws, bar, ws, sequence], .zeroOrMore alternative,
   .sequence [ws, sequence, ws, alternatives], .sequence [eol, eol], .choice [blankLine, eof],
   .choice [expression, graphic], .sequence [ws, name, ws, assigns, ws, side, ws, stop]]

def arena : Arena :=
  ⟨(nodes.zipIdx.map fun (node, h) => ⟨node, h == expression⟩).toArray⟩

def phrases : Phrases :=
  ⟨nameBody, strict, loose, bare, quoted, graphic, optional, ellipsis, repeating, alternative,
    expression, declaration⟩

def grammar : Grammar Reductions :=
  ⟨arena, ∅, phrases.actions⟩

set_option maxRecDepth 1000 in
theorem build_arena : (Phrases.build ∅).2 = arena :=
  rfl

theorem build_phrases : (Phrases.build ∅).1.toOption = some phrases := by
  decide +kernel

theorem reader_eq : reader = .ok ⟨grammar, phrases⟩ := by
  have ha := build_arena
  have hp := build_phrases
  unfold reader
  generalize Phrases.build ∅ = built at ha hp
  obtain ⟨p, a⟩ := built
  cases p with
  | error e => cases hp
  | ok p =>
    obtain rfl : a = arena := ha
    obtain rfl : p = phrases := Option.some.inj hp
    rfl

end Peg.Bnf.Layout
