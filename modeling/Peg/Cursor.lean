import Peg.Text.Utf8

/-!
# Cursors

A cursor is a position in a text: how many bytes lie before it, and the characters after it.
-/

namespace Peg

structure Cursor where
  offset : Nat
  rest : List Char
  deriving DecidableEq, Repr

namespace Cursor

/-- The position between `before` and `after` in the text `before ++ after`. -/
def between (before after : List Char) : Cursor :=
  ⟨byteLength before, after⟩

def atStart (text : String) : Cursor :=
  between [] text.toList

/-- The cursor behind the next `n` characters. -/
def advance (c : Cursor) (n : Nat) : Cursor :=
  ⟨c.offset + byteLength (c.rest.take n), c.rest.drop n⟩

/-- The text from `c` up to the later cursor `d`. -/
def textTo (c d : Cursor) : String :=
  String.ofList (takeBytes (d.offset - c.offset) c.rest)

theorem textTo_between (u v w : List Char) :
    (between u (v ++ w)).textTo (between (u ++ v) w) = String.ofList v := by
  simp [between, textTo, takeBytes_append]

end Cursor

end Peg
