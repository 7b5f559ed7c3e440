/-!
# Lengths in bytes

Positions in a text are counted in the bytes of its UTF-8 encoding.
-/

namespace Peg

def byteLength : List Char → Nat
  | [] => 0
  | c :: text => c.utf8Size + byteLength text

/-- The characters of `text` that begin within its first `n` bytes. -/
def takeBytes : Nat → List Char → List Char
  | 0, _ => []
  | _, [] => []
  | n + 1, c :: text => c :: takeBytes (n + 1 - c.utf8Size) text

@[simp] theorem byteLength_append (u v : List Char) :
    byteLength (u ++ v) = byteLength u + byteLength v := by
  induction u with
  | nil => simp [byteLength]
  | cons c u ih => simp [byteLength, ih, Nat.add_assoc]

theorem takeBytes_append (u v : List Char) : takeBytes (byteLength u) (u ++ v) = u := by
  induction u with
  | nil => cases v <;> rfl
  | cons c u ih =>
    have hc := c.utf8Size_pos
    obtain ⟨n, hn⟩ : ∃ n, byteLength (c :: u) = n + 1 := ⟨c.utf8Size - 1 + byteLength u, by
      simp only [byteLength]; omega⟩
    have hu : n + 1 - c.utf8Size = byteLength u := by
      rw [← hn]; simp [byteLength]
    rw [hn, List.cons_append, takeBytes, hu, ih]

end Peg
