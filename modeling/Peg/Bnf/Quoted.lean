/-!
# Quoted literals

A quoted literal stands between double quotes; a backslash introduces an escape.
-/

namespace Peg.Bnf

/-- What follows the backslash for a character that is escaped. -/
def escapeOf? : Char → Option Char
  | '\\' => some '\\'
  | '\t' => some 't'
  | '\n' => some 'n'
  | '\r' => some 'r'
  | '\x0b' => some 'v'
  | '\x0c' => some 'f'
  | '"' => some '"'
  | _ => none

/-- The character meant by what follows a backslash. -/
def escaped? : Char → Option Char
  | '\\' => some '\\'
  | 't' => some '\t'
  | 'n' => some '\n'
  | 'r' => some '\r'
  | 'v' => some '\x0b'
  | 'f' => some '\x0c'
  | '"' => some '"'
  | _ => none

def escape : List Char → List Char
  | [] => []
  | c :: text =>
    match escapeOf? c with
    | some e => '\\' :: e :: escape text
    | none => c :: escape text

/-- An unknown escape, or a backslash at the end, stands for itself. -/
def unescape : List Char → List Char
  | [] => []
  | '\\' :: e :: text =>
    match escaped? e with
    | some c => c :: unescape text
    | none => '\\' :: e :: unescape text
  | c :: text => c :: unescape text

def quote (text : List Char) : List Char :=
  '"' :: escape text ++ ['"']

/-- Text between double quotes with its escapes resolved; without the quotes, all of it. -/
def unquote (text : List Char) : List Char :=
  match text with
  | '"' :: inner => if inner.getLast? = some '"' then unescape inner.dropLast else unescape text
  | _ => unescape text

theorem escaped?_escapeOf? {c e : Char} (h : escapeOf? c = some e) : escaped? e = some c := by
  unfold escapeOf? at h
  split at h <;> cases h <;> rfl

/-- A character that needs no escape does not begin one. -/
theorem ne_backslash_of_escapeOf? {c : Char} (h : escapeOf? c = none) : c ≠ '\\' := by
  rintro rfl
  cases h

/-- Where neither of the cases for a backslash applies there is none. -/
theorem ne_backslash_of_cases {c : Char} {text : List Char}
    (hb : ∀ (e : Char) (r : List Char), c = '\\' → text = e :: r → False)
    (hs : c = '\\' → text = [] → False) : c ≠ '\\' := by
  intro hc
  cases text with
  | nil => exact hs hc rfl
  | cons e r => exact hb e r hc rfl

theorem unescape_cons_of_ne {c : Char} (h : c ≠ '\\') (text : List Char) :
    unescape (c :: text) = c :: unescape text := by
  cases text with
  | nil => simp [unescape]
  | cons d text => rw [unescape]; rintro _ _ rfl; exact absurd rfl h

theorem unescape_escape (text : List Char) : unescape (escape text) = text := by
  induction text with
  | nil => rfl
  | cons c text ih =>
    simp only [escape]
    cases h : escapeOf? c with
    | some e => simp [unescape, escaped?_escapeOf? h, ih]
    | none => rw [unescape_cons_of_ne (ne_backslash_of_escapeOf? h), ih]

theorem unquote_quote (text : List Char) : unquote (quote text) = text := by
  have h : (escape text ++ ['"']).getLast? = some '"' := by simp
  simp [unquote, quote, unescape_escape]

end Peg.Bnf
