import Peg.Proofs.Arena.Builtins
import Peg.Proofs.Arena.Operations
import Peg.Proofs.Engine.TextAhead
import Peg.Regex.Engine

/-!
# Runs of characters

Any number of passes over a terminal of one character take the longest run of the characters that it
accepts. What the builtin rules match follows from this, wherever in an arena they are.
-/

namespace Peg

universe u

/-! ## What is taken from the front -/

def Result.ofPiece : Option (List Char) → Result
  | some u => .took (String.ofList u).utf8ByteSize
  | none => .refused

def longestRun? (p : Char → Bool) (t : List Char) : Option (List Char) :=
  if t.takeWhile p = [] then none else some (t.takeWhile p)

def identifier? : List Char → Option (List Char)
  | [] => none
  | c :: t =>
    if CharClass.xidStart.contains c || c == '_' then
      some (c :: t.takeWhile CharClass.xidContinue.contains)
    else none

theorem Verdict.InBytes.ofPiece {t u rest : List Char} (h : t = u ++ rest) :
    (Verdict.took rest).InBytes t (.ofPiece (some u)) := by
  rw [Result.ofPiece, ← byteLength_toList, String.toList_ofList]
  exact .took h

section
variable {σ : Type u}

/-- The expression takes this piece from the front of the text, or refuses the text. -/
def TakesPiece (g : Grammar σ) (h : Handle) (t : List Char) (piece : Option (List Char)) : Prop :=
  ∃ w, w.InBytes t (.ofPiece piece) ∧ ∀ quiet, Yields g.silent quiet h t () w ()

variable {g : Grammar σ} {h : Handle}

theorem TakesPiece.parse_result {text : String} {piece : Option (List Char)}
    (hp : TakesPiece g h text.toList piece) (s : σ) :
    (g.parse h text s).1.result? = some (.ofPiece piece) := by
  obtain ⟨w, hw, hy⟩ := hp
  have harena : g.silent.arena = g.arena := rfl
  have hrules : g.silent.rules = g.rules := rfl
  obtain ⟨s', hy'⟩ := (hy false).course harena hrules false s
  exact parse_result?_eq_some_iff.mpr ⟨w, s', hy', hw⟩

/-! ## Terminals of one character -/

/-- The characters that a terminal accepts which takes one at a time. -/
def Node.accepts? : Node → Option (Char → Bool)
  | .any => some fun _ => true
  | .oneOf chars => some chars.toList.contains
  | .noneOf chars => some fun ch => !chars.toList.contains ch
  | .charRange lo hi => some fun ch => lo ≤ ch && ch ≤ hi
  | .charClass cls => some cls.contains
  | _ => none

section
variable {node : Node} {p : Char → Bool} (hp : node.accepts? = some p)
include hp

/-- The characters are those that the rules for terminals let them take. -/
theorem Node.accepts_iff_takes (ch : Char) (t : List Char) : p ch ↔ node.Takes [ch] t := by
  cases node with
  | any =>
    obtain rfl := Option.some.inj hp
    exact ⟨fun _ => .any, fun _ => rfl⟩
  | oneOf chars =>
    obtain rfl := Option.some.inj hp
    exact ⟨fun h => .oneOf (List.contains_iff_mem.mp h), fun | .oneOf h => List.contains_iff_mem.mpr h⟩
  | noneOf chars =>
    obtain rfl := Option.some.inj hp
    exact ⟨fun h => .noneOf (by simpa using h), fun | .noneOf h => by simpa using h⟩
  | charRange lo hi =>
    obtain rfl := Option.some.inj hp
    simp only [Bool.and_eq_true, decide_eq_true_eq]
    exact ⟨fun ⟨hlo, hhi⟩ => .charRange hlo hhi, fun | .charRange hlo hhi => ⟨hlo, hhi⟩⟩
  | charClass cls =>
    obtain rfl := Option.some.inj hp
    exact ⟨.charClass, fun | .charClass h => h⟩
  | _ => cases hp

theorem yields_accepts (hn : g.arena.node? h = some node) (quiet : Bool) (t : List Char) :
    Yields g.silent quiet h t () (takeOne p t) () := by
  have hnode : ∀ ev c, evalNode g.silent ev quiet h node c () = (c.takeIf p, ()) := by
    intro ev c
    cases node with
    | any | oneOf | noneOf | charRange | charClass =>
      obtain rfl := Option.some.inj hp
      rfl
    | _ => cases hp
  exact (yields_takeIf (g := g.silent) hn hnode).plain rfl

variable {c : Handle} (hc : g.arena.node? c = some node) (t : List Char)
include hc

theorem yields_star (hn : g.arena.node? h = some (.zeroOrMore c)) (quiet : Bool) :
    Yields g.silent quiet h t () (.took (t.dropWhile p)) () :=
  (yields_zeroOrMore (g := g.silent) hn (yieldsMany_takeOne (yields_accepts hp hc quiet))).plain rfl

theorem takesPiece_star (hn : g.arena.node? h = some (.zeroOrMore c)) :
    TakesPiece g h t (some (t.takeWhile p)) :=
  ⟨_, .ofPiece List.takeWhile_append_dropWhile.symm, yields_star hp hc t hn⟩

theorem takesPiece_plus (hn : g.arena.node? h = some (.oneOrMore c)) :
    TakesPiece g h t (longestRun? p t) := by
  have hone := yields_accepts hp hc
  have hplus {quiet : Bool} {w : Verdict} (hm : YieldsMany g.silent quiet c false t () w ()) :
      Yields g.silent quiet h t () w () :=
    (yields_oneOrMore (g := g.silent) hn hm).plain rfl
  cases t with
  | nil => exact ⟨_, .refused, fun quiet => hplus (yieldsMany_stop (hone quiet []))⟩
  | cons ch t =>
    by_cases hch : p ch
    · have hrun : longestRun? p (ch :: t) = some (ch :: t.takeWhile p) := by
        simp [longestRun?, hch]
      rw [hrun]
      refine ⟨.took (t.dropWhile p), .ofPiece ?_, fun quiet => hplus ?_⟩
      · rw [List.cons_append, List.takeWhile_append_dropWhile]
      · have hfirst := hone quiet (ch :: t)
        rw [takeOne, if_pos hch] at hfirst
        exact yieldsMany_step hfirst (List.cons_ne_self ch t).symm (yieldsMany_takeOne (hone quiet))
    · have hrun : longestRun? p (ch :: t) = none := by
        simp [longestRun?, hch]
      rw [hrun]
      refine ⟨.refused, .refused, fun quiet => hplus ?_⟩
      have hfirst := hone quiet (ch :: t)
      rw [takeOne, if_neg hch] at hfirst
      exact yieldsMany_stop hfirst

end

/-! ## Builtin rules -/

namespace Builtin

variable {a : Arena} (ha : (init a).2.Grows g.arena) (t : List Char)
include ha

theorem node?_of_grows {i : Nat} {node : Node} (hn : (nodes a.size)[i]? = some node) :
    g.arena.node? (a.size + i) = some node := by
  refine ha _ node ((node?_init a i).trans hn) ?_
  rintro rfl
  exact forward_notMem_nodes a.size (List.mem_of_getElem? hn)

theorem takesPiece_dot : TakesPiece g a.size t (t.head?.map fun c => [c]) := by
  have hdot := yields_accepts (g := g) rfl (node?_of_grows ha (i := 0) rfl)
  cases t with
  | nil => exact ⟨.refused, .refused, fun quiet => hdot quiet []⟩
  | cons c t => exact ⟨.took t, .ofPiece rfl, fun quiet => hdot quiet (c :: t)⟩

theorem takesPiece_eoi : TakesPiece g (a.size + 2) t (if t = [] then some [] else none) := by
  have hany := yields_accepts (g := g) rfl (node?_of_grows ha (i := 1) rfl) true t
  have heoi (quiet : Bool) :
      Yields g.silent quiet (a.size + 2) t () ((takeOne (fun _ => true) t).negate t) () :=
    (yields_notAhead (g := g.silent) (node?_of_grows ha (i := 2) rfl) hany).plain rfl
  cases t with
  | nil => exact ⟨.took [], .ofPiece rfl, heoi⟩
  | cons c t => exact ⟨.refused, .refused, heoi⟩

theorem takesPiece_whiteSpace : TakesPiece g (a.size + 4) t (some (t.takeWhile isWhiteSpace)) :=
  takesPiece_star (c := a.size + 3) rfl (node?_of_grows ha rfl) t
    (node?_of_grows ha rfl)

theorem yields_idStart (quiet : Bool) : Yields g.silent quiet (a.size + 8) t ()
    (takeOne (fun c => CharClass.xidStart.contains c || c == '_') t) () := by
  have hstart := yields_accepts (g := g) rfl (node?_of_grows ha (i := 5) rfl) quiet t
  have hunderscore := yields_accepts (g := g) rfl (node?_of_grows ha (i := 6) rfl) quiet t
  have hp : (fun c => CharClass.xidStart.contains c || c == '_') = fun c =>
      CharClass.xidStart.contains c || ("_".toList.contains c || false) := by
    funext c
    simp [Bool.beq_eq_decide_eq]
  rw [hp]
  have hchoice := yieldsFirst_takeOne hstart (yieldsFirst_takeOne hunderscore yieldsFirst_takeOne_nil)
  exact (yields_choice (g := g.silent) (node?_of_grows ha rfl) hchoice).plain rfl

theorem takesPiece_identifier : TakesPiece g (a.size + 10) t (identifier? t) := by
  have hall {quiet : Bool} {w : Verdict}
      (hy : YieldsAll g.silent quiet [a.size + 8, a.size + 9] t () w ()) :
      Yields g.silent quiet (a.size + 10) t () w () :=
    (yields_sequence (g := g.silent) (node?_of_grows ha rfl) hy).plain rfl
  have hstart := yields_idStart ha t
  cases t with
  | nil => exact ⟨.refused, .refused, fun quiet => hall (yieldsAll_refused (hstart quiet))⟩
  | cons c t =>
    by_cases hc : CharClass.xidStart.contains c || c == '_'
    · simp only [takeOne, hc, if_true] at hstart
      have hrun := yields_star (h := a.size + 9) (c := a.size + 7) rfl
        (node?_of_grows ha rfl) t (node?_of_grows ha rfl)
      rw [identifier?, if_pos hc]
      refine ⟨_, .ofPiece ?_, fun quiet =>
        hall (yieldsAll_cons (hstart quiet) (yieldsAll_single (hrun quiet)))⟩
      rw [List.cons_append, List.takeWhile_append_dropWhile]
    · simp only [takeOne, hc] at hstart
      rw [identifier?, if_neg hc]
      exact ⟨.refused, .refused, fun quiet => hall (yieldsAll_refused (hstart quiet))⟩

end Builtin

/-- Repetitions of a terminal that accepts single characters take the longest run of them, wherever
they are in an arena; and so the builtin rules, once they have been built, match any character, the
end of the text, the longest run of white space, and the longest identifier. -/
theorem longest_runs (g : Grammar σ) (text : String) (s : σ) :
    (∀ (c : Handle) (node : Node) (p : Char → Bool), g.arena.node? c = some node →
      node.accepts? = some p →
        (∀ h, g.arena.node? h = some (.zeroOrMore c) →
          (g.parse h text s).1.result? = some (.ofPiece (some (text.toList.takeWhile p)))) ∧
        ∀ h, g.arena.node? h = some (.oneOrMore c) →
          (g.parse h text s).1.result? = some (.ofPiece (longestRun? p text.toList))) ∧
    ∀ a, (Builtin.init a).2.Grows g.arena → ∃ dot eoi whiteSpace identifier,
      (Builtin.init a).1.toList = [("Dot", dot), ("EOI", eoi), ("WHITESPACE", whiteSpace),
        ("XID_IDENTIFIER", identifier)] ∧
      (g.parse dot text s).1.result? = some (.ofPiece (text.toList.head?.map fun c => [c])) ∧
      (g.parse eoi text s).1.result? = some (.ofPiece (if text.toList = [] then some [] else none)) ∧
      (g.parse whiteSpace text s).1.result? =
        some (.ofPiece (some (text.toList.takeWhile isWhiteSpace))) ∧
      (g.parse identifier text s).1.result? = some (.ofPiece (identifier? text.toList)) := by
  refine ⟨fun c node p hc hp => ⟨fun h hn => ?_, fun h hn => ?_⟩, fun a ha => ?_⟩
  · exact (takesPiece_star hp hc _ hn).parse_result s
  · exact (takesPiece_plus hp hc _ hn).parse_result s
  · refine ⟨a.size, a.size + 2, a.size + 4, a.size + 10, ?_, ?_, ?_, ?_, ?_⟩
    · rw [Builtin.init_eq]
      rfl
    · exact (Builtin.takesPiece_dot ha _).parse_result s
    · exact (Builtin.takesPiece_eoi ha _).parse_result s
    · exact (Builtin.takesPiece_whiteSpace ha _).parse_result s
    · exact (Builtin.takesPiece_identifier ha _).parse_result s

end

/-- What stands before a sign, and the builtin rules behind it in the arena. -/
def leftSide : Arena :=
  Operation.runAll [.noneOf "=", .star 0, .plus 0] ∅

def assignment : Grammar (List Event) :=
  ⟨(Builtin.init leftSide).2, ∅, Actions.recorder⟩

theorem longest_runs_assignment :
    (assignment.parse 1 "größe=1" []).1.result? = some (.took 7) ∧
      (assignment.parse 2 "=1" []).1.result? = some .refused ∧
      ∃ dot eoi whiteSpace identifier,
        (Builtin.init leftSide).1.toList = [("Dot", dot), ("EOI", eoi), ("WHITESPACE", whiteSpace),
          ("XID_IDENTIFIER", identifier)] ∧
        (assignment.parse dot "größe=1" []).1.result? = some (.took 1) ∧
        (assignment.parse eoi "größe=1" []).1.result? = some .refused ∧
        (assignment.parse whiteSpace "größe=1" []).1.result? = some (.took 0) ∧
        (assignment.parse identifier "größe=1" []).1.result? = some (.took 7) := by
  obtain ⟨hruns, hbuiltin⟩ := longest_runs assignment "größe=1" []
  obtain ⟨hruns', -⟩ := longest_runs assignment "=1" []
  have hc : assignment.arena.node? 0 = some (.noneOf "=") := by rfl
  have hstar : assignment.arena.node? 1 = some (.zeroOrMore 0) := by rfl
  have hplus : assignment.arena.node? 2 = some (.oneOrMore 0) := by rfl
  obtain ⟨dot, eoi, whiteSpace, identifier, htable, hdot, heoi, hws, hid⟩ :=
    hbuiltin leftSide (.refl _)
  refine ⟨?_, ?_, dot, eoi, whiteSpace, identifier, htable, ?_, ?_, ?_, ?_⟩
  · rw [(hruns 0 _ _ hc rfl).1 1 hstar]
    decide +kernel
  · rw [(hruns' 0 _ _ hc rfl).2 2 hplus]
    decide +kernel
  · rw [hdot]
    decide +kernel
  · rw [heoi]
    decide +kernel
  · rw [hws]
    decide +kernel
  · rw [hid]
    decide +kernel

end Peg
