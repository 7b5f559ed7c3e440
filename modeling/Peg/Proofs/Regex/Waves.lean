import Peg.Proofs.Regex.Matches
import Peg.Regex.Search

/-!
# Waves

A program matches a part of a text if its instructions lead through it to the end of a match. At one
position, following instructions marks all that they lead to there, and leaves a thread for each that
takes a character or ends a match.
-/

namespace Peg

namespace Program

/-! ## Runs -/

/-- The instruction leads to another one at the same position. -/
inductive Skips (p : Program) (before after : Option Char) : Nat → Nat → Prop
  | look {pc next : Nat} {l : Look} (h : p.code[pc]? = some (.look l next))
    (hl : l.holds before after) : Skips p before after pc next
  | preferred {pc next other : Nat} (h : p.code[pc]? = some (.split next other)) :
    Skips p before after pc next
  | other {pc preferred next : Nat} (h : p.code[pc]? = some (.split preferred next)) :
    Skips p before after pc next

/-- What an instruction at a position of the text leads to. -/
inductive Goes (p : Program) (text : List Char) : Nat × Nat → Nat × Nat → Prop
  | skip {pc next i : Nat} (h : p.Skips (charBefore text i) text[i]? pc next) :
    Goes p text (pc, i) (next, i)
  | step {pc next i : Nat} {s : CharSet} {c : Char} (h : p.code[pc]? = some (.step s next))
    (hc : text[i]? = some c) (hs : s.contains c) : Goes p text (pc, i) (next, i + 1)

def Runs (p : Program) (text : List Char) : Nat × Nat → Nat × Nat → Prop :=
  Relation.ReflTransGen (p.Goes text)

def Reaches (p : Program) (text : List Char) (pc i : Nat) : Prop :=
  ∃ last j, p.Runs text (pc, i) (last, j) ∧ p.code[last]? = some .done

/-- The part of the text from `i` to `j` is a match. -/
def Matches (p : Program) (text : List Char) (i j : Nat) : Prop :=
  ∃ last, p.Runs text (p.entry, i) (last, j) ∧ p.code[last]? = some .done

def waits (p : Program) (pc : Nat) : Bool :=
  match p.code[pc]? with
  | some (.step ..) | some .done => true
  | _ => false

/-- What an instruction leads to at the same position, in order of preference. -/
def ways (p : Program) (before after : Option Char) (pc : Nat) : List Nat :=
  match p.code[pc]? with
  | some (.look l next) => if l.holds before after then [next] else []
  | some (.split preferred other) => [preferred, other]
  | _ => []

/-- Marks an instruction that was not marked, and adds a thread if it waits. -/
def visit (p : Program) (start pc : Nat) (w : Wave) : Wave :=
  ⟨if p.waits pc then ⟨pc, start⟩ :: w.threads else w.threads, w.seen.setIfInBounds pc w.round,
    w.round⟩

section
variable {p : Program} {before after : Option Char} {start : Nat} {text : List Char}

theorem mem_ways {pc next : Nat} : next ∈ p.ways before after pc ↔ p.Skips before after pc next := by
  unfold ways
  constructor
  · intro h
    split at h
    · rename_i l k hcode
      split at h
      · rename_i hl
        obtain rfl := List.mem_singleton.mp h
        exact .look hcode hl
      · cases h
    · rename_i preferred other hcode
      rcases List.mem_cons.mp h with rfl | h
      · exact .preferred hcode
      · obtain rfl := List.mem_singleton.mp h
        exact .other hcode
    · cases h
  · rintro (⟨h, hl⟩ | h | h)
    · simp [h, hl]
    · simp [h]
    · simp [h]

theorem length_ways_le (pc : Nat) : (p.ways before after pc).length ≤ 2 := by
  unfold ways
  split
  · split <;> simp
  · exact Nat.le_refl _
  · exact Nat.zero_le _

theorem not_skips_of_waits {pc next : Nat} (h : p.waits pc) : ¬p.Skips before after pc next := by
  unfold waits at h
  rintro (⟨h', -⟩ | h' | h') <;> simp [h'] at h

theorem follow_cons (n pc : Nat) (pcs : List Nat) (w : Wave) :
    p.follow before after start (n + 1) (pc :: pcs) w =
      if w.seen.getD pc 0 = w.round then p.follow before after start n pcs w
      else p.follow before after start n (p.ways before after pc ++ pcs) (p.visit start pc w) := by
  obtain ⟨threads, seen, round⟩ := w
  rw [follow]
  by_cases hseen : seen.getD pc 0 = round
  · rw [if_pos hseen, if_pos hseen]
  · rw [if_neg hseen, if_neg hseen]
    unfold ways visit waits
    cases h : p.code[pc]? with
    | none => rfl
    | some i => cases i with
      | look l next => cases hl : l.holds before after <;> simp [hl]
      | _ => rfl

end

end Program

/-! ## Marks -/

namespace Wave

def Marked (w : Wave) (pc : Nat) : Prop :=
  w.seen[pc]? = some w.round

def unmarked (w : Wave) : Nat :=
  w.seen.countP (· != w.round)

/-- The marks belong to the instructions, and none is from a later round. -/
structure Fits (p : Program) (w : Wave) : Prop where
  size : w.seen.size = p.code.size
  pos : 0 < w.round
  bounded : ∀ r ∈ w.seen, r ≤ w.round

/-- What marked instructions lead to at the same position is marked or among `pcs`, or is no
instruction. If they wait, they are in a thread. -/
structure Closed (p : Program) (before after : Option Char) (pcs : List Nat) (w : Wave) : Prop where
  leads : ∀ pc next, w.Marked pc → p.Skips before after pc next →
    w.Marked next ∨ p.code[next]? = none ∨ next ∈ pcs
  waits : ∀ pc, w.Marked pc → p.waits pc → ∃ t ∈ w.threads, t.pc = pc

section
variable {p : Program} {w : Wave} {pc start : Nat}

theorem Fits.marked_iff (h : w.Fits p) : w.Marked pc ↔ w.seen.getD pc 0 = w.round := by
  have := h.pos
  unfold Marked
  rw [Array.getD_eq_getD_getElem?]
  cases w.seen[pc]? with
  | none => simp; omega
  | some r => simp

theorem marked_visit {q : Nat} :
    (p.visit start pc w).Marked q ↔ w.Marked q ∨ q = pc ∧ pc < w.seen.size := by
  unfold Marked Program.visit
  rw [Array.getElem?_setIfInBounds]
  by_cases hq : pc = q
  · subst hq
    by_cases hlt : pc < w.seen.size
    · simp [hlt]
    · simp [hlt]
  · simp [hq, Ne.symm hq]

theorem Fits.visit (h : w.Fits p) : (p.visit start pc w).Fits p where
  size := Array.size_setIfInBounds.trans h.size
  pos := h.pos
  bounded r hr := by
    rcases Array.mem_or_eq_of_mem_setIfInBounds hr with hr | rfl
    · exact h.bounded r hr
    · exact Nat.le_refl _

theorem unmarked_visit (hpc : ¬w.Marked pc) (hlt : pc < w.seen.size) :
    (p.visit start pc w).unmarked + 1 = w.unmarked := by
  have hne : w.seen[pc] ≠ w.round := fun h => hpc (by rw [Marked, Array.getElem?_eq_getElem hlt, h])
  have hpos : 0 < w.unmarked := by
    refine Array.countP_pos_iff.mpr ⟨w.seen[pc], Array.getElem_mem hlt, ?_⟩
    simpa using hne
  have hset : w.seen.setIfInBounds pc w.round = w.seen.set pc w.round hlt := by
    simp [Array.setIfInBounds, hlt]
  have hcount : (w.seen.set pc w.round hlt).countP (· != w.round) =
      w.seen.countP (· != w.round) - 1 := by
    simp [Array.countP_set, hne]
  rw [unmarked, Program.visit, hset, hcount]
  exact Nat.sub_add_cancel hpos

end

end Wave

/-! ## Following -/

/-- What following `pcs` adds to a wave: marks, and threads for what waits. -/
structure Wave.Adds (p : Program) (before after : Option Char) (start : Nat) (pcs : List Nat)
    (w w' : Wave) : Prop where
  round : w'.round = w.round
  fits : w.Fits p → w'.Fits p
  marked : ∀ pc, w.Marked pc → w'.Marked pc
  threads : ∃ new, w'.threads = new ++ w.threads ∧ ∀ t ∈ new, t.start = start ∧ p.waits t.pc ∧
    ∃ pc ∈ pcs, Relation.ReflTransGen (p.Skips before after) pc t.pc

section
variable {p : Program} {before after : Option Char} {start : Nat} {pcs : List Nat} {w w' : Wave}

theorem Wave.Adds.refl : Wave.Adds p before after start pcs w w where
  round := rfl
  fits := id
  marked _ := id
  threads := ⟨[], rfl, nofun⟩

theorem Wave.Adds.mono {pcs' : List Nat} (h : Wave.Adds p before after start pcs w w')
    (hpcs : ∀ pc ∈ pcs, pc ∈ pcs') : Wave.Adds p before after start pcs' w w' where
  round := h.round
  fits := h.fits
  marked := h.marked
  threads := by
    obtain ⟨new, hnew, hthreads⟩ := h.threads
    refine ⟨new, hnew, fun t ht => ?_⟩
    obtain ⟨hstart, hwaits, pc, hpc, hskips⟩ := hthreads t ht
    exact ⟨hstart, hwaits, pc, hpcs pc hpc, hskips⟩

/-- The first instruction is visited before what it leads to. -/
theorem Wave.Adds.visit {pc : Nat}
    (h : Wave.Adds p before after start (p.ways before after pc ++ pcs) (p.visit start pc w) w') :
    Wave.Adds p before after start (pc :: pcs) w w' where
  round := h.round
  fits hfits := h.fits hfits.visit
  marked q hq := h.marked q (marked_visit.mpr (.inl hq))
  threads := by
    obtain ⟨new, hnew, hthreads⟩ := h.threads
    have hreached : ∀ t ∈ new, t.start = start ∧ p.waits t.pc ∧
        ∃ q ∈ pc :: pcs, Relation.ReflTransGen (p.Skips before after) q t.pc := fun t ht => by
      obtain ⟨hstart, hwaits, q, hq, hskips⟩ := hthreads t ht
      refine ⟨hstart, hwaits, ?_⟩
      rcases List.mem_append.mp hq with hq | hq
      · exact ⟨pc, List.mem_cons_self, .head (Program.mem_ways.mp hq) hskips⟩
      · exact ⟨q, List.mem_cons_of_mem pc hq, hskips⟩
    cases hpc : p.waits pc with
    | false => exact ⟨new, by simpa [Program.visit, hpc] using hnew, hreached⟩
    | true =>
      refine ⟨new ++ [⟨pc, start⟩], by simpa [Program.visit, hpc] using hnew, ?_⟩
      refine List.forall_mem_append.mpr ⟨hreached, List.forall_mem_singleton.mpr ?_⟩
      exact ⟨rfl, hpc, pc, List.mem_cons_self, .refl⟩

theorem Program.follow_adds (n : Nat) (pcs : List Nat) (w : Wave) :
    Wave.Adds p before after start pcs w (p.follow before after start n pcs w) := by
  induction n generalizing pcs w with
  | zero => exact .refl
  | succ n ih =>
    cases pcs with
    | nil => exact .refl
    | cons pc pcs =>
      rw [follow_cons]
      split
      · exact (ih pcs w).mono fun q hq => List.mem_cons_of_mem pc hq
      · exact (ih _ _).visit

theorem Wave.Closed.of_marked {pc : Nat} (h : w.Closed p before after (pc :: pcs))
    (hpc : w.Marked pc) : w.Closed p before after pcs where
  leads q next hq hnext := by
    rcases h.leads q next hq hnext with hm | hnone | hmem
    · exact .inl hm
    · exact .inr (.inl hnone)
    · rcases List.mem_cons.mp hmem with rfl | hmem
      · exact .inl hpc
      · exact .inr (.inr hmem)
  waits := h.waits

theorem Wave.Closed.visit {pc : Nat} (hfits : w.Fits p) (h : w.Closed p before after (pc :: pcs)) :
    (p.visit start pc w).Closed p before after (p.ways before after pc ++ pcs) where
  leads q next hq hnext := by
    rcases marked_visit.mp hq with hq | ⟨rfl, -⟩
    · rcases h.leads q next hq hnext with hm | hnone | hmem
      · exact .inl (marked_visit.mpr (.inl hm))
      · exact .inr (.inl hnone)
      · rcases List.mem_cons.mp hmem with rfl | hmem
        · by_cases hlt : next < w.seen.size
          · exact .inl (marked_visit.mpr (.inr ⟨rfl, hlt⟩))
          · exact .inr (.inl (Array.getElem?_eq_none (hfits.size ▸ Nat.le_of_not_lt hlt)))
        · exact .inr (.inr (List.mem_append.mpr (.inr hmem)))
    · exact .inr (.inr (List.mem_append.mpr (.inl (Program.mem_ways.mpr hnext))))
  waits q hq hwaits := by
    have hold {t : Thread} (ht : t ∈ w.threads) : t ∈ (p.visit start pc w).threads := by
      unfold Program.visit
      split
      · exact List.mem_cons_of_mem _ ht
      · exact ht
    rcases marked_visit.mp hq with hq | ⟨rfl, -⟩
    · obtain ⟨t, ht, htq⟩ := h.waits q hq hwaits
      exact ⟨t, hold ht, htq⟩
    · exact ⟨⟨q, start⟩, by simp [Program.visit, hwaits], rfl⟩

/-- With enough steps, all is marked that `pcs` lead to. -/
theorem Program.follow_closed {n : Nat} (hfits : w.Fits p) (h : w.Closed p before after pcs)
    (hn : pcs.length + 2 * w.unmarked ≤ n) :
    (p.follow before after start n pcs w).Closed p before after [] ∧
      ∀ pc ∈ pcs, (p.follow before after start n pcs w).Marked pc ∨ p.code[pc]? = none := by
  induction n generalizing pcs w with
  | zero =>
    obtain rfl : pcs = [] := List.length_eq_zero_iff.mp (by omega)
    exact ⟨h, nofun⟩
  | succ n ih =>
    cases pcs with
    | nil => exact ⟨h, nofun⟩
    | cons pc pcs =>
      rw [follow_cons, List.length_cons] at *
      split
      · rename_i hseen
        have hpc := hfits.marked_iff.mpr hseen
        obtain ⟨hclosed, hmarked⟩ := ih hfits (h.of_marked hpc) (by omega)
        refine ⟨hclosed, List.forall_mem_cons.mpr ⟨.inl ?_, hmarked⟩⟩
        exact (p.follow_adds n pcs w).marked pc hpc
      · rename_i hseen
        have hpc := mt hfits.marked_iff.mp hseen
        have hways : (p.ways before after pc).length ≤ 2 := p.length_ways_le pc
        have hfuel : (p.ways before after pc ++ pcs).length + 2 * (p.visit start pc w).unmarked ≤ n := by
          rw [List.length_append]
          by_cases hlt : pc < w.seen.size
          · have : (p.visit start pc w).unmarked + 1 = w.unmarked := Wave.unmarked_visit hpc hlt
            omega
          · have hnone : p.code[pc]? = none :=
              Array.getElem?_eq_none (hfits.size ▸ Nat.le_of_not_lt hlt)
            have hw : p.ways before after pc = [] := by simp [ways, hnone]
            have hu : (p.visit start pc w).unmarked = w.unmarked := by
              rw [visit, Array.setIfInBounds_eq_of_size_le (Nat.le_of_not_lt hlt)]
              rfl
            rw [hw, hu, List.length_nil]
            omega
        obtain ⟨hclosed, hmarked⟩ := ih hfits.visit (h.visit hfits) hfuel
        obtain ⟨hmarked₁, hmarked₂⟩ := List.forall_mem_append.mp hmarked
        refine ⟨hclosed, List.forall_mem_cons.mpr ⟨?_, hmarked₂⟩⟩
        by_cases hlt : pc < w.seen.size
        · exact .inl ((p.follow_adds n _ _).marked pc (Wave.marked_visit.mpr (.inr ⟨rfl, hlt⟩)))
        · exact .inr (Array.getElem?_eq_none (hfits.size ▸ Nat.le_of_not_lt hlt))

end

end Peg
