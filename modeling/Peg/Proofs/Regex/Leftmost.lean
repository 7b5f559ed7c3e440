import Peg.Proofs.Regex.Waves
import Mathlib.Data.List.TakeWhile

/-!
# What a search finds

A search finds a part of the text that the program matches, and none begins before it.
-/

namespace Peg

/-! ## Positions -/

section
variable {p : Program} {text : List Char} {i pc start : Nat} {w : Wave}

/-- The threads are the runs that wait at position `i`; the last one to begin comes first. -/
structure Wave.At (p : Program) (text : List Char) (i : Nat) (w : Wave) : Prop where
  fits : w.Fits p
  closed : w.Closed p (charBefore text i) text[i]? []
  sorted : w.threads.Pairwise fun t t' => t'.start ≤ t.start
  runs : ∀ t ∈ w.threads, p.waits t.pc ∧ t.start ≤ i ∧ p.Runs text (p.entry, t.start) (t.pc, i)

theorem runs_of_skips {next : Nat}
    (h : Relation.ReflTransGen (p.Skips (charBefore text i) text[i]?) pc next) :
    p.Runs text (pc, i) (next, i) :=
  h.lift (fun pc => (pc, i)) fun _ _ => .skip

theorem waits_of_step {s : CharSet} {next : Nat} (h : p.code[pc]? = some (.step s next)) :
    p.waits pc := by
  simp [Program.waits, h]

theorem waits_of_done (h : p.code[pc]? = some .done) : p.waits pc := by
  simp [Program.waits, h]

/-- What is marked leads to the end of a match by way of a thread. -/
theorem Wave.Closed.exists_thread (h : w.Closed p (charBefore text i) text[i]? [])
    (hpc : w.Marked pc ∨ p.code[pc]? = none) (hreach : p.Reaches text pc i) :
    ∃ t ∈ w.threads, p.Reaches text t.pc i := by
  obtain ⟨last, j, hrun, hlast⟩ := hreach
  have hwait {pc : Nat} (hm : w.Marked pc ∨ p.code[pc]? = none) (hw : p.waits pc)
      (hr : p.Reaches text pc i) : ∃ t ∈ w.threads, p.Reaches text t.pc i := by
    rcases hm with hm | hnone
    · obtain ⟨t, ht, rfl⟩ := h.waits pc hm hw
      exact ⟨t, ht, hr⟩
    · simp [Program.waits, hnone] at hw
  generalize hplace : (pc, i) = place at hrun
  induction hrun using Relation.ReflTransGen.head_induction_on generalizing pc with
  | refl =>
    obtain ⟨rfl, rfl⟩ := Prod.mk.inj hplace
    exact hwait hpc (waits_of_done hlast) ⟨pc, i, .refl, hlast⟩
  | head hgo hrest ih =>
    subst hplace
    cases hgo with
    | skip hskip =>
      rename_i next
      refine ih ?_ rfl
      rcases hpc with hm | hnone
      · simpa using h.leads pc next hm hskip
      · rcases hskip with ⟨hcode, -⟩ | hcode | hcode <;> simp [hnone] at hcode
    | step hcode hc hs =>
      exact hwait hpc (waits_of_step hcode) ⟨last, j, .head (.step hcode hc hs) hrest, hlast⟩

/-- A new run is followed behind the ones that began before it. -/
theorem Wave.At.enter (h : w.At p text i) (hrun : p.Runs text (p.entry, start) (pc, i))
    (hstart : start ≤ i) (hlast : ∀ t ∈ w.threads, t.start ≤ start) :
    let w' := p.enter (charBefore text i) text[i]? start pc w
    w'.At p text i ∧ (w'.Marked pc ∨ p.code[pc]? = none) ∧
      ∃ new, w'.threads = new ++ w.threads ∧ ∀ t ∈ new, t.start = start := by
  intro w'
  have hadds : Wave.Adds p (charBefore text i) text[i]? start [pc] w w' := p.follow_adds _ [pc] w
  have hfuel : [pc].length + 2 * w.unmarked ≤ 2 * p.code.size + 1 := by
    have : w.unmarked ≤ w.seen.size := Array.countP_le_size
    have := h.fits.size
    rw [List.length_singleton]
    omega
  have hclosed' : w.Closed p (charBefore text i) text[i]? [pc] :=
    ⟨fun q next hq hnext => (h.closed.leads q next hq hnext).imp_right fun h => h.imp_right nofun,
      h.closed.waits⟩
  obtain ⟨hclosed, hmarked⟩ := p.follow_closed h.fits hclosed' hfuel
  obtain ⟨new, hnew, hthreads⟩ := hadds.threads
  refine ⟨⟨hadds.fits h.fits, hclosed, ?_, ?_⟩, hmarked pc List.mem_cons_self, new, hnew,
    fun t ht => (hthreads t ht).1⟩
  · rw [hnew]
    refine List.pairwise_append.mpr ⟨?_, h.sorted, fun t ht t' ht' => ?_⟩
    · exact List.pairwise_of_forall_mem_list fun t ht t' ht' => by
        rw [(hthreads t ht).1, (hthreads t' ht').1]
    · rw [(hthreads t ht).1]
      exact hlast t' ht'
  · rw [hnew]
    refine List.forall_mem_append.mpr ⟨fun t ht => ?_, h.runs⟩
    obtain ⟨rfl, hwaits, q, hq, hskips⟩ := hthreads t ht
    obtain rfl := List.mem_singleton.mp hq
    exact ⟨hwaits, hstart, hrun.trans (runs_of_skips hskips)⟩

/-- Of what waits, only a match that ends does not need a character. -/
theorem Program.Reaches.done_or_step (h : p.Reaches text pc i) (hwaits : p.waits pc) :
    p.code[pc]? = some .done ∨ ∃ s next c, p.code[pc]? = some (.step s next) ∧
      text[i]? = some c ∧ s.contains c ∧ p.Reaches text next (i + 1) := by
  obtain ⟨last, j, hrun, hlast⟩ := h
  rcases hrun.cases_head with hplace | ⟨place, hgo, hrest⟩
  · obtain ⟨rfl, rfl⟩ := Prod.mk.inj hplace
    exact .inl hlast
  · cases hgo with
    | skip hskip => exact absurd hskip (not_skips_of_waits hwaits)
    | step hcode hc hs => exact .inr ⟨_, _, _, hcode, hc, hs, last, j, hrest, hlast⟩

def Program.advance (p : Program) (c : Char) (after : Option Char) (w : Wave) (t : Thread) : Wave :=
  match p.code[t.pc]? with
  | some (.step s next) => if s.contains c then p.enter (some c) after t.start next w else w
  | _ => w

theorem Program.isDone_iff {t : Thread} : p.isDone t ↔ p.code[t.pc]? = some .done := by
  unfold isDone
  split
  · rename_i h
    exact iff_of_true rfl h
  · rename_i h
    exact iff_of_false nofun h

theorem Wave.next_at (hsize : w.seen.size = p.code.size) (hbounded : ∀ r ∈ w.seen, r ≤ w.round) :
    w.next.At p text i where
  fits := ⟨hsize, Nat.succ_pos _, fun r hr => Nat.le_succ_of_le (hbounded r hr)⟩
  closed := by
    have hnone (q : Nat) : ¬w.next.Marked q := fun hq =>
      Nat.not_succ_le_self _ (hbounded _ (Array.mem_of_getElem? hq))
    exact ⟨fun q _ hq => absurd hq (hnone q), fun q hq => absurd hq (hnone q)⟩
  sorted := .nil
  runs := nofun

theorem charBefore_succ (text : List Char) (i : Nat) : charBefore text (i + 1) = text[i]? :=
  rfl

section
variable {c : Char} {t : Thread}

theorem Wave.At.advance (h : w.At p text (i + 1)) (hc : text[i]? = some c) (hwaits : p.waits t.pc)
    (hstart : t.start ≤ i) (hrun : p.Runs text (p.entry, t.start) (t.pc, i))
    (hlast : ∀ t' ∈ w.threads, t'.start ≤ t.start) :
    let w' := p.advance c text[i + 1]? w t
    w'.At p text (i + 1) ∧ (∃ new, w'.threads = new ++ w.threads ∧ ∀ t' ∈ new, t'.start = t.start) ∧
      (p.isDone t = false → p.Reaches text t.pc i → ∃ t' ∈ w'.threads, p.Reaches text t'.pc (i + 1)) := by
  intro w'
  by_cases hstep : ∃ s next, p.code[t.pc]? = some (.step s next) ∧ s.contains c
  · obtain ⟨s, next, hcode, hs⟩ := hstep
    have hw' : w' = p.enter (charBefore text (i + 1)) text[i + 1]? t.start next w := by
      simp only [w', Program.advance, hcode, hs, charBefore_succ, hc, if_true]
    obtain ⟨hat, hmarked, hnew⟩ := h.enter (hrun.tail (.step hcode hc hs)) (Nat.le_succ_of_le hstart) hlast
    rw [hw']
    refine ⟨hat, hnew, fun hdone hreach => hat.closed.exists_thread hmarked ?_⟩
    rcases hreach.done_or_step hwaits with hlast | ⟨s', next', c', hcode', hc', hs', hreach⟩
    · exact absurd (Program.isDone_iff.mpr hlast) (Bool.eq_false_iff.mp hdone)
    · obtain ⟨rfl, rfl⟩ : s = s' ∧ next = next' := by simpa [hcode] using hcode'
      exact hreach
  · have hw' : w' = w := by
      simp only [w', Program.advance]
      split
      · rename_i s next hcode
        exact if_neg fun hs => hstep ⟨s, next, hcode, hs⟩
      · rfl
    rw [hw']
    refine ⟨h, ⟨[], rfl, nofun⟩, fun hdone hreach => ?_⟩
    rcases hreach.done_or_step hwaits with hlast | ⟨s, next, c', hcode, hc', hs, -⟩
    · exact absurd (Program.isDone_iff.mpr hlast) (Bool.eq_false_iff.mp hdone)
    · obtain rfl := Option.some.inj (hc.symm.trans hc')
      exact absurd ⟨s, next, hcode, hs⟩ hstep

/-- Every run goes on that does not end here, and no other begins. -/
theorem Wave.At.advanceAll {ts : List Thread} (h : w.At p text (i + 1)) (hc : text[i]? = some c)
    (hsorted : ts.Pairwise fun t t' => t.start ≤ t'.start)
    (hruns : ∀ t ∈ ts, p.waits t.pc ∧ t.start ≤ i ∧ p.Runs text (p.entry, t.start) (t.pc, i))
    (hlast : ∀ t ∈ w.threads, ∀ t' ∈ ts, t.start ≤ t'.start) :
    let w' := ts.foldl (p.advance c text[i + 1]?) w
    w'.At p text (i + 1) ∧ (∀ t ∈ w.threads, t ∈ w'.threads) ∧
      (∀ t ∈ w'.threads, t ∈ w.threads ∨ ∃ t' ∈ ts, t.start = t'.start) ∧
      ∀ t ∈ ts, p.isDone t = false → p.Reaches text t.pc i →
        ∃ t' ∈ w'.threads, t'.start ≤ t.start ∧ p.Reaches text t'.pc (i + 1) := by
  induction ts generalizing w with
  | nil => exact ⟨h, fun t ht => ht, fun t ht => .inl ht, nofun⟩
  | cons t ts ih =>
    obtain ⟨hfirst, hsorted⟩ := List.pairwise_cons.mp hsorted
    obtain ⟨⟨hwaits, hstart, hrun⟩, hruns⟩ := List.forall_mem_cons.mp hruns
    have hlast₁ : ∀ t' ∈ w.threads, t'.start ≤ t.start := fun t' ht' =>
      hlast t' ht' t List.mem_cons_self
    obtain ⟨hat, ⟨new, hnew, hstarts⟩, hreach⟩ := h.advance hc hwaits hstart hrun hlast₁
    have hle : ∀ t' ∈ (p.advance c text[i + 1]? w t).threads, t'.start ≤ t.start := by
      rw [hnew]
      exact List.forall_mem_append.mpr ⟨fun t' ht' => Nat.le_of_eq (hstarts t' ht'), hlast₁⟩
    obtain ⟨hat', hkept, hfrom, hreach'⟩ := ih hat hsorted hruns fun t' ht' t'' ht'' =>
      Nat.le_trans (hle t' ht') (hfirst t'' ht'')
    refine ⟨hat', fun t' ht' => hkept t' ?_, fun t' ht' => ?_, List.forall_mem_cons.mpr ⟨?_, hreach'⟩⟩
    · rw [hnew]
      exact List.mem_append_right new ht'
    · rcases hfrom t' ht' with ht' | ⟨t'', ht'', he⟩
      · rw [hnew] at ht'
        rcases List.mem_append.mp ht' with ht' | ht'
        · exact .inr ⟨t, List.mem_cons_self, hstarts t' ht'⟩
        · exact .inl ht'
      · exact .inr ⟨t'', List.mem_cons_of_mem t ht'', he⟩
    · intro hdone hr
      obtain ⟨t', ht', hr'⟩ := hreach hdone hr
      exact ⟨t', hkept t' ht', hle t' ht', hr'⟩

end

/-! ## Searches -/

/-- There is a best match so far, which begins at `i` or before. -/
def BeginsBy (best : Option (Nat × Nat)) (i : Nat) : Prop :=
  ∃ start stop, best = some (start, stop) ∧ start ≤ i

/-- A search tries to begin at position `i`, unless it has found a match before. -/
def Program.MayStart (p : Program) (i : Nat) : Prop :=
  p.anchored → i = 0

/-- At position `i`, the runs `ts` that wait and the best match stand for all matches that begin
before `k`. -/
structure Covers (p : Program) (text : List Char) (i k : Nat) (ts : List Thread)
    (best : Option (Nat × Nat)) : Prop where
  sound : ∀ start stop, best = some (start, stop) →
    p.Matches text start stop ∧ start < k ∧ p.MayStart start
  starts : ∀ t ∈ ts, p.MayStart t.start
  bound : ∀ start stop, best = some (start, stop) → ∀ t ∈ ts, t.start ≤ start
  covered : ∀ start, start < k → p.MayStart start → p.Reaches text p.entry start →
    BeginsBy best start ∨ ∃ t ∈ ts, t.start ≤ start ∧ p.Reaches text t.pc i

section
variable {best : Option (Nat × Nat)}

theorem mayStart_of_mayBegin (h : p.mayBegin i best) : best = none ∧ p.MayStart i := by
  unfold Program.mayBegin at h
  obtain ⟨hnone, hi⟩ := Bool.and_eq_true_iff.mp h
  refine ⟨Option.isNone_iff_eq_none.mp hnone, fun hanchored => ?_⟩
  simpa [hanchored] using hi

theorem mayBegin_of_mayStart (h : p.MayStart i) : p.mayBegin i none := by
  unfold Program.mayBegin
  cases hanchored : p.anchored with
  | false => simp
  | true => simp [h hanchored]

theorem Covers.enter (h : Covers p text i i w.threads best) (hat : w.At p text i) :
    let w' := if p.mayBegin i best then p.enter (charBefore text i) text[i]? i p.entry w else w
    w'.At p text i ∧ Covers p text i (i + 1) w'.threads best := by
  intro w'
  by_cases hmay : p.mayBegin i best
  · obtain ⟨rfl, hi⟩ := mayStart_of_mayBegin hmay
    obtain ⟨hat', hmarked, new, hnew, hstarts⟩ := hat.enter .refl (Nat.le_refl i) fun t ht =>
      (hat.runs t ht).2.1
    have hw' : w' = p.enter (charBefore text i) text[i]? i p.entry w := if_pos hmay
    rw [hw']
    refine ⟨hat', nofun, ?_, nofun, fun start hstart hmay hreach => .inr ?_⟩
    · rw [hnew]
      exact List.forall_mem_append.mpr ⟨fun t ht => hstarts t ht ▸ hi, h.starts⟩
    · rcases Nat.lt_succ_iff_lt_or_eq.mp hstart with hlt | rfl
      · rcases h.covered start hlt hmay hreach with ⟨_, _, hnone, -⟩ | ⟨t, ht, hle, hr⟩
        · cases hnone
        · rw [hnew]
          exact ⟨t, List.mem_append_right new ht, hle, hr⟩
      · obtain ⟨t, ht, hr⟩ := hat'.closed.exists_thread hmarked hreach
        exact ⟨t, ht, (hat'.runs t ht).2.1, hr⟩
  · have hw' : w' = w := if_neg hmay
    rw [hw']
    refine ⟨hat, fun start stop he => ?_, h.starts, h.bound, fun start hstart hmay' hreach => ?_⟩
    · obtain ⟨hmatch, hlt, hs⟩ := h.sound start stop he
      exact ⟨hmatch, Nat.lt_succ_of_lt hlt, hs⟩
    · rcases Nat.lt_succ_iff_lt_or_eq.mp hstart with hlt | rfl
      · exact h.covered start hlt hmay' hreach
      · cases best with
        | none => exact absurd (mayBegin_of_mayStart hmay') hmay
        | some m => exact .inl ⟨m.1, m.2, rfl, Nat.le_of_lt (h.sound m.1 m.2 rfl).2.1⟩

/-- The first run that ends a match here is better than those behind it, but not than those before
it. -/
theorem Covers.settle {k : Nat} (h : Covers p text i k w.threads best) (hat : w.At p text i)
    (hk : i < k) :
    Covers p text i k (w.threads.reverse.takeWhile (!p.isDone ·))
      (((w.threads.reverse.find? p.isDone).map fun t => (t.start, i)).or best) := by
  have hsorted : w.threads.reverse.Pairwise fun t t' => t.start ≤ t'.start :=
    List.pairwise_reverse.mpr hat.sorted
  have hmem {t : Thread} : t ∈ w.threads.reverse ↔ t ∈ w.threads := List.mem_reverse
  cases hfind : w.threads.reverse.find? p.isDone with
  | none =>
    have htake : w.threads.reverse.takeWhile (!p.isDone ·) = w.threads.reverse := by
      rw [List.takeWhile_eq_self_iff]
      simpa using hfind
    rw [htake]
    refine ⟨h.sound, fun t ht => h.starts t (hmem.mp ht), fun start stop he t ht =>
      h.bound start stop he t (hmem.mp ht), fun start hstart hmay hreach => ?_⟩
    exact (h.covered start hstart hmay hreach).imp_right fun ⟨t, ht, h⟩ => ⟨t, hmem.mpr ht, h⟩
  | some d =>
    obtain ⟨hdone, ts₁, ts₂, hts, hbefore⟩ := List.find?_eq_some_iff_append.mp hfind
    have htake : w.threads.reverse.takeWhile (!p.isDone ·) = ts₁ := by
      rw [hts, List.takeWhile_append_of_pos hbefore, List.takeWhile_cons_of_neg (by simp [hdone]),
        List.append_nil]
    have hd : d ∈ w.threads := hmem.mp (hts ▸ by simp)
    obtain ⟨-, hstart, hrun⟩ := hat.runs d hd
    rw [hts] at hsorted hmem
    obtain ⟨-, hbehind, hle⟩ := List.pairwise_append.mp hsorted
    rw [htake]
    refine ⟨fun start stop he => ?_, fun t ht => h.starts t (hmem.mp (List.mem_append_left _ ht)),
      fun start stop he t ht => ?_, fun start hlt hmay hreach => ?_⟩
    · obtain ⟨rfl, rfl⟩ := Prod.mk.inj (Option.some.inj he)
      exact ⟨⟨d.pc, hrun, Program.isDone_iff.mp hdone⟩, Nat.lt_of_le_of_lt hstart hk, h.starts d hd⟩
    · obtain ⟨rfl, rfl⟩ := Prod.mk.inj (Option.some.inj he)
      exact hle t ht d List.mem_cons_self
    · rcases h.covered start hlt hmay hreach with ⟨s, e, rfl, hs⟩ | ⟨t, ht, hs, hr⟩
      · exact .inl ⟨d.start, i, rfl, Nat.le_trans (h.bound s e rfl d hd) hs⟩
      · rcases List.mem_append.mp (hmem.mpr ht) with ht | ht
        · exact .inr ⟨t, ht, hs, hr⟩
        · rcases List.mem_cons.mp ht with rfl | ht
          · exact .inl ⟨t.start, i, rfl, hs⟩
          · exact .inl ⟨d.start, i, rfl, Nat.le_trans ((List.pairwise_cons.mp hbehind).1 t ht) hs⟩

theorem Covers.next {c : Char} {ts : List Thread} (h : Covers p text i (i + 1) ts best)
    (hfits : w.Fits p) (hc : text[i]? = some c)
    (hsorted : ts.Pairwise fun t t' => t.start ≤ t'.start)
    (hruns : ∀ t ∈ ts, p.waits t.pc ∧ t.start ≤ i ∧ p.Runs text (p.entry, t.start) (t.pc, i))
    (hdone : ∀ t ∈ ts, p.isDone t = false) :
    let w' := p.stepAll c text[i + 1]? ts w
    w'.At p text (i + 1) ∧ Covers p text (i + 1) (i + 1) w'.threads best := by
  intro w'
  obtain ⟨hat, -, hfrom, hreach⟩ := (Wave.next_at hfits.size hfits.bounded).advanceAll hc hsorted hruns nofun
  have hfrom : ∀ t ∈ w'.threads, ∃ t' ∈ ts, t.start = t'.start := fun t ht =>
    (hfrom t ht).resolve_left nofun
  refine ⟨hat, h.sound, fun t ht => ?_, fun start stop he t ht => ?_, fun start hlt hmay hr => ?_⟩
  · obtain ⟨t', ht', hs⟩ := hfrom t ht
    exact hs ▸ h.starts t' ht'
  · obtain ⟨t', ht', hs⟩ := hfrom t ht
    exact hs ▸ h.bound start stop he t' ht'
  · refine (h.covered start hlt hmay hr).imp_right fun ⟨t, ht, hs, hr⟩ => ?_
    obtain ⟨t', ht', hs', hr'⟩ := hreach t ht (hdone t ht) hr
    exact ⟨t', ht', Nat.le_trans hs' hs, hr'⟩

theorem mem_undone {t : Thread} (h : t ∈ w.threads.reverse.takeWhile (!p.isDone ·)) :
    t ∈ w.threads ∧ p.isDone t = false :=
  ⟨List.mem_reverse.mp ((List.takeWhile_sublist _).subset h), by simpa using List.mem_takeWhile_imp h⟩

theorem Covers.found {k : Nat} {ts : List Thread} (h : Covers p text i k ts best)
    (hk : k ≤ text.length + 1) {start stop : Nat} (he : best = some (start, stop)) :
    p.Matches text start stop ∧ start ≤ text.length ∧ p.MayStart start := by
  obtain ⟨hmatch, hlt, hs⟩ := h.sound start stop he
  exact ⟨hmatch, Nat.le_of_lt_succ (Nat.lt_of_lt_of_le hlt hk), hs⟩

theorem Covers.beginsBy_of_end {ts : List Thread} (h : Covers p text i (i + 1) ts best)
    (hnone : text[i]? = none) (hts : ∀ t ∈ ts, p.waits t.pc ∧ p.isDone t = false)
    (hstart : start ≤ i) (hmay : p.MayStart start) (hreach : p.Reaches text p.entry start) :
    BeginsBy best start := by
  refine (h.covered start (Nat.lt_succ_of_le hstart) hmay hreach).resolve_right ?_
  rintro ⟨t, ht, -, hr⟩
  obtain ⟨hwaits, hdone⟩ := hts t ht
  rcases hr.done_or_step hwaits with hlast | ⟨_, _, c, -, hc, -⟩
  · exact absurd (Program.isDone_iff.mpr hlast) (Bool.eq_false_iff.mp hdone)
  · rw [hnone] at hc
    cases hc

theorem Covers.beginsBy_of_stop (h : Covers p text i (i + 1) [] best)
    (hstop : p.mayBegin (i + 1) best = false) (hmay : p.MayStart start)
    (hreach : p.Reaches text p.entry start) : BeginsBy best start := by
  by_cases hlt : start < i + 1
  · exact (h.covered start hlt hmay hreach).resolve_right (by simp)
  · cases best with
    | some m =>
      have := (h.sound m.1 m.2 rfl).2.1
      exact ⟨m.1, m.2, rfl, by omega⟩
    | none =>
      have hbegin : p.mayBegin (i + 1) none :=
        mayBegin_of_mayStart fun hanchored => absurd (hmay hanchored) (by omega)
      rw [hbegin] at hstop
      cases hstop

theorem searchFrom_leftmost {rest : List Char} (hat : w.At p text i)
    (h : Covers p text i i w.threads best) (hi : i ≤ text.length) (hrest : text.drop i = rest) :
    (∀ start stop, p.searchFrom i (charBefore text i) w best rest = some (start, stop) →
      p.Matches text start stop ∧ start ≤ text.length ∧ p.MayStart start) ∧
      ∀ start, start ≤ text.length → p.MayStart start → p.Reaches text p.entry start →
        BeginsBy (p.searchFrom i (charBefore text i) w best rest) start := by
  induction rest generalizing i w best with
  | nil =>
    have hnone : text[i]? = none := by rw [← List.head?_drop, hrest, List.head?_nil]
    have hlen : text.length ≤ i := List.getElem?_eq_none_iff.mp hnone
    obtain ⟨hat₁, h₁⟩ := h.enter hat
    rw [hnone] at hat₁ h₁
    have h₂ := h₁.settle hat₁ (Nat.lt_succ_self i)
    rw [Program.searchFrom, List.head?_nil]
    refine ⟨fun start stop he => h₂.found (Nat.succ_le_succ hi) he, fun start hstart hmay hreach => ?_⟩
    refine h₂.beginsBy_of_end hnone (fun t ht => ?_) (Nat.le_trans hstart hlen) hmay hreach
    obtain ⟨hmem, hdone⟩ := mem_undone ht
    exact ⟨(hat₁.runs t hmem).1, hdone⟩
  | cons c rest ih =>
    have hc : text[i]? = some c := by rw [← List.head?_drop, hrest, List.head?_cons]
    have hnext : text.drop (i + 1) = rest := by
      rw [← List.drop_drop, hrest, List.drop_one, List.tail_cons]
    have hafter : rest.head? = text[i + 1]? := by rw [← hnext, List.head?_drop]
    have hlt : i < text.length := (List.getElem?_eq_some_iff.mp hc).1
    obtain ⟨hat₁, h₁⟩ := h.enter hat
    rw [hc] at hat₁ h₁
    have h₂ := h₁.settle hat₁ (Nat.lt_succ_self i)
    rw [Program.searchFrom, List.head?_cons, hafter]
    generalize (if p.mayBegin i best then p.enter (charBefore text i) (some c) i p.entry w else w) =
      w₁ at *
    generalize ((w₁.threads.reverse.find? p.isDone).map fun t => (t.start, i)).or best = best₁ at *
    generalize hts : w₁.threads.reverse.takeWhile (!p.isDone ·) = ts at *
    have hundone {t : Thread} (ht : t ∈ ts) : t ∈ w₁.threads ∧ p.isDone t = false :=
      mem_undone (hts ▸ ht)
    split
    · rename_i hstop
      obtain ⟨hempty, hmay⟩ := Bool.and_eq_true_iff.mp hstop
      obtain rfl := List.isEmpty_iff.mp hempty
      rw [Bool.not_eq_true'] at hmay
      exact ⟨fun start stop he => h₂.found (Nat.succ_le_succ hi) he, fun start _ hstart hreach =>
        h₂.beginsBy_of_stop hmay hstart hreach⟩
    · have hsorted : ts.Pairwise fun t t' => t.start ≤ t'.start :=
        hts ▸ (List.pairwise_reverse.mpr hat₁.sorted).sublist (List.takeWhile_sublist _)
      obtain ⟨hat₂, h₃⟩ := h₂.next hat₁.fits hc hsorted (fun t ht => hat₁.runs t (hundone ht).1)
        fun t ht => (hundone ht).2
      have := ih hat₂ h₃ hlt hnext
      rw [charBefore_succ, hc] at this
      exact this

end

/-- A match that is found is one, and no other begins before it; in an anchored program, no other
begins at the start of the text. If none is found, there is none. -/
theorem search_leftmost (p : Program) (text : List Char) :
    (∀ start stop, p.search text = some (start, stop) →
      p.Matches text start stop ∧ start ≤ text.length ∧ p.MayStart start) ∧
      ∀ start, start ≤ text.length → p.MayStart start → p.Reaches text p.entry start →
        BeginsBy (p.search text) start := by
  have hat : (Wave.start p).At p text 0 := Wave.next_at (w := ⟨[], Array.replicate p.code.size 0, 0⟩)
    Array.size_replicate fun r hr => Nat.le_of_eq (Array.mem_replicate.mp hr).2
  have hcovers : Covers p text 0 0 (Wave.start p).threads none :=
    ⟨nofun, nofun, nofun, fun start hstart => absurd hstart (Nat.not_lt_zero start)⟩
  exact searchFrom_leftmost hat hcovers (Nat.zero_le _) rfl

end

end Peg
