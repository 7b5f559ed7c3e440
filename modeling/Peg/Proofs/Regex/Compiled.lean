import Peg.Proofs.Regex.Matches
import Peg.Proofs.Regex.Waves

/-!
# Programs match what their expressions match

What is put down for an expression leads to what follows it, behind a match of the expression and
nowhere else. What follows it is as it was before.
-/

namespace Peg

open Relation (Comp ReflTransGen TransGen)

namespace Program

section
variable {p q : Program} {text : List Char} {pc i : Nat} {y : Nat × Nat}

theorem goes_split_iff {preferred other : Nat} (h : p.code[pc]? = some (.split preferred other)) :
    p.Goes text (pc, i) y ↔ y = (preferred, i) ∨ y = (other, i) := by
  constructor
  · rintro ((⟨h', -⟩ | h' | h') | ⟨h', -, -⟩)
    all_goals simp_all
  · rintro (rfl | rfl)
    · exact .skip (.preferred h)
    · exact .skip (.other h)

theorem goes_look_iff {l : Look} {next : Nat} (h : p.code[pc]? = some (.look l next)) :
    p.Goes text (pc, i) y ↔ l.holds (charBefore text i) text[i]? ∧ y = (next, i) := by
  constructor
  · rintro ((⟨h', hl⟩ | h' | h') | ⟨h', -, -⟩)
    all_goals simp_all
  · rintro ⟨hl, rfl⟩
    exact .skip (.look h hl)

theorem goes_step_iff {s : CharSet} {next : Nat} (h : p.code[pc]? = some (.step s next)) :
    p.Goes text (pc, i) y ↔ (∃ c, text[i]? = some c ∧ s.contains c) ∧ y = (next, i + 1) := by
  constructor
  · rintro ((⟨h', hl⟩ | h' | h') | ⟨h', hc, hs⟩)
    all_goals simp_all
  · rintro ⟨⟨c, hc, hs⟩, rfl⟩
    exact .step h hc hs

/-- At the end of a match nothing goes on. -/
theorem Goes.code {x : Nat × Nat} (h : p.Goes text x y) :
    ∃ instr, p.code[x.1]? = some instr ∧ instr ≠ .done := by
  rcases h with (⟨h, -⟩ | h | h) | ⟨h, -, -⟩
  all_goals exact ⟨_, h, nofun⟩

theorem Goes.of_code {x : Nat × Nat} (h : p.Goes text x y)
    (hcode : p.code[x.1]? ≠ some .done → q.code[x.1]? = p.code[x.1]?) : q.Goes text x y := by
  obtain ⟨instr, hinstr, hdone⟩ := h.code
  have heq := hcode (by simp [hinstr, hdone])
  rcases h with (⟨h, hl⟩ | h | h) | ⟨h, hc, hs⟩
  · exact .skip (.look (heq.trans h) hl)
  · exact .skip (.preferred (heq.trans h))
  · exact .skip (.other (heq.trans h))
  · exact .step (heq.trans h) hc hs

theorem Runs.of_code {x : Nat × Nat} (h : p.Runs text x y)
    (hcode : ∀ pc : Nat, p.code[pc]? ≠ some .done → q.code[pc]? = p.code[pc]?) : q.Runs text x y :=
  h.lift id fun x _ hgo => hgo.of_code (hcode x.1)

end

end Program

namespace Fragment

variable {text : List Char} {f g k : Fragment} {m m' : Nat → Nat → Prop}

/-! ## Fragments -/

def program (f : Fragment) : Program :=
  ⟨f.code, f.entry, false⟩

/-- Nothing leads out of the instructions put down. -/
structure Closed (f : Fragment) : Prop where
  entry_lt : f.entry < f.code.size
  goes_lt : ∀ text x y, f.program.Goes text x y → y.1 < f.code.size

/-- All that `k` has is there, and no match ends in what is new. -/
structure Extends (k f : Fragment) : Prop where
  size_le : k.code.size ≤ f.code.size
  old : ∀ pc < k.code.size, f.code[pc]? = k.code[pc]?
  new : ∀ pc, k.code.size ≤ pc → f.code[pc]? ≠ some .done

/-- From `a` on, `f` leads into `k` where `k` leads behind a part of which `m` holds. -/
def LeadsFrom (text : List Char) (m : Nat → Nat → Prop) (k f : Fragment) (a : Nat) : Prop :=
  ∀ i pc j, pc < k.code.size → (f.program.Runs text (a, i) (pc, j) ↔
    ∃ n, m i n ∧ k.program.Runs text (k.entry, n) (pc, j))

structure Leads (text : List Char) (m : Nat → Nat → Prop) (k f : Fragment) : Prop where
  closed : f.Closed
  ext : k.Extends f
  runs : LeadsFrom text m k f f.entry

/-- `body` puts down what `m` describes. -/
def Emits (text : List Char) (m : Nat → Nat → Prop) (body : Fragment → Fragment) : Prop :=
  ∀ k : Fragment, k.Closed → Leads text m k (body k)

theorem Extends.refl (k : Fragment) : k.Extends k where
  size_le := Nat.le_refl _
  old _ _ := rfl
  new pc hpc := by simp [Array.getElem?_eq_none hpc]

theorem Extends.trans (h : k.Extends g) (h' : g.Extends f) : k.Extends f where
  size_le := Nat.le_trans h.size_le h'.size_le
  old pc hpc := (h'.old pc (Nat.lt_of_lt_of_le hpc h.size_le)).trans (h.old pc hpc)
  new pc hpc := by
    by_cases hlt : pc < g.code.size
    · rw [h'.old pc hlt]
      exact h.new pc hpc
    · exact h'.new pc (Nat.le_of_not_lt hlt)

theorem Closed.runs_lt (hk : k.Closed) {x y : Nat × Nat} (h : k.program.Runs text x y)
    (hx : x.1 < k.code.size) : y.1 < k.code.size := by
  cases h with
  | refl => exact hx
  | tail _ hgo => exact hk.goes_lt _ _ _ hgo

/-- Once in `k`, one stays there. -/
theorem Extends.runs_iff (h : k.Extends f) (hk : k.Closed) {x y : Nat × Nat}
    (hx : x.1 < k.code.size) : f.program.Runs text x y ↔ k.program.Runs text x y := by
  constructor
  · intro hrun
    induction hrun with
    | refl => exact .refl
    | tail _ hgo ih => exact ih.tail (hgo.of_code fun _ => (h.old _ (hk.runs_lt ih hx)).symm)
  · intro hrun
    induction hrun with
    | refl => exact .refl
    | tail hrun hgo ih => exact ih.tail (hgo.of_code fun _ => h.old _ (hk.runs_lt hrun hx))

theorem Closed.at_entry (hk : k.Closed) {next : Nat} (hnext : next < k.code.size) :
    Closed ⟨k.code, next⟩ :=
  ⟨hnext, fun text x y h => hk.goes_lt text x y (h.of_code fun _ => rfl)⟩

theorem Extends.at_entry (h : k.Extends f) (next : Nat) : k.Extends ⟨f.code, next⟩ :=
  ⟨h.size_le, h.old, h.new⟩

theorem runs_at_entry (next : Nat) {x y : Nat × Nat} :
    (program ⟨k.code, next⟩).Runs text x y ↔ k.program.Runs text x y :=
  ⟨fun h => Program.Runs.of_code h fun _ _ => rfl, fun h => Program.Runs.of_code h fun _ _ => rfl⟩

/-! ## Parts next to each other -/

theorem emits_id : Emits text Eq fun k => k := by
  intro k hk
  refine ⟨hk, .refl k, fun i pc j _ => ?_⟩
  simp

theorem Leads.trans (h : Leads text m g f) (h' : Leads text m' k g) :
    Leads text (Comp m m') k f := by
  refine ⟨h.closed, h'.ext.trans h.ext, fun i pc j hpc => ?_⟩
  rw [h.runs i pc j (Nat.lt_of_lt_of_le hpc h'.ext.size_le)]
  constructor
  · rintro ⟨n, hn, hrun⟩
    obtain ⟨n', hn', hrun⟩ := (h'.runs n pc j hpc).mp hrun
    exact ⟨n', ⟨n, hn, hn'⟩, hrun⟩
  · rintro ⟨n', ⟨n, hn, hn'⟩, hrun⟩
    exact ⟨n, hn, (h'.runs n pc j hpc).mpr ⟨n', hn', hrun⟩⟩

theorem Emits.comp {b b' : Fragment → Fragment} (h : Emits text m b) (h' : Emits text m' b') :
    Emits text (Comp m m') fun k => b (b' k) :=
  fun k hk => (h _ (h' k hk).closed).trans (h' k hk)

theorem Leads.congr (h : Leads text m k f) (hm : ∀ i j, m i j ↔ m' i j) : Leads text m' k f := by
  obtain rfl : m = m' := funext₂ fun i j => propext (hm i j)
  exact h

theorem emits_repeat {b : Fragment → Fragment} (h : Emits text m b) (n : Nat) :
    Emits text (Re.Times m n) (Nat.repeat b n) := by
  induction n with
  | zero => exact emits_id
  | succ n ih => exact h.comp ih

/-! ## Single instructions -/

section
variable {instr : Instr}

theorem getElem?_push (k : Fragment) (instr : Instr) (pc : Nat) :
    (k.push instr).code[pc]? = if pc = k.code.size then some instr else k.code[pc]? := by
  change (k.code.push instr)[pc]? = _
  rw [Array.getElem?_push]

theorem size_push (k : Fragment) (instr : Instr) : (k.push instr).code.size = k.code.size + 1 :=
  Array.size_push _

theorem lt_size_push (k : Fragment) (instr : Instr) : k.code.size < (k.push instr).code.size :=
  Nat.lt_of_lt_of_eq (Nat.lt_succ_self _) (size_push k instr).symm

theorem getElem?_push_size (k : Fragment) (instr : Instr) :
    (k.push instr).program.code[k.code.size]? = some instr :=
  (k.getElem?_push instr _).trans (if_pos rfl)

theorem extends_push (k : Fragment) (hdone : instr ≠ .done) : k.Extends (k.push instr) where
  size_le := by simp [size_push]
  old pc hpc := by rw [getElem?_push, if_neg (Nat.ne_of_lt hpc)]
  new pc hpc := by
    rw [getElem?_push]
    split
    · simpa using hdone
    · simp [Array.getElem?_eq_none hpc]

theorem Closed.push (hk : k.Closed)
    (hnew : ∀ text i y, (k.push instr).program.Goes text (k.code.size, i) y → y.1 < k.code.size) :
    (k.push instr).Closed := by
  refine ⟨lt_size_push k instr, fun text x y h => ?_⟩
  · refine Nat.lt_trans ?_ (lt_size_push k instr)
    by_cases hx : x.1 = k.code.size
    · exact hnew text x.2 y (hx ▸ h)
    · refine hk.goes_lt text x y (h.of_code fun _ => ?_)
      exact ((getElem?_push k instr x.1).trans (if_neg hx)).symm

/-- A new instruction leads into what was there. -/
theorem runs_push_iff (hk : k.Closed) (hdone : instr ≠ .done)
    (hnew : ∀ text i y, (k.push instr).program.Goes text (k.code.size, i) y → y.1 < k.code.size)
    {i pc j : Nat} (hpc : pc < k.code.size) :
    (k.push instr).program.Runs text ((k.push instr).entry, i) (pc, j) ↔
      ∃ y, (k.push instr).program.Goes text (k.code.size, i) y ∧ k.program.Runs text y (pc, j) := by
  have hext := extends_push k hdone
  constructor
  · intro hrun
    rcases ReflTransGen.cases_head hrun with he | ⟨y, hgo, hrest⟩
    · exact absurd (Prod.mk.inj he).1.symm (Nat.ne_of_lt hpc)
    · exact ⟨y, hgo, (hext.runs_iff hk (hnew _ _ _ hgo)).mp hrest⟩
  · rintro ⟨y, hgo, hrest⟩
    exact .head hgo ((hext.runs_iff hk (hnew _ _ _ hgo)).mpr hrest)

theorem leads_push {m : List Char → Nat → Nat → Prop} (hk : k.Closed) (hdone : instr ≠ .done)
    (hgoes : ∀ text i y, (k.push instr).program.Goes text (k.code.size, i) y ↔
      m text i y.2 ∧ y.1 = k.entry) : Leads text (m text) k (k.push instr) := by
  have hnew : ∀ text i y,
      (k.push instr).program.Goes text (k.code.size, i) y → y.1 < k.code.size := by
    intro text i y hgo
    rw [((hgoes text i y).mp hgo).2]
    exact hk.entry_lt
  refine ⟨hk.push hnew, extends_push k hdone, fun i pc j hpc => ?_⟩
  rw [runs_push_iff hk hdone hnew hpc]
  constructor
  · rintro ⟨⟨entry, n⟩, hgo, hrun⟩
    obtain ⟨hm, rfl⟩ := (hgoes text i _).mp hgo
    exact ⟨n, hm, hrun⟩
  · rintro ⟨n, hm, hrun⟩
    exact ⟨(k.entry, n), (hgoes text i _).mpr ⟨hm, rfl⟩, hrun⟩

end

theorem emits_take (s : CharSet) : Emits text (Re.Matches text (.set s)) (take s) := by
  intro k hk
  refine leads_push (m := fun text => Re.Matches text (.set s)) hk nofun fun text i y => ?_
  rw [Program.goes_step_iff (getElem?_push_size k _), Re.Matches]
  grind

theorem emits_look (l : Look) :
    Emits text (Re.Matches text (.look l)) fun k => k.push (.look l k.entry) := by
  intro k hk
  refine leads_push (m := fun text => Re.Matches text (.look l)) hk nofun fun text i y => ?_
  rw [Program.goes_look_iff (getElem?_push_size k _), Re.Matches]
  grind

/-! ## Forks -/

theorem fork_ne_done (greedy : Bool) (again stop : Nat) : fork greedy again stop ≠ .done := by
  cases greedy <;> exact nofun

theorem goes_fork_iff {p : Program} {greedy : Bool} {pc i again stop : Nat} {y : Nat × Nat}
    (h : p.code[pc]? = some (fork greedy again stop)) :
    p.Goes text (pc, i) y ↔ y = (again, i) ∨ y = (stop, i) := by
  cases greedy with
  | true => exact Program.goes_split_iff h
  | false => exact (Program.goes_split_iff h).trans or_comm

section
variable {greedy : Bool} {a b : Nat}

theorem goes_push_fork (ha : a < k.code.size) (hb : b < k.code.size) (text : List Char) (i : Nat)
    (y : Nat × Nat) (h : (k.push (fork greedy a b)).program.Goes text (k.code.size, i) y) :
    y.1 < k.code.size := by
  rcases (goes_fork_iff (getElem?_push_size k _)).mp h with rfl | rfl
  · exact ha
  · exact hb

theorem runs_push_fork_iff (hk : k.Closed) (ha : a < k.code.size) (hb : b < k.code.size)
    {i pc j : Nat} (hpc : pc < k.code.size) :
    (k.push (fork greedy a b)).program.Runs text ((k.push (fork greedy a b)).entry, i) (pc, j) ↔
      k.program.Runs text (a, i) (pc, j) ∨ k.program.Runs text (b, i) (pc, j) := by
  rw [runs_push_iff hk (fork_ne_done greedy a b) (goes_push_fork ha hb) hpc]
  constructor
  · rintro ⟨y, hgo, hrun⟩
    rcases (goes_fork_iff (getElem?_push_size k _)).mp hgo with rfl | rfl
    · exact .inl hrun
    · exact .inr hrun
  · rintro (hrun | hrun)
    · exact ⟨_, (goes_fork_iff (getElem?_push_size k _)).mpr (.inl rfl), hrun⟩
    · exact ⟨_, (goes_fork_iff (getElem?_push_size k _)).mpr (.inr rfl), hrun⟩

theorem leadsFrom_stop (hk : k.Closed) (hext : k.Extends f) : LeadsFrom text Eq k f k.entry := by
  intro i pc j _
  rw [hext.runs_iff hk hk.entry_lt]
  simp

theorem leads_fork (hf : f.Closed) (hext : k.Extends f) (ha : a < f.code.size)
    (hb : b < f.code.size) (hm : LeadsFrom text m k f a) (hm' : LeadsFrom text m' k f b) :
    Leads text (fun i j => m i j ∨ m' i j) k (f.push (fork greedy a b)) := by
  refine ⟨hf.push (goes_push_fork ha hb), hext.trans (extends_push f (fork_ne_done greedy a b)),
    fun i pc j hpc => ?_⟩
  rw [runs_push_fork_iff hf ha hb (Nat.lt_of_lt_of_le hpc hext.size_le), hm i pc j hpc,
    hm' i pc j hpc]
  simp only [or_and_right, exists_or]

end

/-- A branch beside the others, all of which go on where `k` begins. -/
theorem leads_branch {b : Fragment → Fragment} (h : Emits text m b) (hk : k.Closed)
    (hothers : Leads text m' k g) :
    Leads text (fun i j => m i j ∨ m' i j) k
      ((b ⟨g.code, k.entry⟩).push (fork true (b ⟨g.code, k.entry⟩).entry g.entry)) := by
  have hclosed := hothers.closed.at_entry (Nat.lt_of_lt_of_le hk.entry_lt hothers.ext.size_le)
  have hext := hothers.ext.at_entry k.entry
  have hfirst := h ⟨g.code, k.entry⟩ hclosed
  have hbranch : Leads text (Comp m Eq) k (b ⟨g.code, k.entry⟩) :=
    hfirst.trans ⟨hclosed, hext, leadsFrom_stop hk hext⟩
  have hrest : LeadsFrom text m' k (b ⟨g.code, k.entry⟩) g.entry := by
    intro i pc j hpc
    rw [hfirst.ext.runs_iff hclosed hothers.closed.entry_lt, runs_at_entry]
    exact hothers.runs i pc j hpc
  refine leads_fork hbranch.closed hbranch.ext hbranch.closed.entry_lt
    (Nat.lt_of_lt_of_le hothers.closed.entry_lt hfirst.ext.size_le) ?_ hrest
  rw [Relation.comp_eq] at hbranch
  exact hbranch.runs

/-! ## Options -/

theorem leads_upTo {b : Fragment → Fragment} (h : Emits text m b) (hk : k.Closed) (greedy : Bool)
    (n : Nat) :
    Leads text (Re.UpTo m (some n)) k (Nat.repeat (optional greedy b k.entry) n k) := by
  induction n with
  | zero => exact (emits_id k hk).congr fun i j => Re.upTo_zero_iff.symm
  | succ n ih =>
    have hbody := (h _ ih.closed).trans ih
    exact (leads_fork hbody.closed hbody.ext hbody.closed.entry_lt
      (Nat.lt_of_lt_of_le hk.entry_lt hbody.ext.size_le) hbody.runs
      (leadsFrom_stop hk hbody.ext)).congr fun i j => Re.upTo_succ_iff.symm

/-! ## Loops -/

section
variable {greedy : Bool}

theorem not_goes_push_done {i : Nat} {y : Nat × Nat} :
    ¬(k.push .done).program.Goes text (k.code.size, i) y := by
  intro h
  obtain ⟨instr, hinstr, hdone⟩ := h.code
  exact hdone (Option.some.inj (hinstr.symm.trans (getElem?_push_size k _)))

theorem closed_push_done (hk : k.Closed) : (k.push .done).Closed :=
  hk.push fun _ _ _ h => absurd h not_goes_push_done

theorem runs_push_done {i : Nat} {y : Nat × Nat}
    (h : (k.push .done).program.Runs text (k.code.size, i) y) : y = (k.code.size, i) := by
  rcases h.cases_head with rfl | ⟨z, hgo, -⟩
  · rfl
  · exact absurd hgo not_goes_push_done

/-- The body of a loop leads back to where it is decided whether to go on. -/
theorem runs_body_iff (hg : Leads text m (k.push .done) g) {i pc j : Nat}
    (hpc : pc ≤ k.code.size) :
    g.program.Runs text (g.entry, i) (pc, j) ↔ m i j ∧ pc = k.code.size := by
  rw [hg.runs i pc j (by rw [size_push]; exact Nat.lt_succ_of_le hpc)]
  constructor
  · rintro ⟨n, hn, hrun⟩
    obtain ⟨rfl, rfl⟩ := Prod.mk.inj (runs_push_done hrun)
    exact ⟨hn, rfl⟩
  · rintro ⟨hm, rfl⟩
    exact ⟨j, hm, .refl⟩

/-- The body `g` becomes a loop before `k`. -/
def tie (greedy : Bool) (k g : Fragment) : Fragment :=
  ⟨g.code.setIfInBounds k.code.size (fork greedy g.entry k.entry), g.entry⟩

theorem size_lt_of_leads (hg : Leads text m (k.push .done) g) : k.code.size < g.code.size :=
  Nat.lt_of_lt_of_le (lt_size_push k _) hg.ext.size_le

theorem size_tie (greedy : Bool) (k g : Fragment) : (tie greedy k g).code.size = g.code.size :=
  Array.size_setIfInBounds

theorem getElem?_tie (hlt : k.code.size < g.code.size) (pc : Nat) :
    (tie greedy k g).code[pc]? =
      if pc = k.code.size then some (fork greedy g.entry k.entry) else g.code[pc]? := by
  change (g.code.setIfInBounds k.code.size _)[pc]? = _
  rw [Array.getElem?_setIfInBounds, if_pos hlt]
  simp only [eq_comm]

/-- Where a run through the loop can be: at its decision, in the body, which it has entered, or in
what follows. -/
def InLoop (text : List Char) (k g : Fragment) (decides enters : Nat → Prop) (x : Nat × Nat) :
    Prop :=
  x.1 = k.code.size ∧ decides x.2 ∨
    k.code.size < x.1 ∧ (∃ n, enters n ∧ g.program.Runs text (g.entry, n) x) ∨
    x.1 < k.code.size ∧ ∃ n, decides n ∧ k.program.Runs text (k.entry, n) x

theorem InLoop.behind {decides enters : Nat → Prop} {pc j : Nat} (hpc : pc < k.code.size)
    (h : InLoop text k g decides enters (pc, j)) :
    ∃ n, decides n ∧ k.program.Runs text (k.entry, n) (pc, j) := by
  rcases h with ⟨rfl, -⟩ | ⟨hlt, -⟩ | ⟨-, h⟩
  · exact absurd hpc (Nat.lt_irrefl _)
  · exact absurd hpc (Nat.lt_asymm hlt)
  · exact h

section
variable (hk : k.Closed) (hg : Leads text m (k.push .done) g)
include hg

theorem goes_tie_iff {i : Nat} {y : Nat × Nat} :
    (tie greedy k g).program.Goes text (k.code.size, i) y ↔ y = (g.entry, i) ∨ y = (k.entry, i) :=
  goes_fork_iff ((getElem?_tie (size_lt_of_leads hg) k.code.size).trans (if_pos rfl))

theorem goes_of_goes_tie {x y : Nat × Nat} (hx : x.1 ≠ k.code.size) {text : List Char}
    (h : (tie greedy k g).program.Goes text x y) : g.program.Goes text x y :=
  h.of_code fun _ => ((getElem?_tie (size_lt_of_leads hg) x.1).trans (if_neg hx)).symm

theorem runs_tie_of_runs {x y : Nat × Nat} (h : g.program.Runs text x y) :
    (tie greedy k g).program.Runs text x y := by
  refine h.of_code fun pc hpc => (getElem?_tie (size_lt_of_leads hg) pc).trans (if_neg ?_)
  rintro rfl
  exact hpc ((hg.ext.old _ (lt_size_push k _)).trans (getElem?_push_size k _))

theorem extends_tie (greedy : Bool) : k.Extends (tie greedy k g) where
  size_le := by
    rw [size_tie]
    exact Nat.le_of_lt (size_lt_of_leads hg)
  old pc hpc := by
    rw [getElem?_tie (size_lt_of_leads hg), if_neg (Nat.ne_of_lt hpc),
      hg.ext.old pc (Nat.lt_trans hpc (lt_size_push k _)), getElem?_push,
      if_neg (Nat.ne_of_lt hpc)]
  new pc hpc := by
    rw [getElem?_tie (size_lt_of_leads hg)]
    split
    · simpa using fork_ne_done greedy g.entry k.entry
    · refine hg.ext.new pc ?_
      rw [size_push]
      omega

include hk

theorem closed_tie (greedy : Bool) : (tie greedy k g).Closed := by
  have hentry := hg.closed.entry_lt
  refine ⟨?_, fun text x y h => ?_⟩
  · rwa [size_tie]
  · rw [size_tie]
    by_cases hx : x.1 = k.code.size
    · rcases (goes_fork_iff ((getElem?_tie (size_lt_of_leads hg) x.1).trans (if_pos hx))).mp h
        with rfl | rfl
      · exact hentry
      · exact Nat.lt_trans hk.entry_lt (size_lt_of_leads hg)
    · exact hg.closed.goes_lt text x y (goes_of_goes_tie hg hx h)

theorem InLoop.goes {decides enters : Nat → Prop} (henters : ∀ n, decides n → enters n)
    (hdecides : ∀ n j, enters n → m n j → decides j) {x y : Nat × Nat}
    (h : InLoop text k g decides enters x) (hgo : (tie greedy k g).program.Goes text x y) :
    InLoop text k g decides enters y := by
  have enter {n : Nat} (hn : enters n) {y : Nat × Nat}
      (hrun : g.program.Runs text (g.entry, n) y) : InLoop text k g decides enters y := by
    rcases Nat.lt_or_ge k.code.size y.1 with hlt | hle
    · exact .inr (.inl ⟨hlt, n, hn, hrun⟩)
    · obtain ⟨hm, hy⟩ := (runs_body_iff hg hle).mp hrun
      exact .inl ⟨hy, hdecides n y.2 hn hm⟩
  obtain ⟨pc, i⟩ := x
  rcases h with ⟨rfl, hi⟩ | ⟨hlt, n, hn, hrun⟩ | ⟨hlt, n, hn, hrun⟩
  · rcases (goes_tie_iff hg).mp hgo with rfl | rfl
    · exact enter (henters i hi) .refl
    · exact .inr (.inr ⟨hk.entry_lt, i, hi, .refl⟩)
  · exact enter hn (hrun.tail (goes_of_goes_tie hg (Nat.ne_of_gt hlt) hgo))
  · have hrest : k.program.Runs text (k.entry, n) y :=
      hrun.tail (hgo.of_code fun _ => ((extends_tie hg _).old pc hlt).symm)
    exact .inr (.inr ⟨hk.runs_lt hrest hk.entry_lt, n, hn, hrest⟩)

/-- The body is entered again only at the decision, so that what holds there is kept up by a match
of the body. -/
theorem InLoop.runs {decides enters : Nat → Prop} (henters : ∀ n, decides n → enters n)
    (hdecides : ∀ n j, enters n → m n j → decides j) {x y : Nat × Nat}
    (h : InLoop text k g decides enters x) (hrun : (tie greedy k g).program.Runs text x y) :
    InLoop text k g decides enters y := by
  induction hrun with
  | refl => exact h
  | tail _ hgo ih => exact ih.goes hk hg henters hdecides hgo

omit hk in
theorem runs_round {i j : Nat} (hm : m i j) :
    (tie greedy k g).program.Runs text (g.entry, i) (k.code.size, j) :=
  runs_tie_of_runs hg ((runs_body_iff hg (Nat.le_refl _)).mpr ⟨hm, rfl⟩)

omit hk in
theorem runs_rounds {i j : Nat} (hm : ReflTransGen m i j) :
    (tie greedy k g).program.Runs text (k.code.size, i) (k.code.size, j) := by
  induction hm with
  | refl => exact .refl
  | tail _ hm ih =>
    exact ih.trans (.head ((goes_tie_iff hg).mpr (.inl rfl)) (runs_round hg hm))

theorem runs_leave {i : Nat} {y : Nat × Nat} (h : k.program.Runs text (k.entry, i) y) :
    (tie greedy k g).program.Runs text (k.code.size, i) y :=
  .head ((goes_tie_iff hg).mpr (.inr rfl)) (((extends_tie hg _).runs_iff hk hk.entry_lt).mpr h)

theorem leadsFrom_decision (greedy : Bool) :
    LeadsFrom text (ReflTransGen m) k (tie greedy k g) k.code.size := by
  intro i pc j hpc
  constructor
  · intro hrun
    have hstart : InLoop text k g (ReflTransGen m i) (ReflTransGen m i) (k.code.size, i) :=
      .inl ⟨rfl, .refl⟩
    exact (hstart.runs hk hg (fun _ => id) (fun _ _ h hm => h.tail hm) hrun).behind hpc
  · rintro ⟨n, hn, hrun⟩
    exact (runs_rounds hg hn).trans (runs_leave hk hg hrun)

theorem leadsFrom_body (greedy : Bool) :
    LeadsFrom text (TransGen m) k (tie greedy k g) g.entry := by
  intro i pc j hpc
  constructor
  · intro hrun
    have hstart : InLoop text k g (TransGen m i) (ReflTransGen m i) (g.entry, i) := by
      rcases Nat.lt_or_ge k.code.size g.entry with hlt | hle
      · exact .inr (.inl ⟨hlt, i, .refl, .refl⟩)
      · -- the body has put nothing down, and matches the empty text
        obtain ⟨hm, hentry⟩ := (runs_body_iff hg hle).mp .refl
        exact .inl ⟨hentry, .single hm⟩
    exact (hstart.runs hk hg (fun _ h => h.to_reflTransGen) (fun _ _ h hm => .tail' h hm)
      hrun).behind hpc
  · rintro ⟨n, hn, hrun⟩
    obtain ⟨x, hx, hrest⟩ := TransGen.head'_iff.mp hn
    exact ((runs_round hg hx).trans (runs_rounds hg hrest)).trans (runs_leave hk hg hrun)

end

theorem emits_plus {body : Fragment → Fragment} (h : Emits text m body) (greedy : Bool) :
    Emits text (TransGen m) (plus greedy body) := by
  intro k hk
  have hg := h _ (closed_push_done hk)
  exact ⟨closed_tie hk hg greedy, extends_tie hg greedy, leadsFrom_body hk hg greedy⟩

theorem emits_star {body : Fragment → Fragment} (h : Emits text m body) (greedy empty : Bool) :
    Emits text (ReflTransGen m) (star greedy empty body) := by
  intro k hk
  have hg := h _ (closed_push_done hk)
  have hclosed := closed_tie hk hg greedy
  have hext := extends_tie hg greedy
  have hstop := Nat.lt_of_lt_of_le hk.entry_lt hext.size_le
  cases empty with
  | true =>
    have hbody := leadsFrom_body hk hg greedy
    refine (leads_fork hclosed hext hclosed.entry_lt hstop hbody (leadsFrom_stop hk hext)).congr
      fun i j => ?_
    rw [Relation.reflTransGen_iff_eq_or_transGen, or_comm, eq_comm]
  | false =>
    have hlt := Nat.lt_of_lt_of_eq (size_lt_of_leads hg) (size_tie greedy k _).symm
    refine ⟨hclosed.at_entry hlt, hext.at_entry _, fun i pc j hpc => ?_⟩
    exact (runs_at_entry _).trans (leadsFrom_decision hk hg greedy i pc j hpc)

end

end Fragment

/-! ## Expressions -/

namespace Re

open Fragment

variable {text : List Char} {m : Nat → Nat → Prop}

theorem comp_times_succ (n : Nat) (m' : Nat → Nat → Prop) :
    Comp (Times m (n + 1)) m' = Comp (Times m n) (Comp m m') := by
  induction n with
  | zero =>
    change Comp (Comp m Eq) m' = Comp Eq (Comp m m')
    rw [Relation.comp_eq, Relation.eq_comp]
  | succ n ih =>
    rw [Times, Relation.comp_assoc, ih, Times, Relation.comp_assoc]

theorem contains_single (c d : Char) : (CharSet.single c).contains d ↔ d = c := by
  simp only [CharSet.single, CharSet.range, Ranges.contains, List.any_cons, List.any_nil,
    Bool.or_false, Bool.and_eq_true, decide_eq_true_eq]
  refine ⟨fun h => Char.toNat_inj.mp (Nat.le_antisymm h.2 h.1), ?_⟩
  rintro rfl
  exact ⟨Nat.le_refl _, Nat.le_refl _⟩

theorem emits_text (cs : List Char) :
    Emits text (MatchesText text cs) fun k => cs.foldr (fun c k => k.take (.single c)) k := by
  induction cs with
  | nil => exact emits_id
  | cons c cs ih =>
    intro k hk
    refine ((emits_take (.single c)).comp ih k hk).congr fun i j => ?_
    simp only [Comp, Matches, MatchesText, contains_single, exists_eq_right, and_assoc]
    simp

mutual

theorem emits_emit : ∀ r : Re, Emits text (Matches text r) r.emit
  | empty => emits_id
  | .text cs => emits_text cs
  | set s => emits_take s
  | look l => emits_look l
  | rep min (some more) greedy r => by
    intro k hk
    have hmore := leads_upTo (emits_emit r) hk greedy more
    exact (emits_repeat (emits_emit r) min _ hmore.closed).trans hmore
  | rep 0 none greedy r => by
    intro k hk
    refine (emits_star (emits_emit r) greedy _ k hk).congr fun i j => ?_
    simp [Matches, Times, upTo_none_iff]
  | rep (min + 1) none greedy r => by
    intro k hk
    refine ((emits_repeat (emits_emit r) min).comp (emits_plus (emits_emit r) greedy) k hk).congr
      fun i j => ?_
    rw [Matches, comp_times_succ]
    refine exists_congr fun x => and_congr_right fun _ => ?_
    rw [TransGen.head'_iff]
    exact exists_congr fun y => and_congr_right fun _ => upTo_none_iff.symm
  | group _ r => emits_emit r
  | seq rs => emits_emitAll rs
  | alt rs => emits_emitBranches rs

theorem emits_emitAll : ∀ rs : List Re, Emits text (MatchesAll text rs) (emitAll rs)
  | [] => emits_id
  | [r] => by
    intro k hk
    refine (emits_emit r k hk).congr fun i j => ?_
    simp [MatchesAll, Comp]
  | r :: s :: rs => (emits_emit r).comp (emits_emitAll (s :: rs))

theorem emits_emitBranches : ∀ rs : List Re, Emits text (MatchesAny text rs) (emitBranches rs)
  | [] => by
    intro k hk
    refine (emits_take [] k hk).congr fun i j => ?_
    simp [Matches, MatchesAny, Ranges.contains]
  | [r] => by
    intro k hk
    refine (emits_emit r k hk).congr fun i j => ?_
    simp [MatchesAny]
  | r :: s :: rs => by
    intro k hk
    have h := leads_branch (emits_emit r) hk (emits_emitBranches (s :: rs) k hk)
    rw [emitBranches]
    · exact h
    · exact nofun

end

theorem closed_done : Fragment.Closed ⟨#[.done], 0⟩ := by
  refine ⟨Nat.zero_lt_one, fun text x y h => ?_⟩
  obtain ⟨instr, hinstr, hdone⟩ := h.code
  have hmem : instr ∈ #[Instr.done] := Array.mem_of_getElem? hinstr
  simp [hdone] at hmem

/-- The program for an expression matches what the expression does. -/
theorem program_matches_iff (r : Re) {i j : Nat} :
    r.program.Matches text i j ↔ r.Matches text i j := by
  have h : Fragment.Leads text (Matches text r) ⟨#[.done], 0⟩ (r.emit ⟨#[.done], 0⟩) :=
    emits_emit r _ closed_done
  have hend : (r.emit ⟨#[.done], 0⟩).code[0]? = some .done := h.ext.old 0 Nat.zero_lt_one
  have hruns : r.program.Runs text (r.program.entry, i) (0, j) ↔ r.Matches text i j := by
    refine Iff.trans ⟨fun h => ?_, fun h => ?_⟩ ((h.runs i 0 j Nat.zero_lt_one).trans ?_)
    · exact h.of_code fun _ _ => rfl
    · exact Program.Runs.of_code h fun _ _ => rfl
    · constructor
      · rintro ⟨n, hn, hrun⟩
        obtain ⟨-, rfl⟩ := Prod.mk.inj (runs_push_done (k := ⟨#[], 0⟩) hrun)
        exact hn
      · intro hm
        exact ⟨j, hm, .refl⟩
  constructor
  · rintro ⟨last, hrun, hlast⟩
    rcases Nat.eq_zero_or_pos last with rfl | hpos
    · exact hruns.mp hrun
    · exact absurd hlast (h.ext.new last hpos)
  · intro hm
    exact ⟨0, hruns.mpr hm, hend⟩

end Re

end Peg
