import Mathlib.Algebra.BigOperators.Group.Finset.Piecewise
import Peg.Proofs.Graph.Partition

/-!
# The course of the walk

The loop of the walk pass by pass, up to where the walk is back where it started. A pass looks at an
edge or leaves a vertex. `Walk.Recorded` ties the passes to what the walk knows and is kept by each
of them: in the end every vertex in reach was discovered once, and each of its edges was looked at
once.
-/

namespace Peg

namespace Walk

/-! ## Passes -/

inductive Pass
  /-- Looks at the edge from `v` to `u` and discovers `u`. -/
  | discover (v u : String)
  /-- Looks at the edge from `v` to `u`, which was discovered before. -/
  | look (v u : String)
  | leave (v : String)
  deriving DecidableEq, Repr

namespace Pass

def discovered : Pass → List String
  | discover _ u => [u]
  | look _ _ => []
  | leave _ => []

def endFrom? (x : String) : Pass → Option String
  | discover v u => if v = x then some u else none
  | look v u => if v = x then some u else none
  | leave _ => none

end Pass

/-- What the next pass of the loop does, unless the walk is back where it started. -/
def pass? (w : Walk) : Option Pass :=
  match w.path with
  | [] => none
  | ⟨v, u :: _⟩ :: _ => some (if u ∈ w.marks then .look v u else .discover v u)
  | ⟨v, []⟩ :: _ => some (.leave v)

/-- The passes of the loop from one state of the walk to that in which it stops. -/
inductive Loop (g : Graph) : Walk → List Pass → Walk → Prop
  | stop {w} : w.path = [] → Loop g w [] w
  | pass {w p ps w'} : w.pass? = some p → Loop g (w.step g) ps w' → Loop g w (p :: ps) w'

/-- The walk is back where it started, and no vertex is without its component. -/
structure Idle (w : Walk) : Prop where
  path : w.path = []
  pending : w.pending = []
  settled : ∀ (v : String) (m : Mark), w.marks[v]? = some m → m.pending = false

structure Round where
  root : String
  passes : List Pass
  /-- The state in which the loop stops. -/
  last : Walk

def Round.discovered (r : Round) : List String :=
  r.root :: r.passes.flatMap Pass.discovered

inductive Tour (g : Graph) : Walk → List String → List Round → Walk → Prop
  | done {w} : Tour g w [] [] w
  | known {w root roots rounds w'} :
    root ∈ w.marks → Tour g w roots rounds w' → Tour g w (root :: roots) rounds w'
  | fresh {w root roots passes last rounds w'} :
    root ∉ w.marks → Loop g (w.discover g root) passes last → Tour g last roots rounds w' →
      Tour g w (root :: roots) (⟨root, passes, last⟩ :: rounds) w'

variable {g : Graph} {roots : List String} {w w' w'' : Walk} {seen : String → List String}

theorem pass?_eq_none_iff : w.pass? = none ↔ w.path = [] := by
  unfold pass?
  split <;> simp [*]

theorem pass?_cases {p : Pass} (h : w.pass? = some p) :
    (∃ v u ahead path, w.path = ⟨v, u :: ahead⟩ :: path ∧
      (u ∉ w.marks ∧ p = .discover v u ∨ u ∈ w.marks ∧ p = .look v u)) ∨
    ∃ v path, w.path = ⟨v, []⟩ :: path ∧ p = .leave v := by
  unfold pass? at h
  split at h
  · cases h
  · rename_i v u ahead path hp
    refine .inl ⟨v, u, ahead, path, hp, ?_⟩
    split at h
    · rename_i hu
      exact .inr ⟨hu, (Option.some.inj h).symm⟩
    · rename_i hu
      exact .inl ⟨hu, (Option.some.inj h).symm⟩
  · rename_i v path hp
    exact .inr ⟨v, path, hp, (Option.some.inj h).symm⟩

theorem Loop.unique {ps qs : List Pass} (h : Loop g w ps w') (h' : Loop g w qs w'') :
    ps = qs ∧ w' = w'' := by
  induction h generalizing qs with
  | stop hn =>
    cases h' with
    | stop => exact ⟨rfl, rfl⟩
    | pass hp => exact absurd ((pass?_eq_none_iff.mpr hn).symm.trans hp) nofun
  | pass hp _ ih =>
    cases h' with
    | stop hn => exact absurd ((pass?_eq_none_iff.mpr hn).symm.trans hp) nofun
    | pass hp' hl =>
      obtain rfl := Option.some.inj (hp.symm.trans hp')
      obtain ⟨rfl, rfl⟩ := ih hl
      exact ⟨rfl, rfl⟩

theorem Tour.unique {rs : List String} {as bs : List Round} (h : Tour g w rs as w')
    (h' : Tour g w rs bs w'') : as = bs ∧ w' = w'' := by
  induction h generalizing bs with
  | done => cases h'; exact ⟨rfl, rfl⟩
  | known hr _ ih =>
    cases h' with
    | known _ ht => exact ih ht
    | fresh hn => exact absurd hr hn
  | fresh hn hl _ ih =>
    cases h' with
    | known hr => exact absurd hr hn
    | fresh _ hl' ht =>
      obtain ⟨rfl, rfl⟩ := hl.unique hl'
      obtain ⟨rfl, rfl⟩ := ih ht
      exact ⟨rfl, rfl⟩

/-! ## The record -/

theorem sum_length_update {vs : Finset String} {v : String} (hv : v ∈ vs) (u : String) :
    ∑ x ∈ vs, (Function.update seen v (seen v ++ [u]) x).length =
      ∑ x ∈ vs, (seen x).length + 1 := by
  have hlength (x) : (Function.update seen v (seen v ++ [u]) x).length =
      (seen x).length + if x = v then 1 else 0 := by
    by_cases hx : x = v
    · subst hx
      simp
    · simp [hx]
  simp only [hlength, Finset.sum_add_distrib, Finset.sum_ite_eq', hv, ite_true]

/-- The vertices that were discovered are those that the walk knows, and the passes have looked at
the edges that it has seen. Each pass has looked at an edge or taken a vertex off the path. -/
structure Recorded (w : Walk) (seen : String → List String) (discovered : List String)
    (passes : List Pass) : Prop where
  nodup : discovered.Nodup
  mem_iff : ∀ v, v ∈ discovered ↔ v ∈ w.marks
  looked : ∀ v, passes.filterMap (Pass.endFrom? v) = seen v
  count : passes.length + w.path.length =
    discovered.length + ∑ v ∈ discovered.toFinset, (seen v).length

section
variable {ds : List String} {ps : List Pass} {v u : String}

theorem recorded_init : Recorded init (fun _ => []) [] [] where
  nodup := .nil
  mem_iff _ := iff_of_false List.not_mem_nil Std.TreeMap.not_mem_emptyc
  looked _ := rfl
  count := rfl

theorem Recorded.discover (h : Recorded w seen ds ps) (hu : u ∉ w.marks) (hs : seen u = []) :
    Recorded (w.discover g u) seen (ds ++ [u]) ps where
  nodup := List.nodup_append'.mpr ⟨h.nodup, List.nodup_singleton u,
    List.disjoint_singleton.mpr fun hd => hu ((h.mem_iff u).mp hd)⟩
  mem_iff x := by
    rw [mem_discover, List.mem_append, List.mem_singleton, h.mem_iff, or_comm]
  looked := h.looked
  count := by
    have hnew : u ∉ ds.toFinset := fun hd => hu ((h.mem_iff u).mp (List.mem_toFinset.mp hd))
    have hset : (ds ++ [u]).toFinset = insert u ds.toFinset := by
      ext x
      simp
    have hpath : (w.discover g u).path.length = w.path.length + 1 := rfl
    have := h.count
    rw [hset, Finset.sum_insert hnew, hs, hpath, List.length_append, List.length_singleton,
      List.length_nil]
    omega

theorem Recorded.look (h : Recorded w seen ds ps) {p : Pass}
    (hp : ∀ x, p.endFrom? x = if v = x then some u else none) (hv : v ∈ w.marks)
    (hpath : w'.path.length = w.path.length) (hm : ∀ x, x ∈ w'.marks ↔ x ∈ w.marks) :
    Recorded w' (Function.update seen v (seen v ++ [u])) ds (ps ++ [p]) where
  nodup := h.nodup
  mem_iff x := (h.mem_iff x).trans (hm x).symm
  looked x := by
    rw [List.filterMap_append, h.looked, List.filterMap_cons, hp]
    by_cases hx : x = v
    · subst hx
      simp
    · simp [hx, Ne.symm hx]
  count := by
    have := h.count
    rw [sum_length_update (List.mem_toFinset.mpr ((h.mem_iff v).mpr hv)), List.length_append,
      List.length_singleton, hpath]
    omega

theorem Recorded.leave (h : Recorded w seen ds ps) (hpath : w'.path.length + 1 = w.path.length)
    (hm : ∀ x, x ∈ w'.marks ↔ x ∈ w.marks) : Recorded w' seen ds (ps ++ [.leave v]) where
  nodup := h.nodup
  mem_iff x := (h.mem_iff x).trans (hm x).symm
  looked x := by
    rw [List.filterMap_append, h.looked]
    exact List.append_nil _
  count := by
    have := h.count
    rw [List.length_append, List.length_singleton]
    omega

/-- The walk is where these discoveries and passes have brought it. -/
def Recounts (g : Graph) (roots : List String) (w : Walk) (ds : List String) (ps : List Pass) :
    Prop :=
  ∃ seen, Holds g roots w seen ∧ Recorded w seen ds ps

theorem Recounts.step {p : Pass} (h : Recounts g roots w ds ps) (hp : w.pass? = some p) :
    Recounts g roots (w.step g) (ds ++ p.discovered) (ps ++ [p]) := by
  obtain ⟨seen, hw, hr⟩ := h
  rcases pass?_cases hp with ⟨v, u, ahead, path, hpath, hu⟩ | ⟨v, path, hpath, rfl⟩
  · have hv : v ∈ w.marks := hw.known.marked v (hw.placed.trail_pending v (by simp [trail, hpath]))
    refine ⟨_, (hw.step_edge hpath).1, ?_⟩
    rcases hu with ⟨hu, rfl⟩ | ⟨hu, rfl⟩
    · have hne : u ≠ v := fun he => hu (he ▸ hv)
      have hlook : Recorded { w with path := ⟨v, ahead⟩ :: path } _ ds (ps ++ [.discover v u]) :=
        hr.look (fun _ => rfl) hv (by rw [hpath]; rfl) fun _ => .rfl
      -- the edge goes on record first, and the vertex that it leads to has no edges seen yet
      rw [step_discover hpath hu]
      exact hlook.discover hu (by rw [Function.update_of_ne hne, hw.looked.fresh u hu])
    · obtain ⟨hpath', hm⟩ := step_look (g := g) hpath hu
      rw [Pass.discovered, List.append_nil]
      exact hr.look (fun _ => rfl) hv (by rw [hpath', hpath]; rfl) hm
  · obtain ⟨hpath', hm⟩ := step_leave (g := g) hpath
    rw [Pass.discovered, List.append_nil]
    exact ⟨seen, (hw.step_leave hpath).1, hr.leave (by rw [hpath', hpath]; rfl) hm⟩

theorem Loop.recounts {qs : List Pass} (hl : Loop g w qs w') (h : Recounts g roots w ds ps) :
    Recounts g roots w' (ds ++ qs.flatMap Pass.discovered) (ps ++ qs) ∧ w'.path = [] := by
  induction hl generalizing ds ps with
  | stop hn =>
    rw [List.flatMap_nil, List.append_nil, List.append_nil]
    exact ⟨h, hn⟩
  | pass hp _ ih =>
    have := ih (h.step hp)
    rwa [List.append_assoc, List.append_assoc, List.singleton_append, ← List.flatMap_cons] at this

theorem Recounts.idle (h : Recounts g roots w ds ps) (hp : w.path = []) : w.Idle := by
  obtain ⟨seen, hw, -⟩ := h
  have hpending := hw.pending_eq_nil hp
  refine ⟨hp, hpending, fun v m hm => Bool.eq_false_iff.mpr fun hflag => ?_⟩
  have := (hw.known.pending_iff hm).mp hflag
  rw [hpending] at this
  exact List.not_mem_nil this

theorem Tour.recounts {rs : List String} {rounds : List Round} (ht : Tour g w rs rounds w')
    (hrs : ∀ r ∈ rs, r ∈ roots) (hp : w.path = []) (h : Recounts g roots w ds ps) :
    Recounts g roots w' (ds ++ rounds.flatMap Round.discovered)
        (ps ++ rounds.flatMap Round.passes) ∧
      w'.path = [] ∧ ∀ r ∈ rounds, r.last.Idle := by
  induction ht generalizing ds ps with
  | done =>
    rw [List.flatMap_nil, List.flatMap_nil, List.append_nil, List.append_nil]
    exact ⟨h, hp, nofun⟩
  | known _ _ ih => exact ih (List.forall_mem_cons.mp hrs).2 hp h
  | fresh hroot hl _ ih =>
    obtain ⟨hr, hrs⟩ := List.forall_mem_cons.mp hrs
    obtain ⟨seen, hw, hrec⟩ := h
    have hstart : Recounts g roots _ _ ps :=
      ⟨seen, (hw.start hp hr hroot).1, hrec.discover hroot (hw.looked.fresh _ hroot)⟩
    obtain ⟨hloop, hlast⟩ := hl.recounts hstart
    obtain ⟨hall, hend, hidle⟩ := ih hrs hlast hloop
    refine ⟨?_, hend, List.forall_mem_cons.mpr ⟨hloop.idle hlast, hidle⟩⟩
    simpa only [List.flatMap_cons, Round.discovered, List.append_assoc, List.cons_append,
      List.nil_append] using hall

end

/-! ## The end of the walk -/

theorem Holds.exists_loop {n : Nat} (h : Holds g roots w seen) (hn : measure g w seen ≤ n) :
    ∃ ps, Loop g w ps (w.run g n) := by
  induction n generalizing w seen with
  | zero =>
    have hp : w.path = [] := List.eq_nil_of_length_eq_zero (by unfold measure at hn; omega)
    exact ⟨[], .stop hp⟩
  | succ n ih =>
    unfold Walk.run
    split
    · rename_i hp
      exact ⟨[], .stop (List.isEmpty_iff.mp hp)⟩
    · rename_i hp
      have hp := mt List.isEmpty_iff.mpr hp
      obtain ⟨p, hpass⟩ := Option.ne_none_iff_exists'.mp (mt pass?_eq_none_iff.mp hp)
      -- a pass takes from the measure, so that what is left of the bound still covers it
      obtain ⟨seen', h', hlt⟩ := h.step hp
      obtain ⟨ps, hl⟩ := ih h' (by omega)
      exact ⟨p :: ps, .pass hpass hl⟩

theorem Holds.exists_tour {rs : List String} (h : Holds g roots w seen) (hp : w.path = [])
    (hrs : ∀ r ∈ rs, r ∈ roots) : ∃ rounds, Tour g w rs rounds (rs.foldl g.walkFrom w) := by
  induction rs generalizing w seen with
  | nil => exact ⟨[], .done⟩
  | cons r rs ih =>
    obtain ⟨hr, hrs⟩ := List.forall_mem_cons.mp hrs
    obtain ⟨⟨seen', h'⟩, hp', -⟩ := h.walkFrom hp hr
    obtain ⟨rounds, ht⟩ := ih h' hp' hrs
    by_cases hroot : r ∈ w.marks
    · have he : g.walkFrom w r = w := if_pos (Std.TreeMap.contains_iff_mem.mpr hroot)
      rw [he] at ht
      exact ⟨rounds, .known hroot (by rwa [List.foldl_cons, he])⟩
    · have he : g.walkFrom w r = (w.discover g r).run g g.stepBound :=
        if_neg (mt Std.TreeMap.contains_iff_mem.mp hroot)
      obtain ⟨hd, hbound⟩ := h.start hp hr hroot
      obtain ⟨ps, hl⟩ := hd.exists_loop hbound
      exact ⟨_, .fresh hroot (he ▸ hl) ht⟩

end Walk

namespace Graph

variable (g : Graph) (roots : List String)

theorem mem_marks_walk_iff {v : String} : v ∈ (g.walk roots).marks ↔ g.Reached roots v := by
  obtain ⟨seen, h, hpending, -⟩ := g.exists_holds_walk roots
  rw [← g.mem_components_iff roots, (g.flatten_components_perm roots).mem_iff, h.known.found_iff,
    hpending]
  exact (and_iff_left List.not_mem_nil).symm

/-- The walk ends, and visits what is in reach of the roots once: its loop takes as many passes as
there are vertices in reach and edges from them, each of these vertices is discovered once, and each
of their edges is looked at once. The loop leaves nothing on the path and no vertex pending. -/
theorem walk_visits_once : ∃ rounds,
    (∀ rs w, Walk.Tour g .init roots rs w ↔ rs = rounds ∧ w = g.walk roots) ∧
    (∃ reached : Finset String, (∀ v, v ∈ reached ↔ g.Reached roots v) ∧
      (rounds.flatMap Walk.Round.passes).length =
        reached.card + ∑ v ∈ reached, (g.successors v).length) ∧
    (rounds.flatMap Walk.Round.discovered).Nodup ∧
    (∀ v, v ∈ rounds.flatMap Walk.Round.discovered ↔ g.Reached roots v) ∧
    (∀ v, g.Reached roots v →
      (rounds.flatMap Walk.Round.passes).filterMap (Walk.Pass.endFrom? v) = g.successors v) ∧
    ∀ r ∈ rounds, r.last.Idle := by
  have hinit : Walk.Holds g roots .init fun _ => [] := Walk.holds_init
  obtain ⟨rounds, ht⟩ := hinit.exists_tour rfl fun _ => id
  obtain ⟨⟨seen, hw, hr⟩, hp, hidle⟩ := ht.recounts (fun _ => id) rfl ⟨_, hinit, Walk.recorded_init⟩
  rw [List.nil_append, List.nil_append] at hr
  have hreached (v) : v ∈ rounds.flatMap Walk.Round.discovered ↔ g.Reached roots v :=
    (hr.mem_iff v).trans (g.mem_marks_walk_iff roots)
  have hseen (v) (hv : g.Reached roots v) : seen v = g.successors v :=
    hw.looked.off_path v ((g.mem_marks_walk_iff roots).mpr hv) (by simp [Walk.trail, hp])
  refine ⟨rounds, fun rs w => ⟨fun h => h.unique ht, ?_⟩,
    ⟨(rounds.flatMap Walk.Round.discovered).toFinset, fun v => ?_, ?_⟩, hr.nodup, hreached,
    fun v hv => ?_, hidle⟩
  · rintro ⟨rfl, rfl⟩
    exact ht
  · exact List.mem_toFinset.trans (hreached v)
  · have hcount := hr.count
    rw [hp, ← List.toFinset_card_of_nodup hr.nodup] at hcount
    refine hcount.trans (congrArg _ (Finset.sum_congr rfl fun v hv => ?_))
    rw [hseen v ((hreached v).mp (List.mem_toFinset.mp hv))]
  · rw [hr.looked, hseen v hv]

/-- Two vertices that point to each other, with an edge listed twice and a vertex without an
entry. -/
def pair : Graph :=
  .ofList [("a", ["b", "b"]), ("b", ["a", "c"])]

theorem walk_visits_once_pair : ∃ rounds,
    Walk.Tour pair .init ["a", "b"] rounds (pair.walk ["a", "b"]) ∧
      (rounds.flatMap Walk.Round.passes).length = 3 + (2 + 2 + 0) ∧
      pair.Reached ["a", "b"] "b" ∧
      (rounds.flatMap Walk.Round.passes).filterMap (Walk.Pass.endFrom? "b") = ["a", "c"] := by
  obtain ⟨rounds, htour, ⟨reached, hmem, hcount⟩, -, -, hlooked, -⟩ :=
    walk_visits_once pair ["a", "b"]
  have hreached : pair.Reached ["a", "b"] "b" := ⟨"b", by decide, .refl⟩
  obtain rfl : reached = (pair.walk ["a", "b"]).found.flatten.toFinset := by
    ext v
    rw [hmem, ← mem_components_iff, (flatten_components_perm ..).mem_iff, List.mem_toFinset]
  refine ⟨rounds, (htour ..).mpr ⟨rfl, rfl⟩, hcount.trans ?_, hreached,
    (hlooked "b" hreached).trans ?_⟩
  · decide +kernel
  · decide +kernel

end Graph

end Peg
