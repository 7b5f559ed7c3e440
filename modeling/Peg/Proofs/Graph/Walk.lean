import Mathlib.Algebra.Order.BigOperators.Group.List
import Mathlib.Data.List.Nodup
import Mathlib.Logic.Relation
import Mathlib.Logic.Function.Basic
import Peg.Graph.Components

/-!
# The walk and its invariant

`Walk.Holds` is kept by each step of the walk. It speaks about the order of discovery and about the
edges that were looked at: `seen v` are the successors of `v` that were.

A pending vertex reaches another one as old as its `low`, and a vertex that the walk has left
reaches an older one. What the walk looks at from a pending vertex is known to a vertex of the path
that is not older than that one's own place on the path.
-/

namespace Peg

namespace Graph

def Edge (g : Graph) (u v : String) : Prop :=
  v ∈ g.successors u

def Reach (g : Graph) : String → String → Prop :=
  Relation.ReflTransGen g.Edge

end Graph

namespace Walk

/-! ## Marks -/

def index (w : Walk) (v : String) : Nat :=
  (w.marks[v]?).elim 0 Mark.index

def low (w : Walk) (v : String) : Nat :=
  (w.marks[v]?).elim 0 Mark.low

def flag (w : Walk) (v : String) : Bool :=
  (w.marks[v]?).any Mark.pending

theorem elim_ite_map {c : Prop} [Decidable c] {o : Option Mark} {f : Mark → Mark} {k : Mark → Nat}
    (hf : ∀ m, k (f m) = k m) : (if c then o.map f else o).elim 0 k = o.elim 0 k := by
  split
  · cases o with
    | none => rfl
    | some m => exact hf m
  · rfl

section
variable (w : Walk) (g : Graph) (v : String) (i : Nat)

theorem mark?_discover (u : String) : (w.discover g v).marks[u]? =
    if u = v then some ⟨w.marks.size, w.marks.size, true⟩ else w.marks[u]? := by
  simp only [discover, Std.TreeMap.getElem?_insert, Std.LawfulEqCmp.compare_eq_iff_eq,
    eq_comm (a := u)]

theorem mem_discover (u : String) : u ∈ (w.discover g v).marks ↔ u = v ∨ u ∈ w.marks := by
  simp only [discover, Std.TreeMap.mem_insert, Std.LawfulEqCmp.compare_eq_iff_eq,
    eq_comm (a := u)]

theorem index_discover (u : String) :
    (w.discover g v).index u = if u = v then w.marks.size else w.index u := by
  rw [index, mark?_discover]
  split <;> rfl

theorem low_discover (u : String) :
    (w.discover g v).low u = if u = v then w.marks.size else w.low u := by
  rw [low, mark?_discover]
  split <;> rfl

theorem flag_discover (u : String) :
    (w.discover g v).flag u = if u = v then true else w.flag u := by
  rw [flag, mark?_discover]
  split <;> rfl

theorem mark?_lower (u : String) : (w.lower v i).marks[u]? =
    if u = v then (w.marks[u]?).map fun m => { m with low := min m.low i } else w.marks[u]? := by
  simp only [lower, Std.TreeMap.getElem?_modify, Std.LawfulEqCmp.compare_eq_iff_eq]
  by_cases h : u = v
  · simp [h]
  · simp [h, Ne.symm h]

theorem mem_lower (u : String) : u ∈ (w.lower v i).marks ↔ u ∈ w.marks :=
  Std.TreeMap.mem_modify

theorem size_lower : (w.lower v i).marks.size = w.marks.size :=
  Std.TreeMap.size_modify

@[simp] theorem index_lower (u : String) : (w.lower v i).index u = w.index u := by
  rw [index, mark?_lower]
  exact elim_ite_map fun _ => rfl

theorem low_lower (u : String) :
    (w.lower v i).low u = if u = v then min (w.low u) i else w.low u := by
  rw [low, mark?_lower, low]
  split
  · cases w.marks[u]? with
    | none => exact (Nat.zero_min i).symm
    | some m => rfl
  · rfl

@[simp] theorem flag_lower (u : String) : (w.lower v i).flag u = w.flag u := by
  rw [flag, mark?_lower, flag]
  split
  · cases w.marks[u]? <;> rfl
  · rfl

theorem low_lower_le (u : String) : (w.lower v i).low u ≤ w.low u := by
  rw [low_lower]
  split
  · exact Nat.min_le_left _ _
  · exact Nat.le_refl _

def members : List String :=
  (takeThrough v w.pending).1

theorem mark?_close (u : String) : (w.close v).marks[u]? =
    if u ∈ w.members v then (w.marks[u]?).map ({ · with pending := false }) else w.marks[u]? := by
  have hfold (us : List String) (marks : Std.TreeMap String Mark) :
      (us.foldl (fun marks u => marks.modify u ({ · with pending := false })) marks)[u]? =
        if u ∈ us then (marks[u]?).map ({ · with pending := false }) else marks[u]? := by
    induction us generalizing marks with
    | nil => simp
    | cons x us ih =>
      rw [List.foldl_cons, ih, Std.TreeMap.getElem?_modify]
      by_cases hx : x = u
      · subst hx
        by_cases hu : x ∈ us <;> cases marks[x]? <;> simp [hu]
      · have hx' : compare x u ≠ .eq := fun h => hx (Std.LawfulEqCmp.eq_of_compare h)
        simp [hx', Ne.symm hx]
  exact hfold (w.members v) w.marks

theorem mem_close (u : String) : u ∈ (w.close v).marks ↔ u ∈ w.marks := by
  rw [Std.TreeMap.mem_iff_isSome_getElem?, Std.TreeMap.mem_iff_isSome_getElem?, mark?_close]
  split <;> simp

theorem size_close : (w.close v).marks.size = w.marks.size := by
  have hfold (us : List String) (marks : Std.TreeMap String Mark) :
      (us.foldl (fun marks u => marks.modify u ({ · with pending := false })) marks).size =
        marks.size := by
    induction us generalizing marks with
    | nil => rfl
    | cons x us ih => rw [List.foldl_cons, ih, Std.TreeMap.size_modify]
  exact hfold (w.members v) w.marks

theorem index_close (u : String) : (w.close v).index u = w.index u := by
  rw [index, mark?_close]
  exact elim_ite_map fun _ => rfl

theorem low_close (u : String) : (w.close v).low u = w.low u := by
  rw [low, mark?_close]
  exact elim_ite_map fun _ => rfl

theorem flag_close (u : String) :
    (w.close v).flag u = (w.flag u && !decide (u ∈ w.members v)) := by
  rw [flag, mark?_close, flag]
  by_cases h : u ∈ w.members v
  · cases w.marks[u]? <;> simp [h]
  · simp [h]

end

/-! ## The invariant -/

/-- The vertices of the path, the one that the walk is at first. -/
def trail (w : Walk) : List String :=
  w.path.map Frame.vertex

/-- A vertex is found, pending or unknown. -/
structure Known (w : Walk) : Prop where
  flag_iff : ∀ v, w.flag v ↔ v ∈ w.pending
  marked : ∀ v ∈ w.pending, v ∈ w.marks
  found_iff : ∀ v, v ∈ w.found.flatten ↔ v ∈ w.marks ∧ v ∉ w.pending
  index_lt : ∀ v ∈ w.marks, w.index v < w.marks.size

/-- The pending vertices stand in the order of discovery, above the oldest one on the path. -/
structure Placed (w : Walk) : Prop where
  pending_order : w.pending.Pairwise fun u v => w.index v < w.index u
  trail_order : w.trail.Pairwise fun u v => w.index v < w.index u
  trail_pending : ∀ p ∈ w.trail, p ∈ w.pending
  anchored : ∀ u ∈ w.pending, ∃ p ∈ w.trail, w.index p ≤ w.index u

structure Looked (g : Graph) (w : Walk) (seen : String → List String) : Prop where
  on_path : ∀ f ∈ w.path, g.successors f.vertex = seen f.vertex ++ f.ahead
  off_path : ∀ v ∈ w.marks, v ∉ w.trail → seen v = g.successors v
  fresh : ∀ v, v ∉ w.marks → seen v = []
  seen_marked : ∀ u, ∀ v ∈ seen u, v ∈ w.marks

structure Reaching (g : Graph) (roots : List String) (w : Walk) : Prop where
  rooted : ∀ v ∈ w.marks, ∃ r ∈ roots, g.Reach r v
  reach : ∀ p ∈ w.trail, ∀ u ∈ w.pending, w.index p ≤ w.index u → g.Reach p u
  low_le : ∀ v ∈ w.pending, w.low v ≤ w.index v
  low_reach : ∀ v ∈ w.pending, ∃ u ∈ w.pending, w.index u = w.low v ∧ g.Reach v u
  low_lt : ∀ v ∈ w.pending, v ∉ w.trail → w.low v < w.index v

/-- What is in sight of the pending vertices from `p` on is known on the path from `p` on. -/
def Told (w : Walk) (seen : String → List String) : Prop :=
  ∀ p ∈ w.trail, ∀ u ∈ w.pending, w.index p ≤ w.index u → ∀ v ∈ seen u, v ∈ w.pending →
    ∃ q ∈ w.trail, w.index p ≤ w.index q ∧ w.low q ≤ w.index v

/-- The successors of a component are in it or were found before. -/
def Ordered (g : Graph) : List (List String) → Prop
  | [] => True
  | c :: cs => (∀ u ∈ c, ∀ v ∈ g.successors u, v ∈ c ∨ v ∈ cs.flatten) ∧ Ordered g cs

structure Found (g : Graph) (w : Walk) : Prop where
  nodup : w.found.flatten.Nodup
  ne_nil : ∀ c ∈ w.found, c ≠ []
  joined : ∀ c ∈ w.found, ∀ u ∈ c, ∀ v ∈ c, g.Reach u v
  ordered : Ordered g w.found

structure Holds (g : Graph) (roots : List String) (w : Walk) (seen : String → List String) : Prop
    where
  known : w.Known
  placed : w.Placed
  looked : Looked g w seen
  reaching : Reaching g roots w
  told : w.Told seen
  found : Found g w

variable {g : Graph} {roots : List String} {w : Walk} {seen : String → List String}

/-! ## Discovery -/

section
variable {v : String} (hv : v ∉ w.marks)
include hv

theorem Known.index_discover (hk : w.Known) {u : String} (hu : u ∈ w.pending) :
    (w.discover g v).index u = w.index u := by
  rw [Walk.index_discover, if_neg (by rintro rfl; exact hv (hk.marked _ hu))]

theorem Known.low_discover (hk : w.Known) {u : String} (hu : u ∈ w.pending) :
    (w.discover g v).low u = w.low u := by
  rw [Walk.low_discover, if_neg (by rintro rfl; exact hv (hk.marked _ hu))]

theorem Known.index_discover_lt (hk : w.Known) {u : String} (hu : u ∈ w.pending) :
    (w.discover g v).index u < (w.discover g v).index v := by
  rw [hk.index_discover hv hu, Walk.index_discover, if_pos rfl]
  exact hk.index_lt u (hk.marked u hu)

theorem Known.discover (h : w.Known) : (w.discover g v).Known where
  flag_iff u := by
    rw [flag_discover]
    by_cases hu : u = v
    · simp [Walk.discover, hu]
    · simp [Walk.discover, hu, h.flag_iff]
  marked u hu := by
    rw [mem_discover]
    exact (List.mem_cons.mp hu).imp id (h.marked u)
  found_iff u := by
    rw [mem_discover]
    change u ∈ w.found.flatten ↔ (u = v ∨ u ∈ w.marks) ∧ u ∉ v :: w.pending
    rw [h.found_iff, List.mem_cons]
    constructor
    · rintro ⟨hm, hp⟩
      exact ⟨.inr hm, by rintro (rfl | hp'); exacts [hv hm, hp hp']⟩
    · rintro ⟨hm, hp⟩
      exact ⟨hm.resolve_left fun he => hp (.inl he), fun hp' => hp (.inr hp')⟩
  index_lt u hu := by
    have hsize : (w.discover g v).marks.size = w.marks.size + 1 := by
      simp only [Walk.discover, Std.TreeMap.size_insert]
      exact if_neg (mt Std.TreeMap.contains_iff_mem.mp hv)
    rw [hsize, Walk.index_discover]
    split
    · exact Nat.lt_succ_self _
    · rename_i hne
      exact Nat.lt_succ_of_lt (h.index_lt u (((mem_discover ..).mp hu).resolve_left hne))

theorem Placed.discover (hk : w.Known) (h : w.Placed) : (w.discover g v).Placed := by
  have ht (u) (hu : u ∈ w.trail) : (w.discover g v).index u = w.index u :=
    hk.index_discover hv (h.trail_pending u hu)
  refine ⟨?_, ?_, ?_, ?_⟩
  · refine List.pairwise_cons.mpr ⟨fun _ hu => hk.index_discover_lt hv hu,
      h.pending_order.imp_of_mem fun hu hx hlt => ?_⟩
    rwa [hk.index_discover hv hu, hk.index_discover hv hx]
  · refine List.pairwise_cons.mpr ⟨fun u hu => hk.index_discover_lt hv (h.trail_pending u hu),
      h.trail_order.imp_of_mem fun hu hx hlt => ?_⟩
    rwa [ht _ hu, ht _ hx]
  · exact List.forall_mem_cons.mpr ⟨List.mem_cons_self,
      fun p hp => List.mem_cons_of_mem _ (h.trail_pending p hp)⟩
  · refine List.forall_mem_cons.mpr ⟨⟨v, List.mem_cons_self, Nat.le_refl _⟩, fun u hu => ?_⟩
    obtain ⟨p, hp, hle⟩ := h.anchored u hu
    exact ⟨p, List.mem_cons_of_mem _ hp, by rwa [ht p hp, hk.index_discover hv hu]⟩

theorem Looked.discover (h : Looked g w seen) : Looked g (w.discover g v) seen where
  on_path := by
    refine List.forall_mem_cons.mpr ⟨?_, h.on_path⟩
    rw [h.fresh v hv]
    rfl
  off_path u hu hn := by
    have hne : u ≠ v := fun he => hn (he ▸ List.mem_cons_self)
    exact h.off_path u (((mem_discover ..).mp hu).resolve_left hne)
      fun ht => hn (List.mem_cons_of_mem _ ht)
  fresh u hu := h.fresh u fun hm => hu ((mem_discover ..).mpr (.inr hm))
  seen_marked u x hx := (mem_discover ..).mpr (.inr (h.seen_marked u x hx))

theorem Reaching.discover (hk : w.Known) (hp : w.Placed) (h : Reaching g roots w)
    (hroot : ∃ r ∈ roots, g.Reach r v) (htrail : ∀ p ∈ w.trail, g.Reach p v) :
    Reaching g roots (w.discover g v) := by
  refine ⟨fun u hu => ?_, ?_, ?_, ?_, ?_⟩
  · rcases (mem_discover ..).mp hu with rfl | hu
    · exact hroot
    · exact h.rooted u hu
  · refine List.forall_mem_cons.mpr ⟨?_, fun p hpt => ?_⟩
    · exact List.forall_mem_cons.mpr ⟨fun _ => .refl, fun u hu hle =>
        absurd (hk.index_discover_lt hv hu) (Nat.not_lt.mpr hle)⟩
    · refine List.forall_mem_cons.mpr ⟨fun _ => htrail p hpt, fun u hu hle => ?_⟩
      rw [hk.index_discover hv hu, hk.index_discover hv (hp.trail_pending p hpt)] at hle
      exact h.reach p hpt u hu hle
  · refine List.forall_mem_cons.mpr ⟨?_, fun u hu => ?_⟩
    · rw [low_discover, index_discover, if_pos rfl, if_pos rfl]
    · rw [hk.index_discover hv hu, hk.low_discover hv hu]
      exact h.low_le u hu
  · refine List.forall_mem_cons.mpr ⟨⟨v, List.mem_cons_self, ?_, .refl⟩, fun u hu => ?_⟩
    · rw [low_discover, index_discover, if_pos rfl, if_pos rfl]
    · obtain ⟨x, hx, he, hr⟩ := h.low_reach u hu
      refine ⟨x, List.mem_cons_of_mem _ hx, ?_, hr⟩
      rw [hk.index_discover hv hx, hk.low_discover hv hu, he]
  · refine List.forall_mem_cons.mpr ⟨fun hn => absurd List.mem_cons_self hn, fun u hu hn => ?_⟩
    rw [hk.index_discover hv hu, hk.low_discover hv hu]
    exact h.low_lt u hu fun ht => hn (List.mem_cons_of_mem _ ht)

theorem Told.discover (hk : w.Known) (hp : w.Placed) (hs : Looked g w seen) (h : w.Told seen) :
    (w.discover g v).Told seen := by
  have ht (u) (hu : u ∈ w.trail) : (w.discover g v).index u = w.index u :=
    hk.index_discover hv (hp.trail_pending u hu)
  intro p hp' u hu' hle x hx hx'
  rcases List.mem_cons.mp hu' with rfl | hu
  · rw [hs.fresh u hv] at hx
    exact absurd hx List.not_mem_nil
  rcases List.mem_cons.mp hx' with rfl | hxp
  · exact absurd (hs.seen_marked u x hx) hv
  rcases List.mem_cons.mp hp' with rfl | hpt
  · rw [hk.index_discover hv hu, index_discover, if_pos rfl] at hle
    exact absurd (hk.index_lt u (hk.marked u hu)) (Nat.not_lt.mpr hle)
  · rw [ht p hpt, hk.index_discover hv hu] at hle
    obtain ⟨q, hq, hpq, hqx⟩ := h p hpt u hu hle x hx hxp
    refine ⟨q, List.mem_cons_of_mem _ hq, by rwa [ht p hpt, ht q hq], ?_⟩
    rwa [hk.low_discover hv (hp.trail_pending q hq), hk.index_discover hv hxp]

theorem Holds.discover (h : Holds g roots w seen) (hroot : ∃ r ∈ roots, g.Reach r v)
    (htrail : ∀ p ∈ w.trail, g.Reach p v) : Holds g roots (w.discover g v) seen where
  known := h.known.discover hv
  placed := h.placed.discover hv h.known
  looked := h.looked.discover hv
  reaching := h.reaching.discover hv h.known h.placed hroot htrail
  told := h.told.discover hv h.known h.placed h.looked
  found := ⟨h.found.nodup, h.found.ne_nil, h.found.joined, h.found.ordered⟩

end

/-! ## Edges -/

section
variable {v : String} {i : Nat}

theorem Reaching.lower (h : Reaching g roots w)
    (hi : w.low v ≤ i ∨ ∃ u ∈ w.pending, w.index u = i ∧ g.Reach v u) :
    Reaching g roots (w.lower v i) where
  rooted u hu := h.rooted u ((mem_lower ..).mp hu)
  reach p hp u hu hle := h.reach p hp u hu (by simpa using hle)
  low_le u hu := by
    rw [index_lower]
    exact (low_lower_le ..).trans (h.low_le u hu)
  low_reach u hu := by
    obtain ⟨x, hx, he, hr⟩ := h.low_reach u hu
    rw [low_lower]
    by_cases huv : u = v
    · subst huv
      rw [if_pos rfl]
      rcases Nat.le_total (w.low u) i with hle | hle
      · exact ⟨x, hx, by rw [index_lower, he, Nat.min_eq_left hle], hr⟩
      · rcases hi with hi | ⟨y, hy, he', hr'⟩
        · exact ⟨x, hx, by rw [index_lower, he, Nat.min_eq_left hi], hr⟩
        · exact ⟨y, hy, by rw [index_lower, he', Nat.min_eq_right hle], hr'⟩
    · rw [if_neg huv]
      exact ⟨x, hx, by rw [index_lower, he], hr⟩
  low_lt u hu hn := by
    rw [index_lower]
    exact (low_lower_le ..).trans_lt (h.low_lt u hu hn)

/-- The vertex `v` comes to know of a pending vertex that it reaches. -/
theorem Holds.lower (h : Holds g roots w seen)
    (hi : w.low v ≤ i ∨ ∃ u ∈ w.pending, w.index u = i ∧ g.Reach v u) :
    Holds g roots (w.lower v i) seen where
  known := by
    refine ⟨fun u => ?_, fun u hu => (mem_lower ..).mpr (h.known.marked u hu), fun u => ?_,
      fun u hu => ?_⟩
    · rw [flag_lower]
      exact h.known.flag_iff u
    · rw [mem_lower]
      exact h.known.found_iff u
    · rw [index_lower, size_lower]
      exact h.known.index_lt u ((mem_lower ..).mp hu)
  placed := by
    refine ⟨?_, ?_, h.placed.trail_pending, ?_⟩ <;> simp only [index_lower]
    · exact h.placed.pending_order
    · exact h.placed.trail_order
    · exact h.placed.anchored
  looked := by
    refine ⟨h.looked.on_path, fun u hu => h.looked.off_path u ((mem_lower ..).mp hu),
      fun u hu => h.looked.fresh u (mt (mem_lower ..).mpr hu),
      fun u x hx => (mem_lower ..).mpr (h.looked.seen_marked u x hx)⟩
  reaching := h.reaching.lower hi
  told p hp u hu hle x hx hxp := by
    rw [index_lower, index_lower] at hle
    obtain ⟨q, hq, hpq, hqx⟩ := h.told p hp u hu hle x hx hxp
    refine ⟨q, hq, by rwa [index_lower, index_lower], ?_⟩
    rw [index_lower]
    exact (low_lower_le ..).trans hqx
  found := ⟨h.found.nodup, h.found.ne_nil, h.found.joined, h.found.ordered⟩

theorem Known.onPath (h : w.Known) (path : List Frame) : Known { w with path } :=
  ⟨h.flag_iff, h.marked, h.found_iff, h.index_lt⟩

theorem Looked.look {u : String} {top rest : List Frame} {ahead : List String}
    (h : Looked g w seen) (hk : w.Known) (ho : w.Placed)
    (hp : w.path = top ++ ⟨v, u :: ahead⟩ :: rest) (hu : u ∈ w.marks) :
    Looked g { w with path := top ++ ⟨v, ahead⟩ :: rest }
      (Function.update seen v (seen v ++ [u])) := by
  have ht : (top ++ ⟨v, ahead⟩ :: rest).map Frame.vertex = w.trail := by simp [trail, hp]
  have hv : v ∈ w.trail := by simp [trail, hp]
  have hdiff : ∀ f ∈ top ++ rest, f.vertex ≠ v := by
    have hnodup : w.trail.Nodup := ho.trail_order.imp (by rintro _ _ hlt rfl; exact lt_irrefl _ hlt)
    rw [trail, hp, List.map_append, List.map_cons, List.nodup_middle, ← List.map_append,
      List.nodup_cons] at hnodup
    exact fun f hf he => hnodup.1 (List.mem_map.mpr ⟨f, hf, he⟩)
  refine ⟨fun f hf => ?_, fun x hx hn => ?_, fun x hx => ?_, fun y x hx => ?_⟩
  · rcases List.mem_append.mp hf with hf | hf
    · have hne := hdiff f (List.mem_append_left _ hf)
      rw [Function.update_of_ne hne]
      exact h.on_path f (hp ▸ List.mem_append_left _ hf)
    · rcases List.mem_cons.mp hf with rfl | hf
      · have := h.on_path ⟨v, u :: ahead⟩ (by rw [hp]; simp)
        simpa using this
      · have hne := hdiff f (List.mem_append_right _ hf)
        rw [Function.update_of_ne hne]
        exact h.on_path f (hp ▸ List.mem_append_right _ (List.mem_cons_of_mem _ hf))
  · have hn' : x ∉ w.trail := ht ▸ hn
    rw [Function.update_of_ne (by rintro rfl; exact hn' hv)]
    exact h.off_path x hx hn'
  · have hne : x ≠ v := by
      rintro rfl
      exact hx (hk.marked x (ho.trail_pending x hv))
    rw [Function.update_of_ne hne]
    exact h.fresh x hx
  · by_cases hy : y = v
    · subst hy
      rw [Function.update_self] at hx
      rcases List.mem_append.mp hx with hx | hx
      · exact h.seen_marked y x hx
      · obtain rfl := List.mem_singleton.mp hx
        exact hu
    · rw [Function.update_of_ne hy] at hx
      exact h.seen_marked y x hx

/-- One more edge was looked at. -/
theorem Holds.look {u : String} {top rest : List Frame} {ahead : List String}
    (h : Holds g roots w seen) (hp : w.path = top ++ ⟨v, u :: ahead⟩ :: rest) (hu : u ∈ w.marks)
    (hlow : u ∈ w.pending → w.low v ≤ w.index u) :
    Holds g roots { w with path := top ++ ⟨v, ahead⟩ :: rest }
      (Function.update seen v (seen v ++ [u])) := by
  have ht : trail { w with path := top ++ ⟨v, ahead⟩ :: rest } = w.trail := by simp [trail, hp]
  have hv : v ∈ w.trail := by simp [trail, hp]
  refine ⟨h.known.onPath _, ?_, h.looked.look h.known h.placed hp hu, ?_, ?_,
    ⟨h.found.nodup, h.found.ne_nil, h.found.joined, h.found.ordered⟩⟩
  · refine ⟨h.placed.pending_order, ?_, ?_, ?_⟩ <;> rw [ht]
    · exact h.placed.trail_order
    · exact h.placed.trail_pending
    · exact h.placed.anchored
  · refine ⟨h.reaching.rooted, ?_, h.reaching.low_le, h.reaching.low_reach, ?_⟩ <;> rw [ht]
    · exact h.reaching.reach
    · exact h.reaching.low_lt
  · unfold Told
    rw [ht]
    intro p hpt y hy hle x hx hxp
    by_cases hyv : y = v
    · subst hyv
      rw [Function.update_self] at hx
      rcases List.mem_append.mp hx with hx | hx
      · exact h.told p hpt y hy hle x hx hxp
      · obtain rfl := List.mem_singleton.mp hx
        exact ⟨y, hv, hle, hlow hxp⟩
    · rw [Function.update_of_ne hyv] at hx
      exact h.told p hpt y hy hle x hx hxp

end

/-! ## Leaving a vertex -/

section
variable {v : String} {rest : List Frame}

/-- The vertex that the walk is at is the youngest of the path. -/
theorem Placed.index_lt_of_rest (h : w.Placed) (hp : w.path = ⟨v, []⟩ :: rest) {p : String}
    (hpt : p ∈ rest.map Frame.vertex) : w.index p < w.index v := by
  have := h.trail_order
  rw [trail, hp] at this
  exact (List.pairwise_cons.mp this).1 p hpt

theorem mem_trail_iff (hp : w.path = ⟨v, []⟩ :: rest) {p : String} :
    p ∈ w.trail ↔ p = v ∨ p ∈ rest.map Frame.vertex := by
  rw [trail, hp]
  exact List.mem_cons

/-- All edges of a vertex that is left were looked at. -/
theorem Looked.leave (h : Looked g w seen) (hp : w.path = ⟨v, []⟩ :: rest) {pending : List String}
    {marks : Std.TreeMap String Mark} {found : List (List String)}
    (hm : ∀ u, u ∈ marks ↔ u ∈ w.marks) : Looked g ⟨marks, pending, rest, found⟩ seen where
  on_path f hf := h.on_path f (hp ▸ List.mem_cons_of_mem _ hf)
  off_path u hu hn := by
    by_cases huv : u = v
    · subst huv
      have := h.on_path ⟨u, []⟩ (by rw [hp]; exact List.mem_cons_self)
      simpa using this.symm
    · refine h.off_path u ((hm u).mp hu) fun ht => ?_
      exact hn (((mem_trail_iff hp).mp ht).resolve_left huv)
  fresh u hu := h.fresh u fun h => hu ((hm u).mpr h)
  seen_marked u x hx := (hm x).mpr (h.seen_marked u x hx)

/-- The walk goes back from a vertex that reaches an older one, which is known where it goes to. -/
theorem Holds.leave (h : Holds g roots w seen) {parent : Frame} {path : List Frame}
    (hp : w.path = ⟨v, []⟩ :: parent :: path) (hlow : w.low v < w.index v)
    (htold : w.low parent.vertex ≤ w.low v) :
    Holds g roots { w with path := parent :: path } seen := by
  have hv : v ∈ w.pending := h.placed.trail_pending v ((mem_trail_iff hp).mpr (.inl rfl))
  have hsub {p} (ht : p ∈ (parent :: path).map Frame.vertex) : p ∈ w.trail :=
    (mem_trail_iff hp).mpr (.inr ht)
  have hall := h.placed.trail_order
  rw [trail, hp] at hall
  have horder := (List.pairwise_cons.mp hall).2
  refine ⟨h.known.onPath _, ?_, h.looked.leave hp fun _ => .rfl, ?_, ?_,
    ⟨h.found.nodup, h.found.ne_nil, h.found.joined, h.found.ordered⟩⟩
  · refine ⟨h.placed.pending_order, horder, fun p ht => h.placed.trail_pending p (hsub ht), ?_⟩
    intro u hu
    obtain ⟨p, ht, hle⟩ := h.placed.anchored u hu
    rcases (mem_trail_iff hp).mp ht with rfl | ht
    · -- the older vertex that `v` reaches is above one that stays on the path
      obtain ⟨x, hx, hxv, -⟩ := h.reaching.low_reach p hv
      obtain ⟨q, hq, hqx⟩ := h.placed.anchored x hx
      rcases (mem_trail_iff hp).mp hq with rfl | hq
      · omega
      · exact ⟨q, hq, by change w.index q ≤ w.index u; omega⟩
    · exact ⟨p, ht, hle⟩
  · refine ⟨h.reaching.rooted, fun p ht => h.reaching.reach p (hsub ht), h.reaching.low_le,
      h.reaching.low_reach, fun u hu hn => ?_⟩
    by_cases huv : u = v
    · subst huv
      exact hlow
    · exact h.reaching.low_lt u hu fun ht => hn (((mem_trail_iff hp).mp ht).resolve_left huv)
  · intro p ht u hu hle x hx hxp
    obtain ⟨q, hq, hpq, hqx⟩ := h.told p (hsub ht) u hu hle x hx hxp
    rcases (mem_trail_iff hp).mp hq with rfl | hq
    · refine ⟨parent.vertex, List.mem_cons_self, ?_, htold.trans hqx⟩
      rcases List.mem_cons.mp ht with rfl | htail
      · exact le_rfl
      · exact ((List.pairwise_cons.mp horder).1 p htail).le
    · exact ⟨q, hq, hpq, hqx⟩

/-! ## Closing a component -/

theorem takeThrough_append {above : List String} (below : List String) (h : v ∉ above) :
    takeThrough v (above ++ v :: below) = (above ++ [v], below) := by
  induction above with
  | nil => simp [takeThrough]
  | cons u above ih =>
    obtain ⟨hne, habove⟩ := not_or.mp (List.mem_cons.not.mp h)
    simp [takeThrough, Ne.symm hne, ih habove]

/-- The pending vertices from `v` on, and those before it. -/
theorem Placed.split (h : w.Placed) (hv : v ∈ w.pending) :
    w.pending = w.members v ++ (w.close v).pending ∧ v ∈ w.members v ∧
      (∀ u ∈ w.members v, w.index v ≤ w.index u) ∧
        ∀ u ∈ (w.close v).pending, w.index u < w.index v := by
  obtain ⟨above, below, he, hnot⟩ := List.eq_append_cons_of_mem hv
  have htake : takeThrough v w.pending = (above ++ [v], below) := he ▸ takeThrough_append below hnot
  have hmembers : w.members v = above ++ [v] := congrArg Prod.fst htake
  have hclose : (w.close v).pending = below := congrArg Prod.snd htake
  have horder := h.pending_order
  rw [he, List.pairwise_append, List.pairwise_cons] at horder
  rw [hmembers, hclose]
  refine ⟨by rw [he]; simp, by simp, fun u hu => ?_, fun u hu => horder.2.1.1 u hu⟩
  rcases List.mem_append.mp hu with hu | hu
  · exact (horder.2.2 u hu v List.mem_cons_self).le
  · rw [List.mem_singleton.mp hu]

/-- No vertex is pending twice. -/
theorem Placed.nodup_pending (h : w.Placed) : w.pending.Nodup :=
  h.pending_order.imp fun hlt he => absurd (he ▸ hlt) (lt_irrefl _)

theorem Placed.mem_members_iff (h : w.Placed) (hv : v ∈ w.pending) {u : String} :
    u ∈ w.members v ↔ u ∈ w.pending ∧ w.index v ≤ w.index u := by
  obtain ⟨he, -, hm, hc⟩ := h.split hv
  constructor
  · exact fun hu => ⟨he ▸ List.mem_append_left _ hu, hm u hu⟩
  · rintro ⟨hu, hle⟩
    rw [he] at hu
    exact (List.mem_append.mp hu).resolve_right fun hu => absurd (hc u hu) (Nat.not_lt.mpr hle)

theorem Placed.mem_close_iff (h : w.Placed) (hv : v ∈ w.pending) {u : String} :
    u ∈ (w.close v).pending ↔ u ∈ w.pending ∧ w.index u < w.index v := by
  obtain ⟨he, -, hm, hc⟩ := h.split hv
  constructor
  · exact fun hu => ⟨he ▸ List.mem_append_right _ hu, hc u hu⟩
  · rintro ⟨hu, hlt⟩
    rw [he] at hu
    exact (List.mem_append.mp hu).resolve_left fun hu => absurd (hm u hu) (Nat.not_le.mpr hlt)

theorem Ordered.closed {cs : List (List String)} (h : Ordered g cs) {u x : String}
    (hu : u ∈ cs.flatten) (hx : x ∈ g.successors u) : x ∈ cs.flatten := by
  induction cs with
  | nil => exact absurd hu List.not_mem_nil
  | cons c cs ih =>
    rw [List.flatten_cons, List.mem_append] at hu ⊢
    rcases hu with hu | hu
    · exact h.1 u hu x hx
    · exact .inr (ih h.2 hu)

section
variable (h : Holds g roots w seen) (hp : w.path = ⟨v, []⟩ :: rest) (hlow : w.low v = w.index v)
include h hp

theorem Holds.pending_of_path : v ∈ w.pending :=
  h.placed.trail_pending v ((mem_trail_iff hp).mpr (.inl rfl))

include hlow

/-- Where `v` reaches nothing older, the successors of the vertices from `v` on are among them, or
found. -/
theorem Holds.members_closed {u x : String} (hu : u ∈ w.members v) (hx : x ∈ g.successors u) :
    x ∈ w.members v ∨ x ∈ w.found.flatten := by
  have hv := h.pending_of_path hp
  obtain ⟨hup, hle⟩ := (h.placed.mem_members_iff hv).mp hu
  have hseen : seen u = g.successors u := by
    by_cases huv : u = v
    · subst huv
      simpa using (h.looked.on_path ⟨u, []⟩ (by rw [hp]; exact List.mem_cons_self)).symm
    · refine h.looked.off_path u (h.known.marked u hup) fun ht => ?_
      have := h.placed.index_lt_of_rest hp (((mem_trail_iff hp).mp ht).resolve_left huv)
      omega
  have hxs : x ∈ seen u := hseen ▸ hx
  by_cases hxp : x ∈ w.pending
  · obtain ⟨q, hq, hvq, hqx⟩ := h.told v ((mem_trail_iff hp).mpr (.inl rfl)) u hup hle x hxs hxp
    rcases (mem_trail_iff hp).mp hq with rfl | hq
    · exact .inl ((h.placed.mem_members_iff hv).mpr ⟨hxp, hlow ▸ hqx⟩)
    · have := h.placed.index_lt_of_rest hp hq
      omega
  · exact .inr ((h.known.found_iff x).mpr ⟨h.looked.seen_marked u x hxs, hxp⟩)

theorem Holds.members_reach {u x : String} (hu : u ∈ w.members v) (hr : g.Reach u x) :
    x ∈ w.members v ∨ x ∈ w.found.flatten := by
  induction hr with
  | refl => exact .inl hu
  | tail _ hedge ih =>
    rcases ih with ih | ih
    · exact h.members_closed hp hlow ih hedge
    · exact .inr (h.found.ordered.closed ih hedge)

/-- Every vertex from `v` on goes back to `v`, by way of older and older ones. -/
theorem Holds.members_reach_root {u : String} (hu : u ∈ w.members v) : g.Reach u v := by
  have hv := h.pending_of_path hp
  induction hn : w.index u using Nat.strong_induction_on generalizing u with
  | _ n ih =>
    obtain ⟨hup, hle⟩ := (h.placed.mem_members_iff hv).mp hu
    by_cases huv : u = v
    · exact huv ▸ .refl
    · have ht : u ∉ w.trail := fun ht => by
        have := h.placed.index_lt_of_rest hp (((mem_trail_iff hp).mp ht).resolve_left huv)
        omega
      have hlt := h.reaching.low_lt u hup ht
      obtain ⟨x, hx, hxu, hr⟩ := h.reaching.low_reach u hup
      have hxm : x ∈ w.members v := by
        refine (h.members_reach hp hlow hu hr).resolve_right fun hf => ?_
        exact ((h.known.found_iff x).mp hf).2 hx
      exact hr.trans (ih (w.index x) (by omega) hxm rfl)

theorem Holds.found_close : Found g ({ w with path := rest }.close v) := by
  have hv := h.pending_of_path hp
  obtain ⟨hsplit, hvm, -⟩ := h.placed.split hv
  have hmem {u} := h.placed.mem_members_iff hv (u := u)
  refine ⟨?_, ?_, ?_, ?_⟩
  · change (w.members v ++ w.found.flatten).Nodup
    have hnodup : (w.members v).Nodup :=
      (List.nodup_append'.mp (hsplit ▸ h.placed.nodup_pending)).1
    exact List.nodup_append'.mpr ⟨hnodup, h.found.nodup, fun u hu hf =>
      ((h.known.found_iff u).mp hf).2 (hmem.mp hu).1⟩
  · exact List.forall_mem_cons.mpr ⟨List.ne_nil_of_mem hvm, h.found.ne_nil⟩
  · refine List.forall_mem_cons.mpr ⟨fun u hu x hx => ?_, h.found.joined⟩
    obtain ⟨hxp, hle⟩ := hmem.mp hx
    exact (h.members_reach_root hp hlow hu).trans
      (h.reaching.reach v ((mem_trail_iff hp).mpr (.inl rfl)) x hxp hle)
  · exact ⟨fun u hu x hx => h.members_closed hp hlow hu hx, h.found.ordered⟩

omit hlow in
theorem Holds.known_close : Known ({ w with path := rest }.close v) := by
  have hv := h.pending_of_path hp
  have hclose {u} := h.placed.mem_close_iff hv (u := u)
  have hmembers {u} := h.placed.mem_members_iff hv (u := u)
  refine ⟨fun u => ?_, fun u hu => ?_, fun u => ?_, fun u hu => ?_⟩
  · rw [flag_close]
    change (w.flag u && !decide (u ∈ w.members v)) = true ↔ u ∈ (w.close v).pending
    rw [Bool.and_eq_true, Bool.not_eq_true', decide_eq_false_iff_not, h.known.flag_iff, hmembers,
      hclose]
    refine and_congr_right fun hu => ?_
    simp [hu]
  · rw [mem_close]
    exact h.known.marked u (hclose.mp hu).1
  · rw [mem_close]
    change u ∈ w.members v ++ w.found.flatten ↔ u ∈ w.marks ∧ u ∉ (w.close v).pending
    rw [List.mem_append, hmembers, h.known.found_iff, hclose, not_and, not_lt]
    constructor
    · rintro (⟨hu, hle⟩ | ⟨hu, hn⟩)
      · exact ⟨h.known.marked u hu, fun _ => hle⟩
      · exact ⟨hu, fun hu => absurd hu hn⟩
    · rintro ⟨hm, hle⟩
      by_cases hu : u ∈ w.pending
      · exact .inl ⟨hu, hle hu⟩
      · exact .inr ⟨hm, hu⟩
  · rw [index_close, size_close]
    exact h.known.index_lt u ((mem_close ..).mp hu)

omit hlow in
theorem Holds.placed_close : Placed ({ w with path := rest }.close v) := by
  have hv := h.pending_of_path hp
  have hclose {u} := h.placed.mem_close_iff hv (u := u)
  have hsplit := (h.placed.split hv).1
  have horder := h.placed.trail_order
  rw [trail, hp] at horder
  refine ⟨?_, ?_, fun p ht => ?_, fun u hu => ?_⟩
  · simp only [index_close]
    have := h.placed.pending_order
    rw [hsplit] at this
    exact (List.pairwise_append.mp this).2.1
  · simp only [index_close]
    exact (List.pairwise_cons.mp horder).2
  · exact hclose.mpr ⟨h.placed.trail_pending p ((mem_trail_iff hp).mpr (.inr ht)),
      h.placed.index_lt_of_rest hp ht⟩
  · obtain ⟨hu, hlt⟩ := hclose.mp hu
    obtain ⟨p, ht, hle⟩ := h.placed.anchored u hu
    refine ⟨p, ((mem_trail_iff hp).mp ht).resolve_left ?_, by rwa [index_close, index_close]⟩
    rintro rfl
    omega

omit hlow in
theorem Holds.reaching_close : Reaching g roots ({ w with path := rest }.close v) := by
  have hv := h.pending_of_path hp
  have hclose {u} := h.placed.mem_close_iff hv (u := u)
  refine ⟨fun u hu => h.reaching.rooted u ((mem_close ..).mp hu), fun p ht u hu hle => ?_,
    fun u hu => ?_, fun u hu => ?_, fun u hu hn => ?_⟩
  · rw [index_close, index_close] at hle
    exact h.reaching.reach p ((mem_trail_iff hp).mpr (.inr ht)) u (hclose.mp hu).1 hle
  · rw [low_close, index_close]
    exact h.reaching.low_le u (hclose.mp hu).1
  · obtain ⟨hup, hlt⟩ := hclose.mp hu
    obtain ⟨x, hx, he, hr⟩ := h.reaching.low_reach u hup
    have := h.reaching.low_le u hup
    exact ⟨x, hclose.mpr ⟨hx, by omega⟩, by rw [index_close, low_close]; exact he, hr⟩
  · obtain ⟨hup, hlt⟩ := hclose.mp hu
    rw [low_close, index_close]
    refine h.reaching.low_lt u hup fun ht => hn (((mem_trail_iff hp).mp ht).resolve_left ?_)
    rintro rfl
    exact lt_irrefl _ hlt

theorem Holds.told_close : Told ({ w with path := rest }.close v) seen := by
  have hv := h.pending_of_path hp
  have hclose {u} := h.placed.mem_close_iff hv (u := u)
  intro p ht u hu hle x hx hxp
  obtain ⟨hxp, hlt⟩ := hclose.mp hxp
  rw [index_close, index_close] at hle
  obtain ⟨q, hq, hpq, hqx⟩ :=
    h.told p ((mem_trail_iff hp).mpr (.inr ht)) u (hclose.mp hu).1 hle x hx hxp
  refine ⟨q, ((mem_trail_iff hp).mp hq).resolve_left ?_, by rwa [index_close, index_close],
    by rwa [low_close, index_close]⟩
  rintro rfl
  exact absurd hlt (Nat.not_lt.mpr (hlow ▸ hqx))

/-- The walk goes back from a vertex that reaches nothing older, and makes it and all behind it a
component. -/
theorem Holds.close : Holds g roots ({ w with path := rest }.close v) seen where
  known := h.known_close hp
  placed := h.placed_close hp
  looked := h.looked.leave hp fun _ => mem_close ..
  reaching := h.reaching_close hp
  told := h.told_close hp hlow
  found := h.found_close hp hlow

end

end

end Walk

end Peg
