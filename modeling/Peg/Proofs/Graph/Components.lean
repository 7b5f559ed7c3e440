import Mathlib.Algebra.Order.Group.Nat
import Peg.Proofs.Graph.Walk

/-!
# Components

Every step of the walk keeps the invariant and takes it nearer to its end, so that the bound on the
steps is never what ends the walk. At the end all that was discovered is in a component.
-/

namespace Peg

namespace Graph

variable (g : Graph)

theorem values_eq : g.values = g.toList.map Prod.snd := by
  have h : g.values = g.foldr (fun _ vs acc => vs :: acc) [] := rfl
  rw [h, Std.TreeMap.foldr_eq_foldr_toList]
  induction g.toList with
  | nil => rfl
  | cons e es ih => rw [List.foldr_cons, ih, List.map_cons]

theorem map_successors_keys : g.keys.map g.successors = g.values := by
  rw [values_eq, ← Std.TreeMap.map_fst_toList_eq_keys, List.map_map]
  refine List.map_congr_left fun e he => ?_
  have : g[e.1]? = some e.2 := Std.TreeMap.mem_toList_iff_getElem?_eq_some.mp he
  simp [successors, Std.TreeMap.getD_eq_getD_getElem?, this]

def unseen (seen : String → List String) : Nat :=
  (g.keys.flatMap fun v => (g.successors v).drop (seen v).length).length

theorem unseen_le (seen : String → List String) : g.unseen seen ≤ g.values.flatten.length := by
  rw [← map_successors_keys, ← List.flatMap_def, unseen, List.length_flatMap, List.length_flatMap]
  refine List.sum_le_sum fun v _ => ?_
  rw [List.length_drop]
  exact Nat.sub_le _ _

/-- Each look takes one edge away. -/
theorem unseen_update_lt {seen : String → List String} {v u : String} {ahead : List String}
    (hv : g.successors v = seen v ++ u :: ahead) :
    g.unseen (Function.update seen v (seen v ++ [u])) < g.unseen seen := by
  simp only [unseen, List.length_flatMap, List.length_drop]
  refine List.sum_lt_sum _ _ (fun x _ => ?_) ⟨v, ?_, ?_⟩
  · by_cases hx : x = v
    · subst hx
      rw [Function.update_self, List.length_append]
      omega
    · rw [Function.update_of_ne hx]
  · by_contra hk
    rw [Std.TreeMap.mem_keys] at hk
    have : g.successors v = [] := Std.TreeMap.getD_eq_fallback hk
    rw [this] at hv
    exact absurd hv.symm (List.append_ne_nil_of_right_ne_nil _ (List.cons_ne_nil u ahead))
  · rw [Function.update_self, hv, List.length_append, List.length_append, List.length_cons,
      List.length_singleton]
    omega

end Graph

namespace Walk

variable {g : Graph} {roots : List String} {w : Walk} {seen : String → List String}

/-! ## Steps -/

/-- What the walk still has to do. -/
def measure (g : Graph) (w : Walk) (seen : String → List String) : Nat :=
  2 * g.unseen seen + w.path.length

theorem index_eq {v : String} {m : Mark} (h : w.marks[v]? = some m) : w.index v = m.index := by
  rw [index, h]
  rfl

theorem low_eq {v : String} {m : Mark} (h : w.marks[v]? = some m) : w.low v = m.low := by
  rw [low, h]
  rfl

theorem Known.pending_iff (h : w.Known) {v : String} {m : Mark} (hm : w.marks[v]? = some m) :
    m.pending ↔ v ∈ w.pending := by
  rw [← h.flag_iff, flag, hm]
  rfl

theorem Placed.index_le_of_head (h : w.Placed) {f : Frame} {path : List Frame}
    (hp : w.path = f :: path) {p : String} (ht : p ∈ w.trail) : w.index p ≤ w.index f.vertex := by
  have := h.trail_order
  rw [trail, hp] at this ht
  rcases List.mem_cons.mp ht with rfl | ht
  · exact le_rfl
  · exact ((List.pairwise_cons.mp this).1 p ht).le

theorem Holds.step_edge {v u : String} {ahead : List String} {path : List Frame}
    (h : Holds g roots w seen) (hp : w.path = ⟨v, u :: ahead⟩ :: path) :
    Holds g roots (w.step g) (Function.update seen v (seen v ++ [u])) ∧
      measure g (w.step g) (Function.update seen v (seen v ++ [u])) < measure g w seen := by
  have hv : v ∈ w.trail := by simp [trail, hp]
  have hvp := h.placed.trail_pending v hv
  have hon : g.successors v = seen v ++ u :: ahead := h.looked.on_path ⟨v, u :: ahead⟩ (by simp [hp])
  have hedge : g.Reach v u := .single (by rw [Graph.Edge, hon]; simp)
  have hless := g.unseen_update_lt hon
  unfold step
  rw [hp]
  simp only
  cases hu : w.marks[u]? with
  | none =>
    have hum : u ∉ w.marks := fun h => by simp [Std.TreeMap.mem_iff_isSome_getElem?, hu] at h
    obtain ⟨r, hr, hrv⟩ := h.reaching.rooted v (h.known.marked v hvp)
    have hd := h.discover hum ⟨r, hr, hrv.trans hedge⟩ fun p ht =>
      (h.reaching.reach p ht v hvp (h.placed.index_le_of_head hp ht)).trans hedge
    have hvt : v ∈ (w.discover g u).trail := List.mem_cons_of_mem _ hv
    have hp' : (w.discover g u).path = [⟨u, g.successors u⟩] ++ ⟨v, u :: ahead⟩ :: path := by
      simp [Walk.discover, hp]
    have hl := hd.look hp' ((mem_discover ..).mpr (.inl rfl)) fun _ =>
        (hd.reaching.low_le v (List.mem_cons_of_mem _ hvp)).trans
          (hd.placed.index_le_of_head rfl hvt)
    refine ⟨hl, ?_⟩
    simp only [measure, Walk.discover, hp, List.length_cons]
    omega
  | some m =>
    have hum : u ∈ w.marks := by simp [Std.TreeMap.mem_iff_isSome_getElem?, hu]
    have hp' : w.path = [] ++ ⟨v, u :: ahead⟩ :: path := hp
    simp only
    split
    · rename_i hm
      have hup := (h.known.pending_iff hu).mp hm
      have hl := (h.lower (i := m.index) (.inr ⟨u, hup, index_eq hu, hedge⟩)).look hp'
        ((mem_lower ..).mpr hum) fun _ => by
          rw [low_lower, if_pos rfl, index_lower, index_eq hu]
          exact Nat.min_le_right _ _
      refine ⟨hl, ?_⟩
      simp only [measure, Walk.lower, hp, List.length_cons]
      omega
    · rename_i hm
      have hl := h.look hp' hum fun hup => absurd ((h.known.pending_iff hu).mpr hup) hm
      refine ⟨hl, ?_⟩
      simp only [measure, hp, List.length_cons]
      omega

theorem Holds.step_leave {v : String} {path : List Frame} (h : Holds g roots w seen)
    (hp : w.path = ⟨v, []⟩ :: path) :
    Holds g roots (w.step g) seen ∧ measure g (w.step g) seen < measure g w seen := by
  have hvp := h.pending_of_path hp
  obtain ⟨m, hm⟩ : ∃ m, w.marks[v]? = some m :=
    Option.isSome_iff_exists.mp (Std.TreeMap.mem_iff_isSome_getElem?.mp (h.known.marked v hvp))
  obtain ⟨x, hx, hxv, hvx⟩ := h.reaching.low_reach v hvp
  have hle := h.reaching.low_le v hvp
  have hml := low_eq hm
  have hmi := index_eq hm
  unfold step
  rw [hp]
  simp only [hm]
  by_cases hlow : m.low = m.index
  · have hc := h.close hp (by rw [hml, hmi, hlow])
    simp only [hlow, ite_true]
    cases path with
    | nil => exact ⟨hc, by simp [measure, Walk.close, hp]⟩
    | cons parent path =>
      have ht : parent.vertex ∈ (parent :: path).map Frame.vertex := List.mem_cons_self
      have hlt := h.placed.index_lt_of_rest hp ht
      have hpar := h.reaching.low_le parent.vertex
        (h.placed.trail_pending _ ((mem_trail_iff hp).mpr (.inr ht)))
      refine ⟨hc.lower (.inl ?_), by simp [measure, Walk.lower, Walk.close, hp]⟩
      rw [low_close]
      change w.low parent.vertex ≤ m.low
      omega
  · simp only [hlow, ite_false]
    cases path with
    | nil =>
      -- what `v` reaches is not older than the only vertex of the path
      obtain ⟨p, ht, hpx⟩ := h.placed.anchored x hx
      rcases (mem_trail_iff hp).mp ht with rfl | ht
      · omega
      · exact absurd ht List.not_mem_nil
    | cons parent path =>
      have ht : parent.vertex ∈ (parent :: path).map Frame.vertex := List.mem_cons_self
      have hlt := h.placed.index_lt_of_rest hp ht
      have hpv : g.Reach parent.vertex v :=
        h.reaching.reach _ ((mem_trail_iff hp).mpr (.inr ht)) v hvp hlt.le
      have hl := h.lower (v := parent.vertex) (i := m.low)
        (.inr ⟨x, hx, by rw [hxv, hml], hpv.trans hvx⟩)
      have hne : v ≠ parent.vertex := by
        rintro rfl
        exact lt_irrefl _ hlt
      refine ⟨hl.leave hp ?_ ?_, by simp [measure, Walk.lower, hp]⟩
      · rw [low_lower, if_neg hne, index_lower]
        omega
      · rw [low_lower, low_lower, if_neg hne, if_pos rfl, hml]
        exact Nat.min_le_right _ _

theorem Holds.step (h : Holds g roots w seen) (hp : w.path ≠ []) :
    ∃ seen', Holds g roots (w.step g) seen' ∧ measure g (w.step g) seen' < measure g w seen := by
  match hw : w.path with
  | [] => exact absurd hw hp
  | ⟨v, u :: ahead⟩ :: path => exact ⟨_, h.step_edge hw⟩
  | ⟨v, []⟩ :: path => exact ⟨seen, h.step_leave hw⟩

section
variable {v u : String} {ahead : List String} {path : List Frame}

theorem step_discover (hp : w.path = ⟨v, u :: ahead⟩ :: path) (hu : u ∉ w.marks) :
    w.step g = { w with path := ⟨v, ahead⟩ :: path }.discover g u := by
  have hnone : w.marks[u]? = none := Std.TreeMap.getElem?_eq_none hu
  unfold step
  rw [hp]
  simp only [hnone]

/-- Both ways to go on change no more than `low`. -/
theorem step_look (hp : w.path = ⟨v, u :: ahead⟩ :: path) (hu : u ∈ w.marks) :
    (w.step g).path = ⟨v, ahead⟩ :: path ∧ ∀ x, x ∈ (w.step g).marks ↔ x ∈ w.marks := by
  obtain ⟨m, hm⟩ := Option.isSome_iff_exists.mp (Std.TreeMap.mem_iff_isSome_getElem?.mp hu)
  unfold step
  rw [hp]
  simp only [hm]
  split
  · exact ⟨rfl, mem_lower _ v m.index⟩
  · exact ⟨rfl, fun _ => .rfl⟩

theorem step_leave (hp : w.path = ⟨v, []⟩ :: path) :
    (w.step g).path = path ∧ ∀ x, x ∈ (w.step g).marks ↔ x ∈ w.marks := by
  have hclose (c : Prop) [Decidable c] :
      (if c then { w with path }.close v else { w with path }).path = path ∧
        ∀ x, x ∈ (if c then { w with path }.close v else { w with path }).marks ↔ x ∈ w.marks := by
    split
    · exact ⟨rfl, mem_close _ v⟩
    · exact ⟨rfl, fun _ => .rfl⟩
  unfold step
  rw [hp]
  dsimp only
  split
  · exact ⟨rfl, fun _ => .rfl⟩
  · rename_i m _
    obtain ⟨hpath, hmarks⟩ := hclose (m.low = m.index)
    split
    · exact ⟨hpath, hmarks⟩
    · exact ⟨hpath, fun x => (mem_lower ..).trans (hmarks x)⟩

end

theorem mem_step {x : String} (hx : x ∈ w.marks) : x ∈ (w.step g).marks := by
  match hp : w.path with
  | [] =>
    unfold step
    rwa [hp]
  | ⟨v, u :: ahead⟩ :: path =>
    by_cases hu : u ∈ w.marks
    · exact ((step_look hp hu).2 x).mpr hx
    · rw [step_discover hp hu]
      exact (mem_discover ..).mpr (.inr hx)
  | ⟨v, []⟩ :: path => exact ((step_leave hp).2 x).mpr hx

/-! ## Runs -/

theorem Holds.run {n : Nat} (h : Holds g roots w seen) (hn : measure g w seen ≤ n) :
    (∃ seen', Holds g roots (w.run g n) seen') ∧ (w.run g n).path = [] ∧
      ∀ v ∈ w.marks, v ∈ (w.run g n).marks := by
  induction n generalizing w seen with
  | zero =>
    have hp : w.path = [] := List.eq_nil_of_length_eq_zero (by unfold measure at hn; omega)
    exact ⟨⟨seen, h⟩, hp, fun _ => id⟩
  | succ n ih =>
    unfold run
    split
    · rename_i hp
      exact ⟨⟨seen, h⟩, List.isEmpty_iff.mp hp, fun _ => id⟩
    · rename_i hp
      obtain ⟨seen', h', hlt⟩ := h.step (mt List.isEmpty_iff.mpr hp)
      obtain ⟨hh, he, hm⟩ := ih h' (by omega)
      exact ⟨hh, he, fun v hv => hm v (mem_step hv)⟩

theorem holds_init : Holds g roots init fun _ => [] := by
  have hm (v : String) : v ∉ init.marks := Std.TreeMap.not_mem_emptyc
  have hf (v : String) : init.flag v = false := rfl
  refine ⟨⟨fun v => ?_, nofun, fun v => ?_, fun v hv => absurd hv (hm v)⟩, ⟨.nil, .nil, nofun, nofun⟩,
    ⟨nofun, fun v hv => absurd hv (hm v), fun _ _ => rfl, nofun⟩,
    ⟨fun v hv => absurd hv (hm v), nofun, nofun, nofun, nofun⟩, nofun, ⟨.nil, nofun, nofun, trivial⟩⟩
  · rw [hf]
    exact ⟨nofun, nofun⟩
  · exact ⟨nofun, fun h => absurd h.1 (hm v)⟩

/-- The bound suffices for a walk from a new root. -/
theorem Holds.start {root : String} (h : Holds g roots w seen) (hp : w.path = [])
    (hr : root ∈ roots) (hroot : root ∉ w.marks) :
    Holds g roots (w.discover g root) seen ∧
      measure g (w.discover g root) seen ≤ g.stepBound := by
  refine ⟨h.discover hroot ⟨root, hr, .refl⟩ (by simp [trail, hp]), ?_⟩
  have hlen : (w.discover g root).path.length = 1 := by simp [Walk.discover, hp]
  have := g.unseen_le seen
  rw [measure, hlen, Graph.stepBound]
  omega

/-- A walk is back where it started before its bound is reached. -/
theorem Holds.walkFrom {root : String} (h : Holds g roots w seen) (hp : w.path = [])
    (hr : root ∈ roots) :
    (∃ seen', Holds g roots (g.walkFrom w root) seen') ∧ (g.walkFrom w root).path = [] ∧
      root ∈ (g.walkFrom w root).marks ∧ ∀ v ∈ w.marks, v ∈ (g.walkFrom w root).marks := by
  unfold Graph.walkFrom
  split
  · rename_i hc
    exact ⟨⟨seen, h⟩, hp, Std.TreeMap.contains_iff_mem.mp hc, fun _ => id⟩
  · rename_i hc
    obtain ⟨hd, hbound⟩ := h.start hp hr (mt Std.TreeMap.contains_iff_mem.mpr hc)
    obtain ⟨hh, he, hm⟩ := hd.run hbound
    exact ⟨hh, he, hm root ((mem_discover ..).mpr (.inl rfl)),
      fun v hv => hm v ((mem_discover ..).mpr (.inr hv))⟩

theorem Holds.walk {rs : List String} (h : Holds g roots w seen) (hp : w.path = [])
    (hrs : ∀ r ∈ rs, r ∈ roots) :
    (∃ seen', Holds g roots (rs.foldl g.walkFrom w) seen') ∧ (rs.foldl g.walkFrom w).path = [] ∧
      (∀ v ∈ w.marks, v ∈ (rs.foldl g.walkFrom w).marks) ∧
        ∀ r ∈ rs, r ∈ (rs.foldl g.walkFrom w).marks := by
  induction rs generalizing w seen with
  | nil => exact ⟨⟨seen, h⟩, hp, fun _ => id, nofun⟩
  | cons r rs ih =>
    obtain ⟨hr, hrs⟩ := List.forall_mem_cons.mp hrs
    obtain ⟨⟨seen', h'⟩, hp', hroot, hm⟩ := h.walkFrom hp hr
    obtain ⟨hh, he, hmono, hall⟩ := ih h' hp' hrs
    exact ⟨hh, he, fun v hv => hmono v (hm v hv), List.forall_mem_cons.mpr ⟨hmono r hroot, hall⟩⟩

/-- No vertex is pending when the walk is back where it started. -/
theorem Holds.pending_eq_nil (h : Holds g roots w seen) (hp : w.path = []) : w.pending = [] := by
  refine List.eq_nil_iff_forall_not_mem.mpr fun u hu => ?_
  obtain ⟨p, ht, -⟩ := h.placed.anchored u hu
  rw [trail, hp] at ht
  exact absurd ht List.not_mem_nil

end Walk

theorem Walk.Ordered.of_append {g : Graph} {later earlier : List (List String)} {c : List String}
    (h : Ordered g (later ++ c :: earlier)) {u v : String} (hu : u ∈ c)
    (hv : v ∈ g.successors u) : v ∈ c ∨ v ∈ earlier.flatten := by
  induction later with
  | nil => exact h.1 u hu v hv
  | cons _ _ ih => exact ih h.2

theorem flatten_map_mergeSort_perm (cs : List (List String)) :
    (cs.map fun c => c.mergeSort).flatten.Perm cs.flatten := by
  induction cs with
  | nil => exact .refl _
  | cons c cs ih => exact (List.mergeSort_perm c _).append ih

theorem Walk.Ordered.map_mergeSort {g : Graph} {cs : List (List String)} (h : Ordered g cs) :
    Ordered g (cs.map fun c => c.mergeSort) := by
  induction cs with
  | nil => exact trivial
  | cons c cs ih =>
    refine ⟨fun u hu v hv => ?_, ih h.2⟩
    exact (h.1 u (List.mem_mergeSort.mp hu) v hv).imp List.mem_mergeSort.mpr
      (flatten_map_mergeSort_perm cs).mem_iff.mpr

/-! ## Components -/

namespace Graph

variable (g : Graph) (roots : List String)

/-- At the end of the walk everything discovered was found. -/
theorem exists_holds_walk : ∃ seen, Walk.Holds g roots (g.walk roots) seen ∧
    (g.walk roots).pending = [] ∧ ∀ r ∈ roots, r ∈ (g.walk roots).found.flatten := by
  have hinit : Walk.Holds g roots .init fun _ => [] := Walk.holds_init
  obtain ⟨⟨seen, h⟩, hp, -, hroots⟩ := hinit.walk rfl fun _ => id
  have hpending : (g.walk roots).pending = [] := h.pending_eq_nil hp
  refine ⟨seen, h, hpending, fun r hr => (h.known.found_iff r).mpr ⟨hroots r hr, ?_⟩⟩
  intro hu
  have hu : r ∈ (g.walk roots).pending := hu
  rw [hpending] at hu
  exact absurd hu List.not_mem_nil

/-- The walk has found the components, but for their order and that of their members. -/
theorem flatten_components_perm :
    (g.components roots).flatten.Perm (g.walk roots).found.flatten :=
  (List.reverse_perm _).flatten.trans (flatten_map_mergeSort_perm _)

theorem mem_components {c : List String} :
    c ∈ g.components roots ↔ ∃ members ∈ (g.walk roots).found, members.mergeSort = c :=
  List.mem_reverse.trans List.mem_map

theorem nodup_components : (g.components roots).flatten.Nodup := by
  obtain ⟨seen, h, -⟩ := g.exists_holds_walk roots
  exact (g.flatten_components_perm roots).nodup_iff.mpr h.found.nodup

theorem root_mem_components {r : String} (hr : r ∈ roots) : r ∈ (g.components roots).flatten := by
  obtain ⟨seen, -, -, hroots⟩ := g.exists_holds_walk roots
  exact (g.flatten_components_perm roots).mem_iff.mpr (hroots r hr)

/-- The successors of a component are in it or in an earlier one. -/
theorem successors_mem_components {before after : List (List String)} {c : List String}
    (hc : g.components roots = before ++ c :: after) {u v : String} (hu : u ∈ c)
    (hv : v ∈ g.successors u) : v ∈ c ∨ v ∈ before.flatten := by
  obtain ⟨seen, h, -⟩ := g.exists_holds_walk roots
  have ho := h.found.ordered.map_mergeSort
  rw [List.reverse_eq_iff.mp hc, List.reverse_append, List.reverse_cons, List.append_assoc] at ho
  have := ho.of_append hu hv
  simpa using this

end Graph

end Peg
