import Peg.Bnf.Source
import Mathlib.Data.List.Nodup

/-!
# The entries of a source

What groups give when each of them that is not blank is a rule by itself, under a name of its own.
-/

namespace Peg.Bnf

/-! ## Definitions by their entries -/

theorem getElem?_insert_iff {defs : Definitions} {n m : String} (d : Definition) {d' : Definition}
    (hn : n ∉ defs) : (defs.insert n d)[m]? = some d' ↔ (m, d') = (n, d) ∨ defs[m]? = some d' := by
  rw [Std.TreeMap.getElem?_insert]
  split
  · rename_i hnm
    obtain rfl : n = m := Std.LawfulEqCmp.eq_of_compare hnm
    have hout : defs[n]? = none := Std.TreeMap.getElem?_eq_none hn
    have hfirst : (n, d') = (n, d) ↔ some d = some d' := by
      rw [Prod.mk.injEq, Option.some.injEq]
      exact ⟨fun h => h.2.symm, fun h => ⟨rfl, h.symm⟩⟩
    rw [hout, hfirst]
    simp
  · rename_i hnm
    have hne : (m, d') ≠ (n, d) := by
      intro h
      obtain ⟨rfl, -⟩ := Prod.mk.injEq .. ▸ h
      exact hnm Std.ReflCmp.compare_self
    simp [hne]

theorem toList_eq_of_getElem? {D D' : Definitions}
    (h : ∀ (n : String) (d : Definition), D'[n]? = some d ↔ D[n]? = some d) :
    D'.toList = D.toList :=
  Std.TreeMap.Equiv.toList_eq (.of_forall_constGet?_eq fun n => Option.ext (h n))

theorem mem_iff_mem_map {es : List (String × Definition)} {defs : Definitions}
    (h : ∀ (n : String) (d : Definition), defs[n]? = some d ↔ (n, d) ∈ es) (n : String) :
    n ∈ defs ↔ n ∈ es.map Prod.fst := by
  rw [Std.TreeMap.mem_iff_isSome_getElem?, Option.isSome_iff_exists, List.mem_map]
  exact ⟨fun ⟨d, hd⟩ => ⟨(n, d), (h n d).mp hd, rfl⟩, fun ⟨(_, d), he, hn⟩ => ⟨d, (h n d).mpr (hn ▸ he)⟩⟩

theorem toList_perm {es : List (String × Definition)} {defs : Definitions}
    (hnodup : (es.map Prod.fst).Nodup)
    (h : ∀ (n : String) (d : Definition), defs[n]? = some d ↔ (n, d) ∈ es) :
    defs.toList.Perm es := by
  have hkeys : (defs.toList.map Prod.fst).Nodup := by
    rw [Std.TreeMap.map_fst_toList_eq_keys]
    exact Std.TreeMap.nodup_keys
  refine (List.perm_ext_iff_of_nodup (.of_map _ hkeys) (.of_map _ hnodup)).mpr fun e => ?_
  rw [← h e.1 e.2, ← Std.TreeMap.mem_toList_iff_getElem?_eq_some]

/-! ## Groups that are read -/

/-- The rules of the groups that are not blank are `es`, and their names are distinct. -/
structure ReadAs (gs : List Group) (es : List (String × Definition)) : Prop where
  rules : (gs.filter fun g => !g.isBlank).map (fun g => readRule (String.ofList g.text)) =
    es.map Except.ok
  nodup : (es.map Prod.fst).Nodup

theorem Group.read_eq_ok_iff {g : Group} {n : String} {d : Definition} :
    g.read = .ok (n, d) ↔ readRule (String.ofList g.text) = .ok (n, d) := by
  unfold Group.read
  split
  · rename_i h
    simp [h]
  · rfl

section
variable {gs : List Group} {g : Group} {es : List (String × Definition)}

theorem ReadAs.nil : ReadAs [] [] :=
  ⟨rfl, .nil⟩

theorem ReadAs.snoc_blank (h : ReadAs gs es) (hg : g.isBlank) : ReadAs (gs ++ [g]) es where
  rules := by
    rw [List.filter_append, List.filter_singleton, hg]
    simpa using h.rules
  nodup := h.nodup

theorem ReadAs.snoc {n : String} {d : Definition} (h : ReadAs gs es) (hg : g.isBlank = false)
    (hread : readRule (String.ofList g.text) = .ok (n, d)) (hn : n ∉ es.map Prod.fst) :
    ReadAs (gs ++ [g]) (es ++ [(n, d)]) where
  rules := by
    rw [List.filter_append, List.filter_singleton, hg, List.map_append, List.map_append, h.rules]
    simp [hread]
  nodup := by
    rw [List.map_append, List.nodup_append]
    refine ⟨h.nodup, List.nodup_singleton n, ?_⟩
    rintro a ha b hb rfl
    obtain rfl : a = n := List.mem_singleton.mp hb
    exact hn ha

/-- A group that is not blank gives the first of the rules. -/
theorem ReadAs.exists_of_cons (h : ReadAs (g :: gs) es) (hg : g.isBlank = false) :
    ∃ n d es', es = (n, d) :: es' ∧ g.read = .ok (n, d) ∧ n ∉ es'.map Prod.fst ∧ ReadAs gs es' := by
  obtain ⟨hrules, hnodup⟩ := h
  rw [List.filter_cons_of_pos (by simp [hg]), List.map_cons] at hrules
  match es, hrules with
  | (n, d) :: es', hrules =>
    obtain ⟨hread, hrules⟩ := List.cons.inj hrules
    obtain ⟨hn, hnodup⟩ := List.nodup_cons.mp hnodup
    exact ⟨n, d, es', rfl, Group.read_eq_ok_iff.mpr hread, hn, hrules, hnodup⟩

theorem ReadAs.tail_of_blank (h : ReadAs (g :: gs) es) (hg : g.isBlank) : ReadAs gs es := by
  obtain ⟨hrules, hnodup⟩ := h
  rw [List.filter_cons_of_neg (by simp [hg])] at hrules
  exact ⟨hrules, hnodup⟩

/-- Groups with names that are new add their rules, and what is behind them is read. -/
theorem readGroups_append (defs : Definitions) (h : ReadAs gs es) (hnew : ∀ e ∈ es, e.1 ∉ defs)
    (gs' : List Group) :
    ∃ defs' : Definitions, (readGroups defs (gs ++ gs')).value = (readGroups defs' gs').value ∧
      ∀ (n : String) (d : Definition), defs'[n]? = some d ↔ (n, d) ∈ es ∨ defs[n]? = some d := by
  induction gs generalizing defs es with
  | nil =>
    obtain rfl : es = [] := List.map_eq_nil_iff.mp h.rules.symm
    exact ⟨defs, rfl, by simp⟩
  | cons g gs ih =>
    by_cases hg : g.isBlank
    · rw [List.cons_append, readGroups, if_pos hg]
      exact ih defs (h.tail_of_blank hg) hnew
    · obtain ⟨n, d, es, rfl, hread, hn, h⟩ := h.exists_of_cons (Bool.eq_false_iff.mpr hg)
      obtain ⟨hnewn, hnew⟩ := List.forall_mem_cons.mp hnew
      have hnew' : ∀ e ∈ es, e.1 ∉ defs.insert n d := fun e he hmem => by
        rcases Std.TreeMap.mem_insert.mp hmem with hne | hmem
        · exact hn (Std.LawfulEqCmp.eq_of_compare hne ▸ List.mem_map_of_mem he)
        · exact hnew e he hmem
      obtain ⟨defs', hvalue, hlook⟩ := ih (defs.insert n d) h hnew'
      have hcontains : defs.contains n = false :=
        Bool.eq_false_iff.mpr (mt Std.TreeMap.contains_iff_mem.mp hnewn)
      refine ⟨defs', ?_, fun m d' => ?_⟩
      · rw [List.cons_append, readGroups, if_neg hg, hread]
        simp only [hcontains]
        exact hvalue
      · rw [hlook, getElem?_insert_iff d hnewn, List.mem_cons]
        exact or_left_comm.trans (or_assoc (a := (m, d') = (n, d))).symm

end

end Peg.Bnf
