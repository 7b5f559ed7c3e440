import Peg.Proofs.Meaning.Realized
import Peg.Proofs.Realization.Unpromoted

/-!
# Stages of a realization

At each stage some names are done, which means that the table has their final entries, and some of
these are waiting for their content. A step declares a name, or gives a waiting one its content.
-/

namespace Peg.Bnf

section
variable (predefined : RuleTable) (base : Arena)

/-- What was there is as it was. Of what was added, those that wait are forward declarations, and all
others have content. -/
structure Laid (waiting : List Handle) (a : Arena) : Prop where
  size_le : base.size ≤ a.size
  kept : ∀ i < base.size, a.slots[i]? = base.slots[i]?
  waits : ∀ i ∈ waiting, base.size ≤ i ∧ a.slots[i]? = some ⟨.forward, false⟩
  nodup : waiting.Nodup
  filled : ∀ (i : Handle) (slot : Slot), base.size ≤ i → a.slots[i]? = some slot → i ∉ waiting →
    slot.node ≠ .forward ∧ (Clean predefined base → Proper predefined base a slot.node)

/-- The expression `h` was promoted to what the body of the rule became, or to a reference to that.
It does refer to it when the body is a name. -/
def Stands (rs : RuleSet) (known : RuleTable) (a : Arena) (d : Definition) (h : Handle) : Prop :=
  ∃ e node, a.slots[h]? = some ⟨node, true⟩ ∧ Means rs known a.unpromoted d.mode d.body e ∧
    (node = .aliasOf e ∨ node ≠ .forward ∧ a.node? e = some node ∧ ∀ n, d.body ≠ .name n)

structure Stage (rs : RuleSet) (done : List String) (waiting : List Handle) (known : RuleTable)
    (a : Arena) : Prop where
  laid : Laid predefined base waiting a
  own : ∀ n ∈ done, ∀ d, rs.definitions[n]? = some d → ∃ h, known[n]? = some h ∧ base.size ≤ h ∧
    (h ∈ waiting ∨ Stands rs known a d h ∧ ∀ n', Needs rs d n' → n' ∈ done)
  distinct : ∀ n ∈ done, ∀ n' ∈ done, n ∈ rs.definitions → n' ∈ rs.definitions →
    known[n]? = known[n']? → n = n'
  outer : ∀ n, n ∉ done ∨ n ∉ rs.definitions → known[n]? = predefined[n]?
  supplied : ∀ n ∈ done, n ∈ known

end

section
variable {predefined : RuleTable} {base : Arena} {rs : RuleSet} {done : List String}
  {waiting : List Handle} {known known' : RuleTable} {a a' : Arena}

/-! ## Arenas -/

theorem Adds.steady (h : Adds predefined base a a') : a.Steady a' :=
  fun i _ hs _ => (h.kept i (Arena.lt_size_of_slot hs)).trans hs

theorem Laid.init : Laid predefined base [] base where
  size_le := Nat.le_refl _
  kept _ _ := rfl
  waits _ hi := absurd hi List.not_mem_nil
  nodup := .nil
  filled _ _ hi hs := absurd (Arena.lt_size_of_slot hs) (Nat.not_lt.mpr hi)

theorem Laid.adds (h : Laid predefined base waiting a) (ha : Adds predefined base a a') :
    Laid predefined base waiting a' where
  size_le := h.size_le.trans ha.size_le
  kept i hi := (ha.kept i (hi.trans_le h.size_le)).trans (h.kept i hi)
  waits i hi := by
    obtain ⟨hle, hs⟩ := h.waits i hi
    exact ⟨hle, (ha.kept i (Arena.lt_size_of_slot hs)).trans hs⟩
  nodup := h.nodup
  filled i slot hi hs hw := by
    by_cases hlt : i < a.size
    · rw [ha.kept i hlt] at hs
      obtain ⟨hf, hp⟩ := h.filled i slot hi hs hw
      exact ⟨hf, fun hc => (hp hc).mono ha.size_le⟩
    · obtain ⟨hf, hp⟩ := ha.added i slot (Nat.le_of_not_lt hlt) hs
      exact ⟨hf, fun _ => hp⟩

theorem Laid.declare (h : Laid predefined base waiting a) :
    Laid predefined base (waiting ++ [a.size]) (a.push .forward).2 := by
  have hnew : a.size ∉ waiting := by
    intro hw
    exact Nat.lt_irrefl _ (Arena.lt_size_of_slot (h.waits _ hw).2)
  have hsize : a.size ≤ (a.push .forward).2.size := by
    rw [Arena.size_push]
    exact Nat.le_succ _
  refine ⟨h.size_le.trans hsize, fun i hi => ?_, fun i hi => ?_, ?_, fun i slot hi hs hw => ?_⟩
  · rw [Arena.slot_push, if_neg (Nat.ne_of_lt (hi.trans_le h.size_le)), h.kept i hi]
  · rcases List.mem_append.mp hi with hi | hi
    · obtain ⟨hle, hs⟩ := h.waits i hi
      rw [Arena.slot_push, if_neg (Nat.ne_of_lt (Arena.lt_size_of_slot hs))]
      exact ⟨hle, hs⟩
    · obtain rfl := List.mem_singleton.mp hi
      rw [Arena.slot_push, if_pos rfl]
      exact ⟨h.size_le, rfl⟩
  · refine List.nodup_append.mpr ⟨h.nodup, List.nodup_singleton _, fun i hi j hj => ?_⟩
    rintro rfl
    exact hnew (List.mem_singleton.mp hj ▸ hi)
  · rw [List.mem_append, List.mem_singleton, not_or] at hw
    rw [Arena.slot_push, if_neg hw.2] at hs
    obtain ⟨hf, hp⟩ := h.filled i slot hi hs hw.1
    exact ⟨hf, fun hc => (hp hc).mono hsize⟩

theorem Laid.promote {fwd : Handle} (h : Laid predefined base (fwd :: waiting) a) {node : Node}
    (hf : node ≠ .forward) (hp : Clean predefined base → Proper predefined base a node) :
    ∃ a', a.promote fwd node = .ok a' ∧ Laid predefined base waiting a' ∧ a.Steady a' ∧
      a'.slots[fwd]? = some ⟨node, true⟩ := by
  obtain ⟨hle, hfwd⟩ := h.waits fwd List.mem_cons_self
  obtain ⟨hnew, hnodup⟩ := List.nodup_cons.mp h.nodup
  obtain ⟨a', ha, hsize, hslot⟩ := Arena.promote_of_slot hfwd node
  refine ⟨a', ha, ⟨hsize ▸ h.size_le, fun i hi => ?_, fun i hi => ?_, hnodup, ?_⟩, ?_, ?_⟩
  · rw [hslot, if_neg (Nat.ne_of_lt (hi.trans_le hle)), h.kept i hi]
  · rw [hslot, if_neg (ne_of_mem_of_not_mem hi hnew)]
    exact h.waits i (List.mem_cons_of_mem _ hi)
  · intro i slot hi hs hw
    rw [hslot] at hs
    by_cases he : i = fwd
    · rw [if_pos he] at hs
      obtain rfl := Option.some.inj hs
      exact ⟨hf, fun hc => (hp hc).mono hsize.ge⟩
    · rw [if_neg he] at hs
      obtain ⟨hf, hp⟩ := h.filled i slot hi hs (List.not_mem_cons_of_ne_of_not_mem he hw)
      exact ⟨hf, fun hc => (hp hc).mono hsize.ge⟩
  · intro i slot hs hne
    rw [hslot, if_neg, hs]
    rintro rfl
    obtain rfl := Option.some.inj (hs.symm.trans hfwd)
    exact hne rfl
  · rw [hslot, if_pos rfl]

theorem Laid.proper (h : Laid predefined base waiting a) (hc : Clean predefined base) {e : Handle}
    (he : InUse predefined base a e) {node : Node} (hn : a.node? e = some node)
    (hf : node ≠ .forward) : Proper predefined base a node := by
  obtain ⟨slot, hs, rfl⟩ := Arena.node?_eq_some_iff.mp hn
  by_cases hle : base.size ≤ e
  · refine (h.filled e slot hle hs fun hw => ?_).2 hc
    obtain rfl := Option.some.inj ((h.waits e hw).2.symm.trans hs)
    exact hf rfl
  · obtain ⟨n, k, hk, hwithin⟩ := he.resolve_left fun he => hle he.1
    rw [h.kept e (Nat.lt_of_not_le hle)] at hs
    have hnode := Arena.node?_of_slot hs
    exact ⟨(hc e _ ⟨n, k, hk, hwithin⟩ hnode).2,
      fun j hj => .inr ⟨n, k, hk, hwithin.tail ⟨_, hnode, hj⟩⟩⟩

theorem proper_aliasOf {e : Handle} (he : InUse predefined base a e) :
    Proper predefined base a (.aliasOf e) :=
  ⟨nofun, fun _ hk => List.mem_singleton.mp hk ▸ he⟩

/-- What an expression stands for may be copied, if it has content. -/
theorem Laid.proper_contentOf (h : Laid predefined base waiting a) (hc : Clean predefined base)
    {e : Handle} (he : InUse predefined base a e) : Proper predefined base a (a.contentOf e) := by
  unfold Arena.contentOf
  split
  · exact proper_aliasOf he
  · exact proper_aliasOf he
  · rename_i node hf hn
    exact h.proper hc he hn hf

/-! ## Rules -/

theorem Stands.steady {d : Definition} {h : Handle} (hs : a.Steady a') (hd : Stands rs known a d h) :
    Stands rs known a' d h := by
  obtain ⟨e, node, hn, hm, hc⟩ := hd
  have hf : node ≠ .forward := by
    rcases hc with rfl | hc
    · exact nofun
    · exact hc.1
  exact ⟨e, node, hs _ _ hn hf, hm.grow hs.unpromoted,
    hc.imp_right fun ⟨hf, he, hb⟩ => ⟨hf, hs.grows _ _ he hf, hb⟩⟩

theorem Stands.of_agree {d : Definition} {h : Handle}
    (hn : ∀ n, Needs rs d n → known[n]? = known'[n]?) (hd : Stands rs known a d h) :
    Stands rs known' a d h := by
  obtain ⟨e, node, hs, hm, hc⟩ := hd
  exact ⟨e, node, hs, hm.of_agree (fun n h => hn n (.inr h)) (fun n h => hn n (.inl h)), hc⟩

theorem Stands.slot {d : Definition} {h : Handle} (hd : Stands rs known a d h) :
    ∃ node, a.slots[h]? = some ⟨node, true⟩ := by
  obtain ⟨-, node, hs, -⟩ := hd
  exact ⟨node, hs⟩

/-! ## Stages -/

theorem Stage.init : Stage predefined base rs [] [] predefined base where
  laid := .init
  own := nofun
  distinct := nofun
  outer _ _ := rfl
  supplied := nofun

theorem Stage.lt_size (h : Stage predefined base rs done waiting known a) {n : String} (hn : n ∈ done)
    (hd : n ∈ rs.definitions) {k : Handle} (hk : known[n]? = some k) : base.size ≤ k ∧ k < a.size := by
  obtain ⟨d, hd⟩ := mem_iff_entry.mp hd
  obtain ⟨k', hk', hle, hc⟩ := h.own n hn d hd
  obtain rfl := Option.some.inj (hk.symm.trans hk')
  refine ⟨hle, ?_⟩
  rcases hc with hw | ⟨hs, -⟩
  · exact Arena.lt_size_of_slot (h.laid.waits k hw).2
  · exact Arena.lt_size_of_slot hs.slot.choose_spec

theorem Stage.inUse (h : Stage predefined base rs done waiting known a) {n : String} {k : Handle}
    (hk : known[n]? = some k) : InUse predefined base a k := by
  by_cases hn : n ∈ done ∧ n ∈ rs.definitions
  · exact .inl (h.lt_size hn.1 hn.2 hk)
  · rw [h.outer n (not_and_or.mp hn)] at hk
    exact .inr ⟨n, k, hk, .refl⟩

theorem Stage.adds (h : Stage predefined base rs done waiting known a)
    (ha : Adds predefined base a a') : Stage predefined base rs done waiting known a' where
  laid := h.laid.adds ha
  own n hn d hd := by
    obtain ⟨k, hk, hle, hc⟩ := h.own n hn d hd
    exact ⟨k, hk, hle, hc.imp_right fun hc => ⟨hc.1.steady ha.steady, hc.2⟩⟩
  distinct := h.distinct
  outer := h.outer
  supplied := h.supplied

theorem Stage.skip (h : Stage predefined base rs done waiting known a) {n : String}
    (hn : n ∉ rs.definitions) (hk : n ∈ known) :
    Stage predefined base rs (done ++ [n]) waiting known a := by
  have hold {n' : String} (hn' : n' ∈ done ++ [n]) (hd : n' ∈ rs.definitions) : n' ∈ done := by
    rcases List.mem_append.mp hn' with hn' | hn'
    · exact hn'
    · exact absurd (List.mem_singleton.mp hn' ▸ hd) hn
  refine ⟨h.laid, fun n' hn' d hd => ?_, fun n₁ h₁ n₂ h₂ hd₁ hd₂ => ?_, fun n' hn' => ?_,
    fun n' hn' => ?_⟩
  · obtain ⟨k, hk, hle, hc⟩ := h.own n' (hold hn' (mem_iff_entry.mpr ⟨d, hd⟩)) d hd
    exact ⟨k, hk, hle, hc.imp_right fun hc =>
      ⟨hc.1, fun m hm => List.mem_append_left _ (hc.2 m hm)⟩⟩
  · exact h.distinct n₁ (hold h₁ hd₁) n₂ (hold h₂ hd₂) hd₁ hd₂
  · exact h.outer n' (hn'.imp_left (mt (List.mem_append_left _)))
  · rcases List.mem_append.mp hn' with hn' | hn'
    · exact h.supplied n' hn'
    · exact List.mem_singleton.mp hn' ▸ hk

theorem Stage.declare (h : Stage predefined base rs done waiting known a) {n : String} (hn : n ∉ done)
    (hd : n ∈ rs.definitions) : Stage predefined base rs (done ++ [n]) (waiting ++ [a.size])
      (known.insert n a.size) (a.push .forward).2 := by
  have hself : (known.insert n a.size)[n]? = some a.size := Std.TreeMap.getElem?_insert_self
  have hother {n' : String} (hne : n' ≠ n) : (known.insert n a.size)[n']? = known[n']? := by
    rw [Std.TreeMap.getElem?_insert, if_neg]
    simpa [compare_eq_iff_eq] using hne.symm
  have hold {n' : String} (hn' : n' ∈ done) : (known.insert n a.size)[n']? = known[n']? :=
    hother fun he => hn (he ▸ hn')
  have hnew {n' : String} (hn' : n' ∈ done) (hd' : n' ∈ rs.definitions) :
      (known.insert n a.size)[n']? ≠ some a.size := by
    rw [hold hn']
    intro hk
    exact Nat.lt_irrefl _ (h.lt_size hn' hd' hk).2
  refine ⟨h.laid.declare, fun n' hn' d hd' => ?_, fun n₁ h₁ n₂ h₂ hd₁ hd₂ he => ?_, fun n' hn' => ?_,
    fun n' hn' => ?_⟩
  · rcases List.mem_append.mp hn' with hn' | hn'
    · obtain ⟨k, hk, hle, hc⟩ := h.own n' hn' d hd'
      refine ⟨k, (hold hn').trans hk, hle, hc.imp (List.mem_append_left _) fun ⟨hs, hneeds⟩ => ?_⟩
      refine ⟨(hs.steady (a.steady_push _)).of_agree fun m hm => (hold (hneeds m hm)).symm, ?_⟩
      exact fun m hm => List.mem_append_left _ (hneeds m hm)
    · obtain rfl := List.mem_singleton.mp hn'
      exact ⟨a.size, hself, h.laid.size_le, .inl (by simp)⟩
  · rcases List.mem_append.mp h₁ with hn₁ | hn₁ <;> rcases List.mem_append.mp h₂ with hn₂ | hn₂
    · rw [hold hn₁, hold hn₂] at he
      exact h.distinct n₁ hn₁ n₂ hn₂ hd₁ hd₂ he
    · obtain rfl := List.mem_singleton.mp hn₂
      exact absurd (he.trans hself) (hnew hn₁ hd₁)
    · obtain rfl := List.mem_singleton.mp hn₁
      exact absurd (he.symm.trans hself) (hnew hn₂ hd₂)
    · rw [List.mem_singleton.mp hn₁, List.mem_singleton.mp hn₂]
  · have hne : n' ≠ n := by
      rintro rfl
      exact hn'.elim (fun hn' => hn' (by simp)) fun hd' => hd' hd
    rw [hother hne]
    exact h.outer n' (hn'.imp_left (mt (List.mem_append_left _)))
  · rw [Std.TreeMap.mem_insert]
    rcases List.mem_append.mp hn' with hn' | hn'
    · exact .inr (h.supplied n' hn')
    · exact .inl (Std.compare_eq_iff_eq.mpr (List.mem_singleton.mp hn').symm)

theorem Stage.promote {p : Pending} (h : Stage predefined base rs done (p.fwd :: waiting) known a)
    (hp : p.name ∈ done) (hd : rs.definitions[p.name]? = some p.definition)
    (hk : known[p.name]? = some p.fwd) (hneeds : ∀ n, Needs rs p.definition n → n ∈ done)
    {e : Handle} (he : InUse predefined base a e)
    (hm : Means rs known a.unpromoted p.definition.mode p.definition.body e) {node : Node}
    (hnode : node = .aliasOf e ∨ node = a.contentOf e ∧ ∀ n, p.definition.body ≠ .name n) :
    ∃ a', a.promote p.fwd node = .ok a' ∧ Stage predefined base rs done waiting known a' := by
  have hf : node ≠ .forward := by
    rcases hnode with rfl | ⟨rfl, -⟩
    · exact nofun
    · exact Arena.contentOf_ne_forward a e
  have hproper (hc : Clean predefined base) : Proper predefined base a node := by
    rcases hnode with rfl | ⟨rfl, -⟩
    · exact proper_aliasOf he
    · exact h.laid.proper_contentOf hc he
  obtain ⟨a', ha, hlaid, hsteady, hslot⟩ := h.laid.promote hf hproper
  have hstands : Stands rs known a' p.definition p.fwd := by
    refine ⟨e, node, hslot, hm.grow hsteady.unpromoted, ?_⟩
    rcases hnode with rfl | ⟨rfl, hb⟩
    · exact .inl rfl
    · unfold Arena.contentOf at hf ⊢
      split
      · exact .inl rfl
      · exact .inl rfl
      · rename_i node hne hn
        exact .inr ⟨hne, hsteady.grows e node hn hne, hb⟩
  refine ⟨a', ha, hlaid, fun n hn d hd' => ?_, h.distinct, h.outer, h.supplied⟩
  obtain ⟨k, hk', hle, hc⟩ := h.own n hn d hd'
  refine ⟨k, hk', hle, ?_⟩
  by_cases hkf : k = p.fwd
  · subst hkf
    obtain rfl := h.distinct n hn p.name hp (mem_iff_entry.mpr ⟨d, hd'⟩)
      (mem_iff_entry.mpr ⟨_, hd⟩) (hk'.trans hk.symm)
    obtain rfl := Option.some.inj (hd'.symm.trans hd)
    exact .inr ⟨hstands, hneeds⟩
  · exact hc.imp (fun hw => (List.mem_cons.mp hw).resolve_left hkf)
      fun hc => ⟨hc.1.steady hsteady, hc.2⟩

end

end Peg.Bnf
