import Peg.Proofs.Reading.Entries
import Peg.Proofs.Reading.Printing

/-!
# Sources are read back

The text of a rule holds no line ends, so that a source is cut exactly at the blank lines between
rules. What is read from it does not depend on their order or on the separators.
-/

namespace Peg.Bnf

/-! ## Separators -/

def IsLineEnd (u : List Char) : Prop :=
  u = ['\n'] ∨ u = ['\r', '\n']

def IsBlankLine (u : List Char) : Prop :=
  ∃ blank lineEnd, u = blank ++ lineEnd ∧ (∀ c ∈ blank, c = ' ' ∨ c = '\t') ∧ IsLineEnd lineEnd

/-- A line end, then blank lines. -/
def IsSeparator (u : List Char) : Prop :=
  ∃ lineEnd lines, u = lineEnd ++ lines.flatten ∧ IsLineEnd lineEnd ∧ lines ≠ [] ∧
    ∀ line ∈ lines, IsBlankLine line

/-- The rules with separators between them, of which there must be enough. -/
def rendered : List (String × Definition) → List (List Char) → List Char
  | e :: e' :: es, sep :: seps => (e.2.renderAs e.1).toList ++ sep ++ rendered (e' :: es) seps
  | e :: _, _ => (e.2.renderAs e.1).toList
  | [], _ => []

/-! ## Texts without line ends -/

def LineFree (u : List Char) : Prop :=
  ∀ c ∈ u, c ≠ '\n' ∧ c ≠ '\r'

instance (u : List Char) : Decidable (LineFree u) :=
  List.decidableBAll (fun c => c ≠ '\n' ∧ c ≠ '\r') u

theorem lineFree_append {u v : List Char} : LineFree (u ++ v) ↔ LineFree u ∧ LineFree v := by
  exact List.forall_mem_append

theorem lineFree_cons {c : Char} {u : List Char} :
    LineFree (c :: u) ↔ (c ≠ '\n' ∧ c ≠ '\r') ∧ LineFree u := by
  simp only [LineFree, List.mem_cons, forall_eq_or_imp]

theorem lineFree_braced {u : List Char} (hu : LineFree u) : LineFree (braced u) :=
  lineFree_append.mpr ⟨lineFree_append.mpr ⟨by decide, hu⟩, by decide⟩

theorem lineFree_name {n : String} (hn : isName n) : LineFree n.toList := by
  intro c hc
  have := List.all_eq_true.mp (Bool.and_eq_true_iff.mp hn).2 c hc
  constructor <;> rintro rfl <;> exact absurd this (by decide)

theorem lineFree_escape (u : List Char) : LineFree (escape u) := by
  induction u with
  | nil => decide
  | cons c u ih =>
    unfold escape
    cases he : escapeOf? c with
    | some e =>
      have hfree : e ≠ '\n' ∧ e ≠ '\r' := by
        unfold escapeOf? at he
        split at he <;> cases he <;> decide
      exact lineFree_cons.mpr ⟨by decide, lineFree_cons.mpr ⟨hfree, ih⟩⟩
    | none =>
      refine lineFree_cons.mpr ⟨?_, ih⟩
      constructor <;> rintro rfl <;> cases he

mutual

theorem lineFree_render : ∀ b : Body, b.isPrintable → LineFree b.render
  | .name n, h => by
    rw [Body.render]
    exact lineFree_append.mpr ⟨lineFree_cons.mpr ⟨by decide, lineFree_name h⟩, by decide⟩
  | .lit text, _ => by
    rw [Body.render, quote]
    exact lineFree_append.mpr ⟨lineFree_cons.mpr ⟨by decide, lineFree_escape _⟩, by decide⟩
  | .opt b, h => by
    rw [Body.render]
    exact lineFree_append.mpr ⟨lineFree_append.mpr ⟨by decide, lineFree_render b h⟩, by decide⟩
  | .plus b, h => by
    have hb := lineFree_render b h
    rw [Body.render]
    refine lineFree_append.mpr ⟨?_, by decide⟩
    split
    · exact hb
    · exact lineFree_braced hb
  | .conj bs, h => by
    rw [Body.render]
    exact lineFree_renderList (by decide) _ bs (Bool.and_eq_true_iff.mp h).2
  | .disj bs, h => by
    rw [Body.render]
    exact lineFree_renderList (by decide) _ bs (Bool.and_eq_true_iff.mp h).2

theorem lineFree_renderList {sep : List Char} (hsep : LineFree sep) (wrap : Body → Bool) :
    ∀ bs : List Body, allPrintable bs → LineFree (renderList sep wrap bs)
  | [], _ => by
    rw [renderList]
    decide
  | b :: bs, h => by
    obtain ⟨hb, hbs⟩ := Bool.and_eq_true_iff.mp h
    have hb := lineFree_render b hb
    have hbs := lineFree_renderList hsep wrap bs hbs
    have hfirst : LineFree (if wrap b then braced b.render else b.render) := by
      split
      · exact lineFree_braced hb
      · exact hb
    cases bs with
    | nil =>
      rw [renderList]
      exact hfirst
    | cons c bs =>
      rw [renderList]
      · exact lineFree_append.mpr ⟨lineFree_append.mpr ⟨hfirst, hsep⟩, hbs⟩
      · exact List.cons_ne_nil c bs

end

theorem lineFree_renderAs {n : String} {d : Definition} (hn : isName n) (hd : d.body.isPrintable) :
    LineFree (d.renderAs n).toList := by
  have hsign : LineFree d.mode.sign.toList := by cases d.mode <;> decide
  have he : (d.renderAs n).toList = '<' :: (n.toList ++ ("> ".toList ++ (d.mode.sign.toList ++
      (" ".toList ++ d.body.render)))) := by
    simp [Definition.renderAs, Definition.render]
  rw [he]
  refine lineFree_cons.mpr ⟨by decide, lineFree_append.mpr ⟨lineFree_name hn, ?_⟩⟩
  refine lineFree_append.mpr ⟨by decide, lineFree_append.mpr ⟨hsign, ?_⟩⟩
  exact lineFree_append.mpr ⟨by decide, lineFree_render _ hd⟩

/-! ## Groups -/

theorem blankLines_blanks {u : List Char} (hu : ∀ c ∈ u, c = ' ' ∨ c = '\t') (n : Nat)
    (t : List Char) : blankLines n (u ++ t) = blankLines (n + u.length) t := by
  induction u generalizing n with
  | nil => rfl
  | cons c u ih =>
    obtain ⟨hc, hu⟩ := List.forall_mem_cons.mp hu
    have hstep : blankLines n (c :: (u ++ t)) = blankLines (n + 1) (u ++ t) := by
      rcases hc with rfl | rfl <;> simp [blankLines]
    rw [List.cons_append, hstep, ih hu, List.length_cons, Nat.add_assoc, Nat.add_comm 1]

/-- Blank lines end before a rule. -/
theorem blankLines_line {line rest : List Char} (hline : IsBlankLine line) (n : Nat) :
    blankLines n (line ++ rest) = n + line.length + blankLines 0 rest := by
  obtain ⟨blank, lineEnd, rfl, hblank, hend⟩ := hline
  rw [List.append_assoc, blankLines_blanks hblank, List.length_append]
  rcases hend with rfl | rfl <;> rfl

theorem blankLines_lines {lines : List (List Char)} (hlines : ∀ line ∈ lines, IsBlankLine line)
    (rest : List Char) :
    blankLines 0 (lines.flatten ++ rest) = lines.flatten.length + blankLines 0 rest := by
  induction lines with
  | nil => rw [List.flatten_nil, List.nil_append, List.length_nil, Nat.zero_add]
  | cons line lines ih =>
    obtain ⟨hline, hlines⟩ := List.forall_mem_cons.mp hlines
    rw [List.flatten_cons, List.append_assoc, blankLines_line hline, ih hlines, List.length_append]
    omega

theorem length_pos_of_isBlankLine {line : List Char} (h : IsBlankLine line) : 0 < line.length := by
  obtain ⟨blank, lineEnd, rfl, -, rfl | rfl⟩ := h <;> simp

theorem ne_nil_of_isSeparator {sep : List Char} (h : IsSeparator sep) : sep ≠ [] := by
  obtain ⟨lineEnd, lines, rfl, rfl | rfl, -⟩ := h <;> simp

theorem length_pos_of_isSeparator {sep : List Char} (h : IsSeparator sep) : 0 < sep.length :=
  List.length_pos_iff.mpr (ne_nil_of_isSeparator h)

theorem separator_append {sep : List Char} (hsep : IsSeparator sep) (rest : List Char) :
    separator (sep ++ rest) = sep.length + blankLines 0 rest := by
  obtain ⟨lineEnd, lines, rfl, hend, hne, hlines⟩ := hsep
  have hb := blankLines_lines hlines rest
  have hpos : 0 < lines.flatten.length := by
    match lines, hne with
    | line :: lines, _ =>
      have := length_pos_of_isBlankLine (hlines line List.mem_cons_self)
      rw [List.flatten_cons, List.length_append]
      omega
  have hcount (n : Nat) : separatorOf n (blankLines 0 (lines.flatten ++ rest)) =
      n + lines.flatten.length + blankLines 0 rest := by
    rw [hb, separatorOf, if_neg (by omega), Nat.add_assoc]
  rw [List.append_assoc, List.length_append]
  rcases hend with rfl | rfl
  · exact hcount 1
  · exact hcount 2

theorem separator_eq_zero {c : Char} (hc : c ≠ '\n' ∧ c ≠ '\r') (r : List Char) :
    separator (c :: r) = 0 := by
  unfold separator
  split
  · rename_i h
    exact absurd (List.cons.inj h).1 hc.1
  · rename_i h
    exact absurd (List.cons.inj h).1 hc.2
  · rfl

theorem groupsFrom_lineFree {u : List Char} (hu : LineFree u) (lines : Nat) (group : Group)
    (r : List Char) : groupsFrom 0 lines group (u ++ r) =
      groupsFrom 0 lines { group with text := u.reverse ++ group.text } r := by
  induction u generalizing group with
  | nil => rfl
  | cons c u ih =>
    obtain ⟨hc, hu⟩ := lineFree_cons.mp hu
    rw [List.cons_append, groupsFrom, separator_eq_zero hc, if_neg hc.1]
    simp only [ih hu, List.reverse_cons, List.append_assoc, List.singleton_append]

theorem groupsFrom_skip {u : List Char} (r : List Char) (lines : Nat) (group : Group)
    (hu : u ≠ []) : groupsFrom u.length lines group (u ++ r) =
      groupsFrom 0 (lines + u.count '\n') ⟨lines + u.count '\n', []⟩ r := by
  induction u generalizing lines group with
  | nil => exact absurd rfl hu
  | cons c u ih =>
    have hcount : (if c = '\n' then lines + 1 else lines) + u.count '\n' =
        lines + (c :: u).count '\n' := by
      by_cases hc : c = '\n'
      · rw [if_pos hc, hc, List.count_cons_self]
        omega
      · rw [if_neg hc, List.count_cons_of_ne hc]
    rw [List.cons_append, List.length_cons, groupsFrom, ← hcount]
    cases u with
    | nil => rfl
    | cons d u => exact ih _ _ (List.cons_ne_nil d u)

/-- A separator is one cut. -/
theorem groupsFrom_separator {sep rest : List Char} (hsep : IsSeparator sep)
    (hrest : blankLines 0 rest = 0) (lines : Nat) (group : Group) :
    groupsFrom 0 lines group (sep ++ rest) = { group with text := group.text.reverse } ::
      groupsFrom 0 (lines + sep.count '\n') ⟨lines + sep.count '\n', []⟩ rest := by
  have hs := separator_append hsep rest
  have hne := ne_nil_of_isSeparator hsep
  rw [hrest, Nat.add_zero] at hs
  rw [← groupsFrom_skip rest lines group hne]
  match sep, hne with
  | c :: sep, _ =>
    rw [List.cons_append] at hs ⊢
    rw [groupsFrom, hs, List.length_cons, groupsFrom]

/-! ## Rendered rules -/

def IsRead (e : String × Definition) : Prop :=
  isName e.1 ∧ e.2.body.isNormal

theorem blankLines_rendered (es : List (String × Definition)) (seps : List (List Char)) :
    blankLines 0 (rendered es seps) = 0 := by
  have hrule (e : String × Definition) (r : List Char) :
      blankLines 0 ((e.2.renderAs e.1).toList ++ r) = 0 := by
    simp [Definition.renderAs, blankLines]
  cases es with
  | nil => rfl
  | cons e es =>
    cases es with
    | nil => simpa [rendered] using hrule e []
    | cons e' es =>
      cases seps with
      | nil => simpa [rendered] using hrule e []
      | cons sep seps =>
        rw [rendered, List.append_assoc]
        exact hrule e _

theorem texts_groupsFrom {es : List (String × Definition)} {seps : List (List Char)}
    (hne : es ≠ []) (hes : ∀ e ∈ es, IsRead e) (hseps : ∀ sep ∈ seps, IsSeparator sep)
    (hlen : es.length ≤ seps.length + 1) (lines l : Nat) :
    (groupsFrom 0 lines ⟨l, []⟩ (rendered es seps)).map Group.text =
      es.map fun e => (e.2.renderAs e.1).toList := by
  induction es generalizing seps lines l with
  | nil => exact absurd rfl hne
  | cons e es ih =>
    obtain ⟨he, hes⟩ := List.forall_mem_cons.mp hes
    have hfree := lineFree_renderAs (n := e.1) (d := e.2) he.1 (Body.isPrintable_of_isNormal _ he.2)
    cases es with
    | nil =>
      have := groupsFrom_lineFree hfree lines ⟨l, []⟩ []
      rw [List.append_nil, List.append_nil] at this
      cases seps <;> simp [rendered, this, groupsFrom]
    | cons e' es =>
      match seps, hlen with
      | sep :: seps, hlen =>
        obtain ⟨hsep, hseps⟩ := List.forall_mem_cons.mp hseps
        have hcut := groupsFrom_separator hsep (blankLines_rendered (e' :: es) seps) lines
          ⟨l, (e.2.renderAs e.1).toList.reverse⟩
        rw [rendered, List.append_assoc, groupsFrom_lineFree hfree]
        simp only [List.append_nil]
        rw [hcut, List.map_cons, ih (List.cons_ne_nil e' es) hes hseps (by simpa using hlen),
          List.reverse_reverse]
        rfl

/-! ## Definitions -/

theorem isRead_insert {defs : Definitions} (hdefs : ∀ n d, defs[n]? = some d → IsRead (n, d))
    {n : String} {d : Definition} (hd : IsRead (n, d)) :
    ∀ m d', (defs.insert n d)[m]? = some d' → IsRead (m, d') := by
  intro m d' hm
  rw [Std.TreeMap.getElem?_insert] at hm
  split at hm
  · rename_i hnm
    obtain rfl : n = m := Std.LawfulEqCmp.eq_of_compare hnm
    obtain rfl := Option.some.inj hm
    exact hd
  · exact hdefs m d' hm

/-- Every definition that is read has a name and a normal body. -/
theorem isRead_of_readGroups {defs D : Definitions} {gs : List Group}
    (hdefs : ∀ n d, defs[n]? = some d → IsRead (n, d))
    (h : (readGroups defs gs).value = .ok D) : ∀ n d, D[n]? = some d → IsRead (n, d) := by
  induction gs generalizing defs with
  | nil =>
    obtain rfl : defs = D := Except.ok.inj h
    exact hdefs
  | cons g gs ih =>
    unfold readGroups at h
    split at h
    · exact ih hdefs h
    · split at h
      · cases h
      · rename_i n d hg
        split at h
        · cases h
        · obtain ⟨r, hr, -, rfl, rfl⟩ := exists_rule_of_readRule (Group.read_eq_ok_iff.mp hg)
          exact ih (isRead_insert hdefs (Direct.isNormal_rule hr)) h

theorem readAs_rendered {gs : List Group} {es : List (String × Definition)}
    (hgs : gs.map Group.text = es.map fun e => (e.2.renderAs e.1).toList)
    (hes : ∀ e ∈ es, IsRead e) (hdistinct : es.Pairwise fun e e' => e.1 ≠ e'.1) :
    ReadAs gs es where
  rules := by
    induction es generalizing gs with
    | nil =>
      obtain rfl : gs = [] := List.map_eq_nil_iff.mp hgs
      rfl
    | cons e es ih =>
      match gs, hgs with
      | g :: gs, hgs =>
        obtain ⟨hg, hgs⟩ := List.cons.inj hgs
        obtain ⟨he, hes⟩ := List.forall_mem_cons.mp hes
        have hread : readRule (String.ofList g.text) = .ok e := by
          have := readRule_of_rule (Direct.rule_renderAs he.1 (Body.isPrintable_of_isNormal _ he.2))
            rfl rfl
          rw [Body.norm_of_isNormal _ he.2] at this
          rw [hg, String.ofList_toList]
          exact this
        have hblank : g.isBlank = false := by
          have hw : isWhiteSpace '<' = false := by decide
          rw [Group.isBlank, hg]
          simp [Definition.renderAs, hw]
        rw [List.filter_cons_of_pos (by simp [hblank]), List.map_cons, List.map_cons, hread,
          ih hgs hes (List.pairwise_cons.mp hdistinct).2]
  nodup := List.pairwise_map.mpr hdistinct

/-- Groups that are rendered rules add just these rules. -/
theorem readGroups_rendered {gs : List Group} {es : List (String × Definition)} {defs : Definitions}
    (hgs : gs.map Group.text = es.map fun e => (e.2.renderAs e.1).toList)
    (hes : ∀ e ∈ es, IsRead e) (hnew : ∀ e ∈ es, e.1 ∉ defs)
    (hdistinct : es.Pairwise fun e e' => e.1 ≠ e'.1) :
    ∃ D, (readGroups defs gs).value = .ok D ∧
      ∀ n d, D[n]? = some d ↔ (n, d) ∈ es ∨ defs[n]? = some d := by
  obtain ⟨D, hD, hlook⟩ := readGroups_append _ (readAs_rendered hgs hes hdistinct) hnew []
  rw [List.append_nil] at hD
  exact ⟨D, hD, hlook⟩

theorem readAll_of_rendered {es : List (String × Definition)} {seps : List (List Char)}
    (hes : ∀ e ∈ es, IsRead e) (hseps : ∀ sep ∈ seps, IsSeparator sep)
    (hdistinct : es.Pairwise fun e e' => e.1 ≠ e'.1) (hlen : es.length ≤ seps.length + 1) :
    ∃ D, (readAll (String.ofList (rendered es seps))).value = .ok D ∧
      ∀ n d, D[n]? = some d ↔ (n, d) ∈ es := by
  rw [readAll, groups, String.toList_ofList]
  cases es with
  | nil => exact ⟨∅, rfl, by simp⟩
  | cons e es =>
    have htexts := texts_groupsFrom (List.cons_ne_nil e es) hes hseps hlen 0 0
    have hnew : ∀ e' ∈ e :: es, e'.1 ∉ (∅ : Definitions) := by simp
    obtain ⟨D, hD, hlook⟩ := readGroups_rendered htexts hes hnew hdistinct
    exact ⟨D, hD, by simpa using hlook⟩

/-- The definitions of a source are normal, and they are what is read from their text, in any order
and with any separators. -/
theorem readAll_rendered (source : String) (D : Definitions)
    (h : (readAll source).value = .ok D) :
    (∀ (n : String) (d : Definition), D[n]? = some d → isName n ∧ d.body.isNormal) ∧
      ∀ es seps, es.Perm D.toList → (∀ sep ∈ seps, IsSeparator sep) →
        es.length ≤ seps.length + 1 →
          ∃ D', (readAll (String.ofList (rendered es seps))).value = .ok D' ∧
            D'.toList = D.toList := by
  have hnone : ∀ (n : String) (d : Definition), (∅ : Definitions)[n]? = some d → IsRead (n, d) := by
    simp
  have hD : ∀ (n : String) (d : Definition), D[n]? = some d → IsRead (n, d) :=
    isRead_of_readGroups hnone h
  refine ⟨hD, fun es seps hperm hseps hlen => ?_⟩
  have hmem (n : String) (d : Definition) : (n, d) ∈ es ↔ D[n]? = some d :=
    hperm.mem_iff.trans Std.TreeMap.mem_toList_iff_getElem?_eq_some
  have hdistinct : es.Pairwise fun e e' => e.1 ≠ e'.1 := by
    refine hperm.symm.pairwise (Std.TreeMap.distinct_keys_toList.imp fun h he => h ?_) fun h => h.symm
    rw [he]
    exact Std.ReflCmp.compare_self
  obtain ⟨D', hD', hlook⟩ := readAll_of_rendered (fun e he => hD e.1 e.2 ((hmem e.1 e.2).mp he))
    hseps hdistinct hlen
  exact ⟨D', hD', toList_eq_of_getElem? fun n d => (hlook n d).trans (hmem n d)⟩

theorem readAll_rendered_swapped :
    ∃ D D', (readAll "<a> ::= b | \"c\\n\"\n\n<d> :== <a>...").value = .ok D ∧
      D.toList =
        [("a", ⟨.disj [.lit "b", .lit "c\n"], .loose⟩), ("d", ⟨.plus (.name "a"), .strict⟩)] ∧
      (readAll "<d> :== <a>...\r\n \t\n\r\n<a> ::= \"b\" | \"c\\n\"").value = .ok D' ∧
        D'.toList = D.toList := by
  have hread : (readAll "<a> ::= b | \"c\\n\"\n\n<d> :== <a>...").value.toOption.map (·.toList) =
      some [("a", ⟨.disj [.lit "b", .lit "c\n"], .loose⟩), ("d", ⟨.plus (.name "a"), .strict⟩)] := by
    decide +kernel
  cases hv : (readAll "<a> ::= b | \"c\\n\"\n\n<d> :== <a>...").value with
  | error e =>
    rw [hv] at hread
    cases hread
  | ok D =>
    rw [hv] at hread
    have hlist : D.toList = _ := Option.some.inj hread
    have hsep : IsSeparator "\r\n \t\n\r\n".toList := by
      refine ⟨['\r', '\n'], [[' ', '\t', '\n'], ['\r', '\n']], rfl, .inr rfl, nofun, ?_⟩
      refine List.forall_mem_cons.mpr ⟨⟨[' ', '\t'], ['\n'], rfl, by simp, .inl rfl⟩, ?_⟩
      exact List.forall_mem_singleton.mpr ⟨[], ['\r', '\n'], rfl, nofun, .inr rfl⟩
    obtain ⟨D', hD', he⟩ := (readAll_rendered _ D hv).2
      [("d", ⟨.plus (.name "a"), .strict⟩), ("a", ⟨.disj [.lit "b", .lit "c\n"], .loose⟩)]
      ["\r\n \t\n\r\n".toList] (by rw [hlist]; exact .swap ..)
      (List.forall_mem_singleton.mpr hsep) (Nat.le_refl _)
    exact ⟨D, D', rfl, hlist, hD', he⟩

end Peg.Bnf
