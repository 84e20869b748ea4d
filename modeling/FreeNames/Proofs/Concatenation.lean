import FreeNames.Proofs.Wrapping

/-!
# Programs one after the other

Two programs make one when the statements of the second follow those of the first. Each piece declares in
the new program what it declares alone. What it declares inside itself the other piece does not see; what it
declares at the top is there for both. So the table of the new program has the names of both tables, and a
reference of one piece is lost if the other piece declares its name at the top.
-/

namespace FreeNames

/-! ### Two pieces of code -/

/-- A walk of the values meets what it meets in two pieces, and the pieces have no node in common. -/
structure Joined (values mine others : List Value) : Prop where
  mem_visits : ∀ v, v ∈ (visitsOf values).visits ↔ v ∈ (visitsOf mine).visits ∨ v ∈ (visitsOf others).visits
  apart : ∀ w ∈ mine, ∀ w' ∈ others, ∀ n ∈ w.nodes, n ∉ w'.nodes

theorem Joined.symm {values mine others : List Value} (h : Joined values mine others) :
    Joined values others mine where
  mem_visits v := (h.mem_visits v).trans or_comm
  apart w hw w' hw' n hn hn' := h.apart w' hw' w hw n hn' hn

theorem Trace.concat_append (as bs : List Trace) : concat (as ++ bs) = concat as ++ concat bs := by
  induction as with
  | nil => rfl
  | cons a as ih => rw [List.cons_append, concat_cons, concat_cons, ih, append_assoc]

theorem visitsOf_append (mine others : List Value) :
    visitsOf (mine ++ others) = visitsOf mine ++ visitsOf others := by
  rw [visitsOf, List.map_append, Trace.concat_append]
  rfl

theorem statements_append (body₁ body₂ : List Value) :
    statements (body₁ ++ body₂) = statements body₁ ++ statements body₂ := List.filter_append _ _

/-! ### What a piece declares -/

namespace Frame

variable {values others : List Value} (F : Frame values) (G : Frame others)

/-- Names are declared by the code and not by the frame. -/
theorem declared_iff {n : Node} {x : Name} :
    F.root.Declared n x ↔
      ∃ u ∈ (visitsOf values).visits, ∃ y, (u.below F.chain).Binds F.root n y ∧ y.key = x.key := by
  unfold Node.Declared
  rw [F.entered_eq]
  constructor
  · rintro ⟨v, hv, y, ⟨m, hd, hm⟩, hkey⟩
    rcases List.mem_append.mp hv with hv | hv
    · exact absurd hd (F.plain v hv).not_declares
    · obtain ⟨u, hu, rfl⟩ := List.mem_map.mp hv
      exact ⟨u, hu, y, ⟨m, hd, hm⟩, hkey⟩
  · rintro ⟨u, hu, hb⟩
    exact ⟨u.below F.chain, List.mem_append_right _ (List.mem_map_of_mem hu), hb⟩

/-- What is bound in a node inside the code is bound there in any frame. -/
theorem binds_inside {u : Visit} {n : Node} {y : Name} (hn : n ∉ F.chain)
    (h : (u.below F.chain).Binds F.root n y) :
    (u.below G.chain).Binds G.root n y ∧ (n ∈ u.around ∨ n ∈ u.node.toValue.nodes) := by
  obtain ⟨m, hd, hm⟩ := h
  rcases F.declares_below G hd with ⟨hd, hin⟩ | ⟨hF, -⟩
  · exact ⟨⟨m, hd, hm⟩, hin⟩
  · exact absurd hF hn

/-- What is bound in a node of the frame is bound in a node of any other frame. -/
theorem binds_outside {u : Visit} {y : Name} (hu : u ∈ (visitsOf values).visits)
    (h : ∃ s ∈ F.chain, (u.below F.chain).Binds F.root s y) :
    ∃ s ∈ G.chain, (u.below G.chain).Binds G.root s y := by
  obtain ⟨s, hs, m, hd, hm⟩ := h
  rcases F.declares_below G hd with ⟨-, hin⟩ | ⟨-, s', hs', hd⟩
  · exact absurd hs (F.not_mem_chain hu hin)
  · exact ⟨s', hs', m, hd, hm⟩

/-- What has a table in the frame has one in any other frame. -/
theorem targets_outside {u : Visit} (hu : u ∈ (visitsOf values).visits)
    (h : ∃ s ∈ F.chain, (u.below F.chain).Targets F.root s) :
    ∃ s ∈ G.chain, (u.below G.chain).Targets G.root s := by
  have hinside : ∀ {s}, s ∈ F.chain → s ∈ u.around ∨ s ∈ u.node.toValue.nodes → False :=
    fun hs hin => F.not_mem_chain hu hin hs
  obtain ⟨s, hs, ht⟩ := h
  cases ht with
  | own hk => exact (hinside hs (.inr (Value.mem_nodes_toValue u.node))).elim
  | handler hk hh =>
    refine (hinside hs (.inr (List.mem_cons_of_mem _ ?_))).elim
    exact Node.mem_nodesOfFields_of_field hh (Value.mem_nodes_toValue _)
  | var hk hv hn =>
    rcases F.nearest_below G G.exists_isScope hn with ⟨-, hin⟩ | ⟨-, s', hs', hn⟩
    · exact (hinside hs (.inl hin)).elim
    · exact ⟨s', hs', .var hk hv hn⟩
  | lexical hk hv hn =>
    rcases F.nearest_below G G.exists_isBlockScope hn with ⟨-, hin⟩ | ⟨-, s', hs', hn⟩
    · exact (hinside hs (.inl hin)).elim
    · exact ⟨s', hs', .lexical hk hv hn⟩
  | functionName hk hx hn =>
    rcases F.nearest_below G G.exists_isScope hn with ⟨-, hin⟩ | ⟨-, s', hs', hn⟩
    · exact (hinside hs (.inl hin)).elim
    · exact ⟨s', hs', .functionName hk hx hn⟩
  | className hk hx hn =>
    rcases F.nearest_below G G.exists_isBlockScope hn with ⟨-, hin⟩ | ⟨-, s', hs', hn⟩
    · exact (hinside hs (.inl hin)).elim
    · exact ⟨s', hs', .className hk hx hn⟩
  | importName hk => exact ⟨G.root, G.root_mem, .importName hk⟩

end Frame

/-! ### What two pieces declare together -/

namespace Frame

variable {values mine others : List Value} (F : Frame values) (F₁ : Frame mine) (F₂ : Frame others)

/-- The name is declared in a node of the frame. -/
def DeclaredOutside (x : Name) : Prop := ∃ s ∈ F.chain, F.root.Declared s x

theorem declaredOutside_iff {x : Name} :
    F.DeclaredOutside x ↔ ∃ u ∈ (visitsOf values).visits, ∃ y,
      (∃ s ∈ F.chain, (u.below F.chain).Binds F.root s y) ∧ y.key = x.key := by
  simp only [DeclaredOutside, declared_iff]
  constructor
  · rintro ⟨s, hs, u, hu, y, hb, hkey⟩
    exact ⟨u, hu, y, ⟨s, hs, hb⟩, hkey⟩
  · rintro ⟨u, hu, y, ⟨s, hs, hb⟩, hkey⟩
    exact ⟨s, hs, u, hu, y, hb, hkey⟩

theorem declaredAround_iff_or {v : Visit} {x : Name} :
    F.DeclaredAround v x ↔ (∃ n ∈ v.around, F.root.Declared n x) ∨ F.DeclaredOutside x := by
  simp only [DeclaredAround, DeclaredOutside, Visit.below, List.mem_append, or_and_right, exists_or]

variable (hj : Joined values mine others)
include hj

/-- At the top two pieces declare what each declares. -/
theorem declaredOutside_joined {x : Name} :
    F.DeclaredOutside x ↔ F₁.DeclaredOutside x ∨ F₂.DeclaredOutside x := by
  simp only [declaredOutside_iff]
  constructor
  · rintro ⟨u, hu, y, hb, hkey⟩
    rcases (hj.mem_visits u).mp hu with hu' | hu'
    · exact .inl ⟨u, hu', y, F.binds_outside F₁ hu hb, hkey⟩
    · exact .inr ⟨u, hu', y, F.binds_outside F₂ hu hb, hkey⟩
  · rintro (⟨u, hu, y, hb, hkey⟩ | ⟨u, hu, y, hb, hkey⟩)
    · exact ⟨u, (hj.mem_visits u).mpr (.inl hu), y, F₁.binds_outside F hu hb, hkey⟩
    · exact ⟨u, (hj.mem_visits u).mpr (.inr hu), y, F₂.binds_outside F hu hb, hkey⟩

/-- In a node inside one piece only this piece declares. -/
theorem declared_joined {v : Visit} (hv : v ∈ (visitsOf mine).visits) {n : Node} (hn : n ∈ v.around)
    {x : Name} : F.root.Declared n x ↔ F₁.root.Declared n x := by
  have hF : n ∉ F.chain := F.not_mem_chain ((hj.mem_visits v).mpr (.inl hv)) (.inl hn)
  have hF₁ : n ∉ F₁.chain := F₁.not_mem_chain hv (.inl hn)
  rw [declared_iff, declared_iff]
  constructor
  · rintro ⟨u, hu, y, hb, hkey⟩
    rcases (hj.mem_visits u).mp hu with hu' | hu'
    · exact ⟨u, hu', y, (F.binds_inside F₁ hF hb).1, hkey⟩
    · obtain ⟨w, hw, hnode⟩ := exists_mem_nodes_of_mem_visitsOf hv (.inl hn)
      obtain ⟨w', hw', hnode'⟩ := exists_mem_nodes_of_mem_visitsOf hu' (F.binds_inside F₁ hF hb).2
      exact absurd hnode' (hj.apart w hw w' hw' n hnode)
  · rintro ⟨u, hu, y, hb, hkey⟩
    exact ⟨u, (hj.mem_visits u).mpr (.inl hu), y, (F₁.binds_inside F hF₁ hb).1, hkey⟩

theorem declaredAround_joined {v : Visit} (hv : v ∈ (visitsOf mine).visits) {x : Name} :
    F.DeclaredAround v x ↔ F₁.DeclaredAround v x ∨ F₂.DeclaredOutside x := by
  have hinside : (∃ n ∈ v.around, F.root.Declared n x) ↔ ∃ n ∈ v.around, F₁.root.Declared n x :=
    exists_congr fun n => and_congr_right fun hn => F.declared_joined F₁ hj hv hn
  rw [declaredAround_iff_or, declaredAround_iff_or, F.declaredOutside_joined F₁ F₂ hj, hinside, or_assoc]

/-- What is free in both pieces together is what is free in its piece, and not declared at the top of the
other. -/
theorem isFree_joined (hreceiver : F.hasReceiver = F₁.hasReceiver) {v : Visit}
    (hv : v ∈ (visitsOf mine).visits) :
    (v.below F.chain).IsFree F.root ↔ (v.below F₁.chain).IsFree F₁.root ∧
      ¬ (v.kind = .identifier ∧ ∃ x, v.node.Named x ∧ F₂.DeclaredOutside x) := by
  rw [isFree_below_iff, isFree_below_iff, hreceiver]
  simp only [F.declaredAround_joined F₁ F₂ hj hv, not_or]
  constructor
  · rintro (⟨hi, x, hx, hundefined, harguments, hmine, hother⟩ | ⟨ht, hr⟩)
    · refine ⟨.inl ⟨hi, x, hx, hundefined, harguments, hmine⟩, ?_⟩
      rintro ⟨-, y, hy, hd⟩
      exact hother (hx.eq hy ▸ hd)
    · exact ⟨.inr ⟨ht, hr⟩, fun h => absurd (h.1.symm.trans ht) (by decide)⟩
  · rintro ⟨⟨hi, x, hx, hundefined, harguments, hmine⟩ | ⟨ht, hr⟩, hother⟩
    · exact .inl ⟨hi, x, hx, hundefined, harguments, hmine, fun hd => hother ⟨hi, x, hx, hd⟩⟩
    · exact .inr ⟨ht, hr⟩

section

variable {t₁ t₂ t : Tree} (ht₁ : t₁.root = F₁.root.toValue) (ht₂ : t₂.root = F₂.root.toValue)
  (ht : t.root = F.root.toValue) (hfault : (visitsOf values).fault = none)
include ht₁ ht₂ ht hfault

theorem buildScopes_joined (h₁ : (buildScopes t₁.tables t₁.root).2 = none)
    (h₂ : (buildScopes t₂.tables t₂.root).2 = none) : (buildScopes t.tables t.root).2 = none := by
  rw [ht₁] at h₁
  rw [ht₂] at h₂
  rw [ht]
  have hreadable₁ := (F₁.buildScopes_fault_eq_none_iff.mp h₁).2
  have hreadable₂ := (F₂.buildScopes_fault_eq_none_iff.mp h₂).2
  refine F.buildScopes_fault_eq_none_iff.mpr ⟨hfault, fun v hv => ?_⟩
  exact ((hj.mem_visits v).mp hv).elim (hreadable₁ v) (hreadable₂ v)

theorem exists_references_joined {tables₁ tables₂ tables : Tables} (hs₁ : tables₁.HoldSets)
    (hs₂ : tables₂.HoldSets) (hs : tables.HoldSets) (h₁ : ∃ refs, references tables₁ t₁.root = .ok refs)
    (h₂ : ∃ refs, references tables₂ t₂.root = .ok refs) : ∃ refs, references tables t.root = .ok refs := by
  rw [ht₁] at h₁
  rw [ht₂] at h₂
  rw [ht]
  have hnamed₁ := ((F₁.exists_references_iff hs₁).mp h₁).2
  have hnamed₂ := ((F₂.exists_references_iff hs₂).mp h₂).2
  refine (F.exists_references_iff hs).mpr ⟨hfault, fun v hv => ?_⟩
  exact ((hj.mem_visits v).mp hv).elim (hnamed₁ v) (hnamed₂ v)

end

/-- In the frame two pieces have a table if one of them has. -/
theorem targets_joined :
    (∃ u ∈ (visitsOf values).visits, ∃ s ∈ F.chain, (u.below F.chain).Targets F.root s) ↔
      (∃ u ∈ (visitsOf mine).visits, ∃ s ∈ F₁.chain, (u.below F₁.chain).Targets F₁.root s) ∨
        ∃ u ∈ (visitsOf others).visits, ∃ s ∈ F₂.chain, (u.below F₂.chain).Targets F₂.root s := by
  constructor
  · rintro ⟨u, hu, ht⟩
    rcases (hj.mem_visits u).mp hu with hu' | hu'
    · exact .inl ⟨u, hu', F.targets_outside F₁ hu ht⟩
    · exact .inr ⟨u, hu', F.targets_outside F₂ hu ht⟩
  · rintro (⟨u, hu, ht⟩ | ⟨u, hu, ht⟩)
    · exact ⟨u, (hj.mem_visits u).mpr (.inl hu), F₁.targets_outside F hu ht⟩
    · exact ⟨u, (hj.mem_visits u).mpr (.inr hu), F₂.targets_outside F hu ht⟩

end Frame

/-! ### Programs and their tables -/

/-- The reference is an identifier whose name is in the set. -/
def Reference.isNamedIn (names : NameSet) (r : Reference) : Bool :=
  !r.isThis && r.name.toOption.any fun x => decide (x ∈ names)

theorem Visit.isNamedIn_toReference_iff {v : Visit} (hk : v.node.kind? = some v.kind)
    (hr : v.kind = .identifier ∨ v.kind = .thisExpression) {names : NameSet} :
    v.toReference.isNamedIn names ↔ v.kind = .identifier ∧ ∃ x, v.node.Named x ∧ x ∈ names := by
  have hthis := isThis_toReference_iff hk
  unfold Reference.isNamedIn
  rcases hr with hi | ht
  · have hnot : v.toReference.isThis = false := by
      rw [← Bool.not_eq_true, hthis, hi]
      decide
    have hname : ∀ x, v.toReference.name = .ok x ↔ v.node.Named x := by
      intro x
      rw [Reference.name, hnot, if_neg Bool.false_ne_true]
      exact Node.name_eq_ok_iff
    rw [hnot]
    simp only [Bool.not_false, Bool.true_and, hi, true_and, Option.any_eq_true, decide_eq_true_eq]
    refine exists_congr fun x => and_congr_left fun _ => ?_
    rw [← hname x]
    exact ⟨eq_ok_of_toOption, fun h => by rw [h]; rfl⟩
  · rw [hthis.mpr ht, ht]
    simp

namespace Tree

/-- The tree has this table at its root, or none. -/
def HasRootTable (t : Tree) (table : Option NameSet) : Prop :=
  ∃ n : Node, t.root = n.toValue ∧ t.tables.slot? n.label = table.map .names

end Tree

/-- Programs give no node a table. -/
theorem Visit.not_targets_of_program {v : Visit} (hk : v.kind = .program) {root s : Node} :
    ¬ v.Targets root s := by
  intro h
  cases h <;> simp_all [Kind.isFunction, Kind.isClass, Kind.isImport]

namespace Frame

variable {values : List Value} (p : Node) (hp : p.kind? = some .program)
  (hc : p.children .program = values) {t : Tree} (ht : t.root = p.toValue) (hfresh : t.Fresh)
  (hf : (buildScopes t.tables t.root).2 = none)

theorem isTarget_ofProgram_iff :
    p.IsTarget p ↔ ∃ u ∈ (visitsOf values).visits, ∃ s ∈ (ofProgram p hp hc).chain,
      (u.below (ofProgram p hp hc).chain).Targets p s := by
  rw [Node.IsTarget, show p.entered = _ from (ofProgram p hp hc).entered_eq]
  constructor
  · rintro ⟨v, hv, htargets⟩
    rcases List.mem_append.mp hv with hv | hv
    · rw [List.mem_singleton.mp hv] at htargets
      exact absurd htargets (Visit.not_targets_of_program rfl)
    · obtain ⟨u, hu, rfl⟩ := List.mem_map.mp hv
      exact ⟨u, hu, p, List.mem_singleton.mpr rfl, htargets⟩
  · rintro ⟨u, hu, s, hs, htargets⟩
    obtain rfl := List.mem_singleton.mp hs
    exact ⟨_, List.mem_append_right _ (List.mem_map_of_mem hu), htargets⟩

theorem declaredOutside_ofProgram_iff {x : Name} :
    (ofProgram p hp hc).DeclaredOutside x ↔ p.Declared p x := by
  simp [DeclaredOutside, ofProgram]

include ht hfresh hf

/-- The table of a program has what its statements declare at the top. -/
theorem exists_hasRootTable (name : Text) :
    ∃ table, (t.analyze name).tree.HasRootTable table ∧
      (table = none ↔ ¬ ∃ u ∈ (visitsOf values).visits, ∃ s ∈ (ofProgram p hp hc).chain,
        (u.below (ofProgram p hp hc).chain).Targets p s) ∧
      ∀ x, x ∈ table.getD ∅ ↔ (ofProgram p hp hc).DeclaredOutside x := by
  simp only [declaredOutside_ofProgram_iff, ← isTarget_ofProgram_iff]
  have hl := hfresh.wellLabelled
  unfold Tree.WellLabelled at hl
  have htables := Tree.analyze_tables name (Tree.isProgram_iff.mpr ⟨p, ht, hp⟩)
  rw [ht] at hl hf htables
  by_cases h : p.IsTarget p
  · obtain ⟨set, hslot, hset⟩ := slot?_buildScopes_of_isTarget hl hf h
    refine ⟨some set, ⟨p, (t.analyze_root name).trans ht, ?_⟩, by simp [h], hset⟩
    rw [htables, hslot]
    rfl
  · refine ⟨none, ⟨p, (t.analyze_root name).trans ht, ?_⟩, by simp [h], fun x => ?_⟩
    · rw [htables, slot?_buildScopes_of_not_isTarget hl hf (Value.mem_nodes_toValue p) h]
      exact hfresh.noTables p.label
    · simp only [Option.getD_none, NameSet.not_mem_empty, false_iff]
      exact fun hd => h hd.isTarget

end Frame

/-! ### Concatenation -/

namespace Frame

variable {values mine others : List Value} {F : Frame values} {F₁ : Frame mine} {F₂ : Frame others}

open scoped Classical in
/-- What one of two pieces reports, without what the other declares at the top. -/
theorem map_node_joined (hj : Joined values mine others) (hreceiver : F.hasReceiver = F₁.hasReceiver)
    {names : NameSet} (hnames : ∀ x, x ∈ names ↔ F₂.DeclaredOutside x) {refs₁ : List Reference}
    (hrefs : refs₁ = ((visitsOf mine).visits.filter fun v => (v.below F₁.chain).IsFree F₁.root).map
      fun v => (v.below F₁.chain).toReference) :
    (((visitsOf mine).visits.filter fun v => (v.below F.chain).IsFree F.root).map
      fun v => (v.below F.chain).toReference).map Reference.node =
      (refs₁.filter fun r => !r.isNamedIn names).map Reference.node := by
  have hfilter : (visitsOf mine).visits.filter (fun v => (v.below F.chain).IsFree F.root) =
      (visitsOf mine).visits.filter fun v =>
        (!(v.below F₁.chain).toReference.isNamedIn names) && decide ((v.below F₁.chain).IsFree F₁.root) := by
    refine List.filter_congr fun v hv => ?_
    obtain ⟨w, -, hin⟩ := exists_enters_of_mem_visitsOf hv
    have hk := Node.kind?_of_enteredKind hin.enteredKind_eq
    rw [Bool.eq_iff_iff, decide_eq_true_iff, F.isFree_joined F₁ F₂ hj hreceiver hv, Bool.and_eq_true,
      decide_eq_true_iff, and_comm, Bool.not_eq_true', ← Bool.not_eq_true]
    refine and_congr_left fun hfree => not_congr ?_
    have hr : v.kind = .identifier ∨ v.kind = .thisExpression := hfree.imp And.left And.left
    simp only [← hnames]
    exact (Visit.isNamedIn_toReference_iff (v := v.below F₁.chain) hk hr).symm
  rw [hfilter, hrefs, List.filter_map, List.filter_filter, List.map_map, List.map_map]
  rfl

end Frame

/-- The statements of a program that is analysed, joined with others that are. -/
theorem joined_statements {p : Node} (hl : p.toValue.WellLabelled) {body₁ body₂ : List Value}
    (hp : p.HasBody .program (body₁ ++ body₂)) (hf : (visitsOf (statements body₁)).fault = none) :
    Joined (statements (body₁ ++ body₂)) (statements body₁) (statements body₂) where
  mem_visits v := by
    rw [statements_append, visitsOf_append, Trace.append_of_fault_eq_none _ hf]
    exact List.mem_append
  apart := by
    have hnodup := hl.nodup_flatMap_children .program
    rw [hp.children rfl rfl, statements_append, List.flatMap_append, List.map_append] at hnodup
    intro w hw w' hw' n hn hn'
    refine (List.nodup_append.mp hnodup).2.2 n.label ?_ n.label ?_ rfl
    · exact List.mem_map_of_mem (List.mem_flatMap.mpr ⟨w, hw, hn⟩)
    · exact List.mem_map_of_mem (List.mem_flatMap.mpr ⟨w', hw', hn'⟩)

/-- **Concatenation law.** Let the analysis succeed on two programs, and let the statements of the second
follow those of the first in a third. Then tables can be built for the third and its references be found. Its
own table has the names of both tables, and it has none if they have none. Its references are those of the
first but for the names in the table of the second, and then those of the second but for the names in the
table of the first. Its analysis succeeds if the names of these references are of one sort. -/
theorem concatenated_reports {t₁ t₂ t : Tree} {body₁ body₂ : List Value} (hbody₁ : t₁.IsProgramOf body₁)
    (hbody₂ : t₂.IsProgramOf body₂) (hbody : t.IsProgramOf (body₁ ++ body₂)) (hfresh₁ : t₁.Fresh)
    (hfresh₂ : t₂.Fresh) (hfresh : t.Fresh) {name : Text} {found₁ found₂ : List Group}
    (h₁ : (t₁.analyze name).result = .ok found₁) (h₂ : (t₂.analyze name).result = .ok found₂) :
    ∃ (table₁ table₂ table : Option NameSet) (refs₁ refs₂ refs : List Reference),
      (t₁.analyze name).tree.HasRootTable table₁ ∧ t₁.Reports refs₁ ∧
      (t₂.analyze name).tree.HasRootTable table₂ ∧ t₂.Reports refs₂ ∧
      (t.analyze name).tree.HasRootTable table ∧
      (buildScopes t.tables t.root).2 = none ∧
      references (buildScopes t.tables t.root).1.tables t.root = .ok refs ∧
      (table = none ↔ table₁ = none ∧ table₂ = none) ∧
      (∀ x, x ∈ table.getD ∅ ↔ x ∈ table₁.getD ∅ ∨ x ∈ table₂.getD ∅) ∧
      refs.map Reference.node =
        (refs₁.filter fun r => !r.isNamedIn (table₂.getD ∅)).map Reference.node ++
          (refs₂.filter fun r => !r.isNamedIn (table₁.getD ∅)).map Reference.node ∧
      (t.Reports refs ↔ ∃ sort, ∀ r ∈ refs, ∃ x, r.name = .ok x ∧ x.sort = sort) := by
  classical
  obtain ⟨p₁, hroot₁, hp₁⟩ := hbody₁
  obtain ⟨p₂, hroot₂, hp₂⟩ := hbody₂
  obtain ⟨p, hroot, hp⟩ := hbody
  let F₁ : Frame (statements body₁) := .ofProgram p₁ hp₁.1 (hp₁.children rfl rfl)
  let F₂ : Frame (statements body₂) := .ofProgram p₂ hp₂.1 (hp₂.children rfl rfl)
  let F : Frame (statements (body₁ ++ body₂)) := .ofProgram p hp.1 (hp.children rfl rfl)
  have hreceiver₁ : F.hasReceiver = F₁.hasReceiver := by simp only [F, F₁, Frame.hasReceiver_ofProgram]
  have hreceiver₂ : F.hasReceiver = F₂.hasReceiver := by simp only [F, F₂, Frame.hasReceiver_ofProgram]
  obtain ⟨hprogram₁, hf₁, refs₁, hrefs₁, hgroups₁⟩ := Tree.analyze_result_eq_ok_iff.mp h₁
  obtain ⟨hprogram₂, hf₂, refs₂, hrefs₂, hgroups₂⟩ := Tree.analyze_result_eq_ok_iff.mp h₂
  -- Both pieces can be walked through and read, and so can the two together.
  have hfault₁ := (F₁.buildScopes_fault_eq_none_iff.mp (hroot₁ ▸ hf₁)).1
  have hfault₂ := (F₂.buildScopes_fault_eq_none_iff.mp (hroot₂ ▸ hf₂)).1
  have hj := joined_statements (hroot ▸ hfresh.wellLabelled) hp hfault₁
  have happend : visitsOf (statements (body₁ ++ body₂)) =
      visitsOf (statements body₁) ++ visitsOf (statements body₂) := by
    rw [statements_append, visitsOf_append]
  have hfault : (visitsOf (statements (body₁ ++ body₂))).fault = none :=
    happend ▸ Trace.append_fault_eq_none_iff.mpr ⟨hfault₁, hfault₂⟩
  have hf := F.buildScopes_joined F₁ F₂ hj hroot₁ hroot₂ hroot hfault hf₁ hf₂
  obtain ⟨refs, hrefs⟩ := F.exists_references_joined F₁ F₂ hj hroot₁ hroot₂ hroot hfault
    (hfresh₁.holdSets hf₁) (hfresh₂.holdSets hf₂) (hfresh.holdSets hf) ⟨refs₁, hrefs₁⟩ ⟨refs₂, hrefs₂⟩
  obtain ⟨table₁, htable₁, hnone₁, hmem₁⟩ := Frame.exists_hasRootTable p₁ hp₁.1 (hp₁.children rfl rfl) hroot₁
    hfresh₁ hf₁ name
  obtain ⟨table₂, htable₂, hnone₂, hmem₂⟩ := Frame.exists_hasRootTable p₂ hp₂.1 (hp₂.children rfl rfl) hroot₂
    hfresh₂ hf₂ name
  obtain ⟨table, htable, hnone, hmem⟩ := Frame.exists_hasRootTable p hp.1 (hp.children rfl rfl) hroot hfresh hf
    name
  refine ⟨table₁, table₂, table, refs₁, refs₂, refs, htable₁, ?_, htable₂, ?_, htable, hf, hrefs, ?_, ?_, ?_,
    ?_⟩
  · exact Tree.reports_iff.mpr ⟨hprogram₁, hf₁, hrefs₁, found₁, hgroups₁⟩
  · exact Tree.reports_iff.mpr ⟨hprogram₂, hf₂, hrefs₂, found₂, hgroups₂⟩
  · rw [hnone, hnone₁, hnone₂, ← not_or, not_iff_not]
    exact F.targets_joined F₁ F₂ hj
  · intro x
    rw [hmem, hmem₁, hmem₂]
    exact F.declaredOutside_joined F₁ F₂ hj
  · rw [F.references_eq hroot hfresh hf hrefs, happend, Trace.append_of_fault_eq_none _ hfault₁,
      List.filter_append, List.map_append, List.map_append,
      Frame.map_node_joined hj hreceiver₁ hmem₂ (F₁.references_eq hroot₁ hfresh₁ hf₁ hrefs₁),
      Frame.map_node_joined hj.symm hreceiver₂ hmem₁ (F₂.references_eq hroot₂ hfresh₂ hf₂ hrefs₂)]
  · rw [Tree.reports_iff, ← exists_groups_iff]
    simp only [Tree.isProgram_iff.mpr ⟨p, hroot, hp.1⟩, hf, hrefs, true_and]

/-- The statements `var a; b; c`. -/
def firstPiece : List Value :=
  [declaringStatement 1 "var" "a", namedStatement 4 (.text "b"), namedStatement 6 (.text "c")]

/-- The statements `let b; a; d`. -/
def secondPiece : List Value :=
  [declaringStatement 8 "let" "b", namedStatement 11 (.text "a"), namedStatement 13 (.text "d")]

theorem concatenated_reports_pieces :
    (Tree.programOf firstPiece).IsProgramOf firstPiece ∧ (Tree.programOf secondPiece).IsProgramOf secondPiece ∧
      (Tree.programOf (firstPiece ++ secondPiece)).IsProgramOf (firstPiece ++ secondPiece) ∧
      (Tree.programOf firstPiece).Fresh ∧ (Tree.programOf secondPiece).Fresh ∧
      (Tree.programOf (firstPiece ++ secondPiece)).Fresh ∧
      ((Tree.programOf firstPiece).analyze "s").result.toOption.map (List.map Group.name) =
        some [.text "b", .text "c"] ∧
      ((Tree.programOf secondPiece).analyze "s").result.toOption.map (List.map Group.name) =
        some [.text "a", .text "d"] ∧
      ((Tree.programOf (firstPiece ++ secondPiece)).analyze "s").result.toOption.map (List.map Group.name) =
        some [.text "c", .text "d"] ∧
      ∃ (table₁ table₂ : Option NameSet) (refs₁ refs₂ refs : List Reference),
        (Tree.programOf firstPiece).Reports refs₁ ∧ (Tree.programOf secondPiece).Reports refs₂ ∧
        ((Tree.programOf firstPiece).analyze "s").tree.HasRootTable table₁ ∧
        ((Tree.programOf secondPiece).analyze "s").tree.HasRootTable table₂ ∧
        (Tree.programOf (firstPiece ++ secondPiece)).Reports refs ∧
        refs.map Reference.node =
          (refs₁.filter fun r => !r.isNamedIn (table₂.getD ∅)).map Reference.node ++
            (refs₂.filter fun r => !r.isNamedIn (table₁.getD ∅)).map Reference.node := by
  have hprogram : ∀ body, (Tree.programOf body).IsProgramOf body :=
    fun body => ⟨_, rfl, Node.kind?_eq_some_iff.mpr rfl, rfl⟩
  have hfresh : ∀ body, (Tree.programOf body).root.labels.Nodup → (Tree.programOf body).Fresh :=
    fun body h => ⟨h, fun _ => rfl⟩
  have hfresh₁ := hfresh firstPiece (by decide +kernel)
  have hfresh₂ := hfresh secondPiece (by decide +kernel)
  have hfresh₃ := hfresh (firstPiece ++ secondPiece) (by decide +kernel)
  have hnames₁ : ((Tree.programOf firstPiece).analyze "s").result.toOption.map (List.map Group.name) =
      some [.text "b", .text "c"] := by decide +kernel
  have hnames₂ : ((Tree.programOf secondPiece).analyze "s").result.toOption.map (List.map Group.name) =
      some [.text "a", .text "d"] := by decide +kernel
  have hnames₃ : ((Tree.programOf (firstPiece ++ secondPiece)).analyze "s").result.toOption.map
      (List.map Group.name) = some [.text "c", .text "d"] := by decide +kernel
  obtain ⟨found₁, hfound₁, -⟩ := Option.map_eq_some_iff.mp hnames₁
  obtain ⟨found₂, hfound₂, -⟩ := Option.map_eq_some_iff.mp hnames₂
  obtain ⟨found₃, hfound₃, -⟩ := Option.map_eq_some_iff.mp hnames₃
  obtain ⟨table₁, table₂, -, refs₁, refs₂, refs, htable₁, hreports₁, htable₂, hreports₂, -, hf, hrefs, -, -,
    hnodes, -⟩ := concatenated_reports (hprogram firstPiece) (hprogram secondPiece) (hprogram _) hfresh₁ hfresh₂
      hfresh₃ (eq_ok_of_toOption hfound₁) (eq_ok_of_toOption hfound₂)
  obtain ⟨hp, -, refs', hrefs', hgroups⟩ := Tree.analyze_result_eq_ok_iff.mp (eq_ok_of_toOption hfound₃)
  obtain rfl := Except.ok.inj (hrefs.symm.trans hrefs')
  exact ⟨hprogram _, hprogram _, hprogram _, hfresh₁, hfresh₂, hfresh₃, hnames₁, hnames₂, hnames₃, table₁,
    table₂, refs₁, refs₂, refs, hreports₁, hreports₂, htable₁, htable₂,
    Tree.reports_iff.mpr ⟨hp, hf, hrefs, found₃, hgroups⟩, hnodes⟩

/-- The statements `x; 1`, where the number stands in the place of a name. -/
def mixedPiece : List Value := [namedStatement 1 (.text "x"), namedStatement 3 (.int 1)]

/-- Names of two sorts have no order. Two programs that report names of one sort each can be analysed, and
their statements in one program cannot. -/
theorem mixed_concatenation_fails :
    ((Tree.programOf [namedStatement 1 (.text "x")]).analyze "s").result.toOption.map (List.map Group.name) =
        some [.text "x"] ∧
      ((Tree.programOf [namedStatement 3 (.int 1)]).analyze "s").result.toOption.map (List.map Group.name) =
        some [.int 1] ∧
      (buildScopes .empty (Tree.programOf mixedPiece).root).2.isNone ∧
      ((Tree.programOf mixedPiece).analyze "s").result.toOption.isNone := by
  decide +kernel

end FreeNames
