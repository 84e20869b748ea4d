import FreeNames.Proofs.FreeReferences
import FreeNames.Proofs.Grouping
import FreeNames.Proofs.NodeKind

/-!
# Tables from before

A tree can come with tables that an earlier build has left on its nodes. A build makes new tables for
its targets. A node that is no target keeps its old table, and this *leftover* binds names just as any
other table does. So an analysis comes to the same as one of the tree without tables if and only if no
node that it enters has a leftover, or both fail. Where they differ, leftovers hide references and do
nothing else.
-/

namespace FreeNames

/-- What stands in the slots are tables. -/
def Tables.HoldSets (t : Tables) : Prop := ∀ label slot, t.slot? label = some slot → ∃ set, slot = .names set

theorem Tables.holdSets_empty : Tables.empty.HoldSets := by
  intro label slot h
  cases h

/-! ### Tables that are sets always answer -/

namespace Visit

variable {tables : Tables} {v : Visit}

/-- The nodes around the visit can be asked for any name. -/
def Answered (tables : Tables) (v : Visit) : Prop := ∀ m ∈ v.around, ∀ x, ∃ b, tables.binds m.label x = .ok b

theorem exists_boundAround {x : Name} {around : List Node}
    (h : ∀ m ∈ around, ∃ b, tables.binds m.label x = .ok b) : ∃ b, boundAround tables x around = .ok b := by
  induction around with
  | nil => exact ⟨false, rfl⟩
  | cons scope outer ih =>
    obtain ⟨b, hb⟩ := h scope List.mem_cons_self
    obtain ⟨c, hc⟩ := ih fun m hm => h m (List.mem_cons_of_mem _ hm)
    unfold boundAround
    split
    · exact ⟨true, rfl⟩
    · cases b with
      | true => exact ⟨true, by simp [hb, bind, Except.bind, pure, Except.pure]⟩
      | false => exact ⟨c, by simp [hb, hc, bind, Except.bind]⟩

/-- Why an identifier has no name, if it has none. -/
def nameFault? (v : Visit) : Option Fault :=
  match v.kind, v.node.require "name" >>= Value.asName with
  | .identifier, .error fault => some fault
  | _, _ => none

theorem nameFault?_of_kind_ne (h : v.kind ≠ .identifier) : v.nameFault? = none := by
  unfold nameFault?
  split
  · rename_i hk _
    exact absurd hk h
  · rfl

/-- Where the tables answer, only an identifier without a name is a failure. -/
theorem reference?_eq_error_iff (h : v.Answered tables) {fault : Fault} :
    v.reference? tables = .error fault ↔ v.nameFault? = some fault := by
  unfold reference?
  split
  · rename_i hk
    cases hname : v.node.require "name" >>= Value.asName with
    | error other =>
      have hfault : v.nameFault? = some other := by simp only [nameFault?, hk, hname]
      simp [hfault, bind, Except.bind]
    | ok x =>
      have hfault : v.nameFault? = none := by simp only [nameFault?, hk, hname]
      obtain ⟨b, hb⟩ : ∃ b, v.binds tables x = .ok b := by
        unfold binds
        split
        · exact ⟨true, rfl⟩
        · exact exists_boundAround fun m hm => h m hm x
      cases b <;> simp [hfault, hb, bind, Except.bind, pure, Except.pure]
  · rename_i hk
    rw [nameFault?_of_kind_ne (by rw [hk]; decide)]
    simp [pure, Except.pure]
  · rename_i hi _
    rw [nameFault?_of_kind_ne hi]
    simp [pure, Except.pure]

end Visit

/-- Where the tables answer, the search for references stops at the first identifier without a name. -/
theorem referencesOf_eq_error_iff {tables : Tables} {vs : List Visit} {fault : Fault} :
    (∀ v ∈ vs, v.Answered tables) →
      (referencesOf tables vs = .error fault ↔ vs.findSome? Visit.nameFault? = some fault) := by
  induction vs with
  | nil =>
    intro _
    simp [referencesOf]
  | cons v rest ih =>
    intro h
    have hv : ∀ {other : Fault}, v.reference? tables = .error other ↔ v.nameFault? = some other :=
      Visit.reference?_eq_error_iff (h v List.mem_cons_self)
    have hrest := ih fun w hw => h w (List.mem_cons_of_mem _ hw)
    rw [List.findSome?_cons]
    unfold referencesOf
    cases hr : v.reference? tables with
    | error other => simp [bind, Except.bind, hv.mp hr]
    | ok first =>
      have hnone : v.nameFault? = none := by
        cases hn : v.nameFault? with
        | none => rfl
        | some other => cases hr.symm.trans (hv.mpr hn)
      rw [hnone, ← hrest]
      cases referencesOf tables rest <;> simp [bind, Except.bind, pure, Except.pure]

/-- The search for references asks the slots of the nodes around. -/
theorem referencesOf_congr {tables others : Tables} {vs : List Visit} :
    (∀ v ∈ vs, ∀ m ∈ v.around, tables.slot? m.label = others.slot? m.label) →
      referencesOf tables vs = referencesOf others vs := by
  have hbound : ∀ {x : Name} {around : List Node},
      (∀ m ∈ around, tables.slot? m.label = others.slot? m.label) →
        Visit.boundAround tables x around = Visit.boundAround others x around := by
    intro x around
    induction around with
    | nil =>
      intro _
      rfl
    | cons scope outer ih =>
      intro h
      have hscope : tables.binds scope.label x = others.binds scope.label x := by
        rw [Tables.binds, h scope List.mem_cons_self, Tables.binds]
      unfold Visit.boundAround
      rw [hscope, ih fun m hm => h m (List.mem_cons_of_mem _ hm)]
  induction vs with
  | nil =>
    intro _
    rfl
  | cons v rest ih =>
    intro h
    have hv : v.reference? tables = v.reference? others := by
      unfold Visit.reference? Visit.binds
      simp only [hbound (h v List.mem_cons_self)]
    unfold referencesOf
    rw [hv, ih fun w hw => h w (List.mem_cons_of_mem _ hw)]

theorem references_congr {tables others : Tables} {n : Node}
    (h : ∀ v ∈ n.entered, ∀ m ∈ v.around, tables.slot? m.label = others.slot? m.label) :
    references tables n.toValue = references others n.toValue := by
  have hwalk : walk n.toValue = visits n.toValue [] := walk_eq_visits rfl
  have hsame := referencesOf_congr h
  rw [Node.entered] at hsame
  rw [references, references, hwalk, hsame]

/-- What the tables do not bind has a name. -/
theorem Visit.IsUnbound.exists_name {tables : Tables} {n : Node} {v : Visit} (h : v.IsUnbound tables)
    (hv : v ∈ n.entered) : ∃ x, v.toReference.name = .ok x := by
  unfold Reference.name
  split
  · exact ⟨_, rfl⟩
  · rename_i hthis
    rcases h with ⟨-, x, hx, -⟩ | ⟨hk, -⟩
    · exact ⟨x, Node.name_eq_ok_iff.mpr hx⟩
    · have hkind := Node.kind?_of_enteredKind (enters_of_mem_visits hv).enteredKind_eq
      rw [hk, Node.kind?_eq_some_iff] at hkind
      simp [Reference.isThis, toReference, hkind, Value.isText] at hthis

/-! ### Building on different tables -/

section

variable {tables : Tables} {n m : Node} (hl : n.toValue.WellLabelled)
  (hf : (buildScopes tables n.toValue).2 = none)
include hf

/-- Where a build succeeds does not depend on the tables it starts from. -/
theorem buildScopes_fault_congr (others : Tables) : (buildScopes others n.toValue).2 = none := by
  rw [buildScopes_fault] at hf ⊢
  exact hf

/-- The table of a target does not depend on the tables before. -/
theorem slot?_buildScopes_congr (others : Tables) (h : n.IsTarget m) :
    (buildScopes tables n.toValue).1.tables.slot? m.label =
      (buildScopes others n.toValue).1.tables.slot? m.label := by
  obtain ⟨n', hn, -, hclean⟩ := exists_node_of_build hf
  obtain rfl := Node.toValue_injective hn
  have hc := (create_mem_declarations_iff hclean).mpr ⟨m, h, rfl⟩
  rw [slot?_buildScopes_of_create hf hc, slot?_buildScopes_of_create (buildScopes_fault_congr hf others) hc]

include hl

theorem answered_buildScopes (hs : tables.HoldSets) {v : Visit} (hv : v ∈ n.entered) :
    v.Answered (buildScopes tables n.toValue).1.tables := by
  intro m hm x
  by_cases ht : n.IsTarget m
  · obtain ⟨set, hslot, -⟩ := slot?_buildScopes_of_isTarget hl hf ht
    exact ⟨_, Tables.binds_of_slot?_eq_names hslot⟩
  · rw [binds_buildScopes_of_not_isTarget hl hf (Node.mem_nodes_of_mem_around hv hm) ht]
    cases hslot : tables.slot? m.label with
    | none => exact ⟨_, Tables.binds_of_slot?_eq_none hslot⟩
    | some slot =>
      obtain ⟨set, rfl⟩ := hs _ _ hslot
      exact ⟨_, Tables.binds_of_slot?_eq_names hslot⟩

end

/-! ### Leftovers -/

namespace Tree

/-- The tree without tables. -/
def cleared (t : Tree) : Tree := { t with tables := .empty }

/-- A node that a walk of the tree enters has a table, and no declaration gives it a new one. -/
def HasLeftover (t : Tree) (root : Node) : Prop :=
  ∃ v ∈ root.entered, ¬ root.IsTarget v.node ∧ ∃ slot, t.tables.slot? v.node.label = some slot

/-- The name of a reference stands in a leftover around it. -/
def Hides (t : Tree) (root : Node) (r : Reference) : Prop :=
  r.node.kind? = some .identifier ∧ ∃ x, r.node.Named x ∧ ∃ m ∈ r.around, ¬ root.IsTarget m ∧
    ∃ set, t.tables.slot? m.label = some (.names set) ∧ x ∈ set

end Tree

namespace Analyzed

/-- The analysis fails. -/
def Fails (a : Analyzed) : Prop := ∃ fault, a.result = .error fault

/-- Two analyses of the tree below `root` come to the same: the same findings or the same fault, and
after a success the same table on each node that is entered. -/
def Agrees (root : Node) (a b : Analyzed) : Prop :=
  a.result = b.result ∧ ∀ found, a.result = .ok found → ∀ v ∈ root.entered,
    a.tree.tables.slot? v.node.label = b.tree.tables.slot? v.node.label

end Analyzed

section

variable {t : Tree} {n : Node} (hl : n.toValue.WellLabelled)
  (hf : (buildScopes t.tables n.toValue).2 = none)
include hl hf

/-- Without leftovers it makes no difference on which tables a build starts. -/
theorem slot?_buildScopes_of_not_hasLeftover (h : ¬ t.HasLeftover n) {v : Visit} (hv : v ∈ n.entered) :
    (buildScopes t.tables n.toValue).1.tables.slot? v.node.label =
      (buildScopes .empty n.toValue).1.tables.slot? v.node.label := by
  have hin := (enters_of_mem_visits hv).mem_nodes
  by_cases ht : n.IsTarget v.node
  · exact slot?_buildScopes_congr hf .empty ht
  · rw [slot?_buildScopes_of_not_isTarget hl hf hin ht,
      slot?_buildScopes_of_not_isTarget hl (buildScopes_fault_congr hf .empty) hin ht, Tables.slot?_empty]
    cases hslot : t.tables.slot? v.node.label with
    | none => rfl
    | some slot => exact absurd ⟨v, hv, ht, slot, hslot⟩ h

theorem references_of_not_hasLeftover (h : ¬ t.HasLeftover n) :
    references (buildScopes t.tables n.toValue).1.tables n.toValue =
      references (buildScopes .empty n.toValue).1.tables n.toValue := by
  obtain ⟨n', hn, hfault, -⟩ := exists_node_of_build hf
  obtain rfl := Node.toValue_injective hn
  refine references_congr fun v hv m hm => ?_
  -- The nodes around a visit are entered themselves.
  rcases (enters_of_mem_visits hv).exists_of_mem_around hm with hm | ⟨y, hy, rfl⟩
  · exact absurd hm List.not_mem_nil
  · exact slot?_buildScopes_of_not_hasLeftover hl hf h (mem_visits_of_enters hy hfault)

/-- A leftover binds its names in addition to what the declarations bind. -/
theorem binds_buildScopes_iff (hs : t.tables.HoldSets) {m : Node} (hm : m ∈ n.toValue.nodes) {x : Name} :
    (buildScopes t.tables n.toValue).1.tables.binds m.label x = .ok false ↔
      (buildScopes .empty n.toValue).1.tables.binds m.label x = .ok false ∧
        ¬ (¬ n.IsTarget m ∧ ∃ set, t.tables.slot? m.label = some (.names set) ∧ x ∈ set) := by
  have hf' := buildScopes_fault_congr hf .empty
  by_cases ht : n.IsTarget m
  · rw [Tables.binds, slot?_buildScopes_congr hf .empty ht, ← Tables.binds]
    exact ⟨fun h => ⟨h, fun hx => hx.1 ht⟩, fun h => h.1⟩
  · rw [binds_buildScopes_of_not_isTarget hl hf hm ht, binds_buildScopes_of_not_isTarget hl hf' hm ht,
      Tables.binds_of_slot?_eq_none (Tables.slot?_empty m.label)]
    cases hslot : t.tables.slot? m.label with
    | none => simp [Tables.binds_of_slot?_eq_none hslot]
    | some slot =>
      obtain ⟨set, rfl⟩ := hs _ _ hslot
      simp [Tables.binds_of_slot?_eq_names hslot, ht]

/-- Of what is unbound without tables, leftovers hide some. -/
theorem isUnbound_buildScopes_iff (hs : t.tables.HoldSets) {v : Visit} (hv : v ∈ n.entered) :
    v.IsUnbound (buildScopes t.tables n.toValue).1.tables ↔
      v.IsUnbound (buildScopes .empty n.toValue).1.tables ∧ ¬ t.Hides n v.toReference := by
  have hkind := Node.kind?_of_enteredKind (enters_of_mem_visits hv).enteredKind_eq
  have hbinds : ∀ x, ∀ m ∈ v.around, _ := fun x m hm =>
    binds_buildScopes_iff hl hf hs (Node.mem_nodes_of_mem_around hv hm) (x := x)
  constructor
  · rintro (⟨hk, x, hx, hundefined, harguments, hall⟩ | ⟨hk, hthis⟩)
    · refine ⟨.inl ⟨hk, x, hx, hundefined, harguments, fun m hm => ((hbinds x m hm).mp (hall m hm)).1⟩, ?_⟩
      rintro ⟨-, y, hy, m, hm, hleft⟩
      obtain rfl := hx.eq hy
      exact ((hbinds x m hm).mp (hall m hm)).2 hleft
    · refine ⟨.inr ⟨hk, hthis⟩, fun hhides => ?_⟩
      have := hkind.symm.trans hhides.1
      rw [hk] at this
      cases this
  · rintro ⟨⟨hk, x, hx, hundefined, harguments, hall⟩ | ⟨hk, hthis⟩, hhides⟩
    · refine .inl ⟨hk, x, hx, hundefined, harguments, fun m hm => (hbinds x m hm).mpr ⟨hall m hm, ?_⟩⟩
      exact fun hleft => hhides ⟨hk ▸ hkind, x, hx, m, hm, hleft⟩
    · exact .inr ⟨hk, hthis⟩

/-- With and without tables from before, the search for references fails in the same way. -/
theorem references_eq_error_iff (hs : t.tables.HoldSets) {fault : Fault} :
    references (buildScopes t.tables n.toValue).1.tables n.toValue = .error fault ↔
      references (buildScopes .empty n.toValue).1.tables n.toValue = .error fault := by
  obtain ⟨n', hn, hwalk, -⟩ := exists_node_of_build hf
  obtain rfl := Node.toValue_injective hn
  have herror : ∀ {tables : Tables}, references tables n.toValue = .error fault ↔
      referencesOf tables n.entered = .error fault := by
    intro tables
    rw [references, walk_eq_visits rfl, hwalk, Node.entered]
    cases referencesOf tables (visits n.toValue []).visits <;> simp
  rw [herror, herror, referencesOf_eq_error_iff fun v hv => answered_buildScopes hl hf hs hv,
    referencesOf_eq_error_iff fun v hv =>
      answered_buildScopes hl (buildScopes_fault_congr hf .empty) Tables.holdSets_empty hv]

open scoped Classical in
/-- Leftovers hide references, and do nothing else to what is found. -/
theorem references_eq_filter (hs : t.tables.HoldSets) {refs : List Reference}
    (h : references (buildScopes .empty n.toValue).1.tables n.toValue = .ok refs) :
    references (buildScopes t.tables n.toValue).1.tables n.toValue =
      .ok (refs.filter fun r => ¬ t.Hides n r) := by
  cases hr : references (buildScopes t.tables n.toValue).1.tables n.toValue with
  | error fault => cases h.symm.trans ((references_eq_error_iff hl hf hs).mp hr)
  | ok found =>
    rw [referencesOf_eq_ok (references_eq_ok_iff.mp hr).1, referencesOf_eq_ok (references_eq_ok_iff.mp h).1,
      List.filter_map, List.filter_filter]
    congr 2
    refine List.filter_congr fun v hv => ?_
    simp [isUnbound_buildScopes_iff hl hf hs hv, Bool.and_comm]

end

/-- References that were found have names, so that only the order of these can be missing. -/
theorem eq_wrongSort_of_references {tables : Tables} {n : Node} {refs : List Reference}
    (h : references tables n.toValue = .ok refs) {fault : Fault} (hg : groups refs = .error fault) :
    fault = .wrongSort := by
  refine eq_wrongSort_of_groups (fun r hr => ?_) hg
  obtain ⟨v, hv, hun, rfl⟩ := (mem_of_referencesOf (references_eq_ok_iff.mp h).1).mp hr
  exact hun.exists_name hv

/-- Two failures have the same cause. -/
theorem Tree.analyze_result_eq_of_fails {t : Tree} {n : Node} {name : Text} (hn : t.root = n.toValue)
    (hl : t.WellLabelled) (hs : t.tables.HoldSets) (h : (t.analyze name).Fails)
    (h' : (t.cleared.analyze name).Fails) : (t.analyze name).result = (t.cleared.analyze name).result := by
  obtain ⟨fault, h⟩ := h
  obtain ⟨fault', h'⟩ := h'
  rw [h, h']
  unfold Tree.WellLabelled at hl
  cases hp : t.isProgram with
  | false =>
    rw [analyze_result_of_not_isProgram name hp] at h
    rw [analyze_result_of_not_isProgram name (t := t.cleared) hp] at h'
    exact h.symm.trans h'
  | true =>
    rw [analyze_result_of_isProgram name hp] at h
    rw [analyze_result_of_isProgram name (t := t.cleared) hp] at h'
    simp only [cleared, hn] at h h' hl
    have hsame : (buildScopes .empty n.toValue).2 = (buildScopes t.tables n.toValue).2 := by
      rw [buildScopes_fault, buildScopes_fault]
    rw [hsame] at h'
    cases hf : (buildScopes t.tables n.toValue).2 with
    | some other =>
      rw [hf] at h h'
      exact h.symm.trans h'
    | none =>
      rw [hf] at h h'
      cases hr : references (buildScopes t.tables n.toValue).1.tables n.toValue with
      | error other =>
        have hr' := (references_eq_error_iff hl hf hs).mp hr
        simp only [hr, hr', bind, Except.bind] at h h'
        exact h.symm.trans h'
      | ok refs =>
        cases hr' : references (buildScopes .empty n.toValue).1.tables n.toValue with
        | error other => cases hr.symm.trans ((references_eq_error_iff hl hf hs).mpr hr')
        | ok refs' =>
          simp only [hr, hr', bind, Except.bind] at h h'
          rw [eq_wrongSort_of_references hr h, eq_wrongSort_of_references hr' h']

/-- Without leftovers, tables from before make no difference. -/
theorem Tree.agrees_of_not_hasLeftover {t : Tree} {n : Node} (hn : t.root = n.toValue)
    (hl : t.WellLabelled) (name : Text) (h : ¬ t.HasLeftover n) :
    (t.analyze name).Agrees n (t.cleared.analyze name) := by
  have hln : n.toValue.WellLabelled := hn ▸ hl
  cases hp : t.isProgram with
  | false =>
    have hresult := analyze_result_of_not_isProgram name hp
    refine ⟨hresult.trans (analyze_result_of_not_isProgram name (t := t.cleared) hp).symm, ?_⟩
    intro found hfound
    cases hresult.symm.trans hfound
  | true =>
    have hfault : (buildScopes .empty n.toValue).2 = (buildScopes t.tables n.toValue).2 := by
      rw [buildScopes_fault, buildScopes_fault]
    constructor
    · rw [analyze_result_of_isProgram name hp, analyze_result_of_isProgram name (t := t.cleared) hp]
      simp only [cleared, hn, hfault]
      cases hf : (buildScopes t.tables n.toValue).2 with
      | some fault => rfl
      | none => exact congrArg (· >>= groups) (references_of_not_hasLeftover hln hf h)
    · intro found hfound v hv
      obtain ⟨-, hf, -⟩ := analyze_result_eq_ok_iff.mp hfound
      rw [analyze_tables name hp, analyze_tables name (t := t.cleared) hp]
      simp only [cleared, hn] at hf ⊢
      exact slot?_buildScopes_of_not_hasLeftover hln hf h hv

/-- A leftover stays on its node, so the tables after a success differ. -/
theorem Tree.not_hasLeftover_of_agrees {t : Tree} {n : Node} (hn : t.root = n.toValue)
    (hl : t.WellLabelled) {name : Text} (h : (t.analyze name).Agrees n (t.cleared.analyze name))
    {found : List Group} (hfound : (t.analyze name).result = .ok found) : ¬ t.HasLeftover n := by
  have hln : n.toValue.WellLabelled := hn ▸ hl
  rintro ⟨v, hv, ht, slot, hslot⟩
  obtain ⟨hp, hf, -⟩ := analyze_result_eq_ok_iff.mp hfound
  have hsame := h.2 found hfound v hv
  have hin := (enters_of_mem_visits hv).mem_nodes
  rw [analyze_tables name hp, analyze_tables name (t := t.cleared) hp] at hsame
  simp only [cleared, hn] at hf hsame
  rw [slot?_buildScopes_of_not_isTarget hln hf hin ht, hslot,
    slot?_buildScopes_of_not_isTarget hln (buildScopes_fault_congr hf .empty) hin ht,
    Tables.slot?_empty] at hsame
  cases hsame

section

open scoped Classical

/-- **When tables from before make no difference.** The analysis of a tree agrees with that of the same
tree without tables if and only if no node that is entered has a leftover, or both fail. What leftovers
change is that the references which they hide are not found. -/
theorem agrees_cleared_iff {t : Tree} {n : Node} (hn : t.root = n.toValue) (hl : t.WellLabelled)
    (hs : t.tables.HoldSets) (name : Text) :
    ((t.analyze name).Agrees n (t.cleared.analyze name) ↔
      ¬ t.HasLeftover n ∨ ((t.analyze name).Fails ∧ (t.cleared.analyze name).Fails)) ∧
    ∀ refs, (buildScopes .empty t.root).2 = none →
      references (buildScopes .empty t.root).1.tables t.root = .ok refs →
      references (buildScopes t.tables t.root).1.tables t.root =
        .ok (refs.filter fun r => ¬ t.Hides n r) := by
  refine ⟨⟨?_, ?_⟩, ?_⟩
  · intro h
    cases hresult : (t.analyze name).result with
    | ok found => exact .inl (Tree.not_hasLeftover_of_agrees hn hl h hresult)
    | error fault => exact .inr ⟨⟨fault, hresult⟩, fault, h.1.symm.trans hresult⟩
  · rintro (h | ⟨h, h'⟩)
    · exact Tree.agrees_of_not_hasLeftover hn hl name h
    · refine ⟨Tree.analyze_result_eq_of_fails hn hl hs h h', fun found hfound => ?_⟩
      obtain ⟨fault, hfault⟩ := h
      cases hfault.symm.trans hfound
  · intro refs hf hrefs
    rw [hn] at hf hrefs ⊢
    exact references_eq_filter (hn ▸ hl) (buildScopes_fault_congr hf t.tables) hs hrefs

theorem holdSets_staleProgram : staleProgram.tables.HoldSets := by
  intro label slot h
  have hslots : ∃ i j s t, staleProgram.tables.slots = [(i, .names s), (j, .names t)] := ⟨_, _, _, _, rfl⟩
  obtain ⟨i, j, s, t, hslots⟩ := hslots
  obtain ⟨before, after, hsplit, -⟩ := List.lookup_eq_some_iff.mp h
  have hmem : (label, slot) ∈ staleProgram.tables.slots := by
    rw [hsplit]
    exact List.mem_append_right _ List.mem_cons_self
  rw [hslots] at hmem
  rcases List.mem_cons.mp hmem with heq | hmem
  · exact ⟨s, (Prod.mk.inj heq).2⟩
  · exact ⟨t, (Prod.mk.inj (List.mem_singleton.mp hmem)).2⟩

theorem staleProgram_eq_toValue : ∃ n : Node, staleProgram.root = n.toValue := ⟨⟨_, _⟩, rfl⟩

theorem agrees_cleared_iff_staleProgram :
    ∃ n : Node, staleProgram.root = n.toValue ∧ staleProgram.WellLabelled ∧
      staleProgram.tables.HoldSets ∧
      ((staleProgram.analyze "s").Agrees n (staleProgram.cleared.analyze "s") ↔
        ¬ staleProgram.HasLeftover n ∨
          ((staleProgram.analyze "s").Fails ∧ (staleProgram.cleared.analyze "s").Fails)) ∧
      ∀ refs, (buildScopes .empty staleProgram.root).2 = none →
        references (buildScopes .empty staleProgram.root).1.tables staleProgram.root = .ok refs →
        references (buildScopes staleProgram.tables staleProgram.root).1.tables staleProgram.root =
          .ok (refs.filter fun r => ¬ staleProgram.Hides n r) := by
  obtain ⟨n, hn⟩ := staleProgram_eq_toValue
  have hl : staleProgram.WellLabelled := Tree.wellLabelled_ofValue _
  exact ⟨n, hn, hl, holdSets_staleProgram, agrees_cleared_iff hn hl holdSets_staleProgram "s"⟩

end

/-- The leftover on the block of `var a; { x }` hides the reference to `x`. -/
theorem staleProgram_not_agrees :
    ∃ n : Node, staleProgram.root = n.toValue ∧
      ¬ (staleProgram.analyze "s").Agrees n (staleProgram.cleared.analyze "s") := by
  obtain ⟨n, hn⟩ := staleProgram_eq_toValue
  refine ⟨n, hn, fun h => ?_⟩
  have hnames : (staleProgram.analyze "s").result.toOption.map (List.map Group.name) = some [] := by
    decide +kernel
  have hcleared : (staleProgram.cleared.analyze "s").result.toOption.map (List.map Group.name) =
      some [.text "x"] := by
    decide +kernel
  rw [h.1, hcleared] at hnames
  cases hnames

end FreeNames
