import FreeNames.Proofs.Repetition
import FreeNames.Proofs.Success

/-!
# A builder that is used again

The builder of a session remembers the nodes that it has given tables. When it builds again it adds to
these tables where a new builder would replace them. Both perform the same acts, so they stop at the same
failure, and they differ only in the tables of nodes that are remembered and declared into. There the
names from before stay. Tables with more names bind more, so fewer references are free.

A node that is remembered may have left the tree, with its table. No act of the tree is about it, so what
it is remembered for has no effect (`Building.run_congr`).
-/

namespace FreeNames

/-! ### What a builder knows -/

/-- What is known of nodes whose tables are not created has no influence. -/
theorem Building.run_congr {acts : List Act} : ∀ {b c : Building}, b.tables = c.tables →
    (∀ label, .create label ∈ Act.live acts → (label ∈ b.known ↔ label ∈ c.known)) →
      (b.run acts).1.tables = (c.run acts).1.tables ∧ (b.run acts).2 = (c.run acts).2 := by
  induction acts with
  | nil => exact fun ht _ => ⟨ht, rfl⟩
  | cons act rest ih =>
    intro b c ht hk
    have hrest : act.fault? = none →
        ∀ other, .create other ∈ Act.live rest → (other ∈ b.known ↔ other ∈ c.known) := by
      intro hf other h
      have hlive : Act.live (act :: rest) = act :: Act.live rest := by simp [Act.live, hf]
      apply hk
      rw [hlive]
      exact List.mem_cons_of_mem _ h
    cases act with
    | fail fault => exact ⟨ht, rfl⟩
    | note text => exact ih ht (hrest rfl)
    | create label =>
      have hlabel : label ∈ b.known ↔ label ∈ c.known := hk label List.mem_cons_self
      by_cases hb : label ∈ b.known
      · cases hslot : c.tables.slot? label with
        | none => simp [run, perform, create, hb, hlabel.mp hb, ht, hslot]
        | some slot =>
          simp only [run, perform, create, hb, hlabel.mp hb, ht, hslot, if_true]
          exact ih ht (hrest rfl)
      · simp only [run, perform, create, hb, mt hlabel.mpr hb, if_false]
        refine ih (by rw [ht]) fun other h => ?_
        simp [hrest rfl other h]
    | reach label =>
      have hreach : b.reach label = c.reach label := by simp [reach, ht]
      cases hset : c.reach label with
      | error fault => simp [run, perform, hreach, hset, Bind.bind, Except.bind, ht]
      | ok set =>
        simp only [run, perform, hreach, hset, Bind.bind, Except.bind, pure, Except.pure]
        exact ih ht (hrest rfl)
    | bind label name =>
      have hreach : b.reach label = c.reach label := by simp [reach, ht]
      cases hset : c.reach label with
      | error fault => simp [run, perform, bind, hreach, hset, Bind.bind, Except.bind, ht]
      | ok set =>
        simp only [run, perform, bind, hreach, hset, Bind.bind, Except.bind, pure, Except.pure]
        exact ih (by rw [ht]) (hrest rfl)

/-! ### Tables are created on nodes of the tree -/

namespace Visit

variable {root : Node} {v : Visit} {label : Nat}

theorem exists_nearest_of_create {accepts : Node → Bool} (h : .create label ∈ v.declareOwnName accepts) :
    ∃ scope, v.Nearest accepts scope ∧ label = scope.label := by
  obtain ⟨name, -, h⟩ := (Act.mem_after_iff rfl).mp h
  split at h
  · cases h
  · obtain ⟨scope, hs, h⟩ := (Act.mem_after_iff rfl).mp h
    exact ⟨scope, nearest_eq_ok_iff.mp hs, Node.create_mem_declare_iff.mp h⟩

/-- The acts of a visit create tables of nodes of the tree, also where they fail. -/
theorem exists_mem_nodes_of_create (hv : v ∈ root.entered) (h : .create label ∈ v.acts root) :
    ∃ m ∈ root.toValue.nodes, label = m.label := by
  have hin := enters_of_mem_visits hv
  have haround : ∀ {accepts : Node → Bool} {scope : Node}, v.Nearest accepts scope →
      scope ∈ root.toValue.nodes :=
    fun hs => Node.mem_nodes_of_mem_around hv hs.mem_around
  cases mem_acts_iff.mp h with
  | ofVariables hk hc =>
    obtain ⟨scope, hs, hl⟩ := create_mem_variableActs_iff.mp hc
    exact ⟨scope, haround hs, hl⟩
  | functionName hk hc =>
    obtain ⟨scope, hs, hl⟩ := exists_nearest_of_create hc
    exact ⟨scope, haround hs, hl⟩
  | className hk hc =>
    obtain ⟨scope, hs, hl⟩ := exists_nearest_of_create hc
    exact ⟨scope, haround hs, hl⟩
  | ofFunction hk hc => exact ⟨v.node, hin.mem_nodes, Node.create_mem_functionActs_iff.mp hc⟩
  | ofClass hk hc => exact ⟨v.node, hin.mem_nodes, Node.create_mem_classActs_iff.mp hc⟩
  | ofHandler hk hc =>
    obtain ⟨handler, hh, hl⟩ := create_mem_tryActs_iff.mp hc
    have ht : v.Targets root handler := .handler hk hh
    exact ⟨handler, ht.mem_nodes hv, hl⟩
  | ofImport hk hc =>
    obtain ⟨name, -, hc⟩ := (Act.mem_after_iff rfl).mp hc
    exact ⟨root, Value.mem_nodes_toValue root, Node.create_mem_declare_iff.mp hc⟩

end Visit

theorem exists_mem_nodes_of_create {root : Value} {label : Nat} (h : .create label ∈ declarations root) :
    ∃ m ∈ root.nodes, label = m.label := by
  cases hn : root.node? with
  | none => simp [declarations, hn] at h
  | some n =>
    obtain rfl := Value.node?_eq_some_iff.mp hn
    rw [declarations_toValue] at h
    obtain h | h := List.mem_append.mp h
    · obtain ⟨v, hv, h⟩ := List.mem_flatMap.mp h
      exact v.exists_mem_nodes_of_create hv h
    · simp at h

/-! ### The two builders of a session -/

namespace Session

variable {s : Session} {label : Nat}

/-- The nodes of the tree that the session's builder remembers have tables. -/
def Remembers (s : Session) : Prop :=
  ∀ m ∈ s.tree.root.nodes, m.label ∈ s.known → ∃ set, s.tree.tables.slot? m.label = some (.names set)

open scoped Classical in
/-- A build with the session's builder is one by a builder that knows only nodes which are given tables. -/
theorem performed_rebuild (h : s.Remembers) :
    s.rebuild.2.1 = (declarations s.tree.root).findSome? Act.fault? ∧
      ∃ b c : Building, b.tables = s.tree.tables ∧ c.tables = s.rebuild.1.tree.tables ∧
        (∀ label, label ∈ b.known ↔ label ∈ s.known ∧ s.tree.root.Creates label) ∧
        Building.Performed (Act.live (declarations s.tree.root)) b c := by
  let b : Building := ⟨s.tree.tables, s.known.filter fun label => s.tree.root.Creates label, []⟩
  have hknown : ∀ label, label ∈ b.known ↔ label ∈ s.known ∧ s.tree.root.Creates label := by simp [b]
  have hsound : b.Sound := by
    intro label hk
    obtain ⟨hk, hc⟩ := (hknown label).mp hk
    obtain ⟨m, hm, rfl⟩ := exists_mem_nodes_of_create (List.takeWhile_subset _ hc)
    exact h m hm hk
  obtain ⟨hfault, hp, -⟩ := Building.run_eq hsound (guarded_declarations s.tree.root b.known)
  obtain ⟨htables, hsame⟩ : s.rebuild.1.tree.tables = (b.build s.tree.root).1.tables ∧
      s.rebuild.2.1 = (b.build s.tree.root).2 := by
    refine Building.run_congr rfl fun label hc => ?_
    rw [hknown]
    exact ⟨fun hk => ⟨hk, hc⟩, fun hk => hk.1⟩
  exact ⟨hsame.trans hfault, b, _, rfl, htables.symm, hknown, hp⟩

/-- A node that is remembered and given a table keeps its names. -/
theorem slot?_rebuild_of_mem (h : s.Remembers) (hk : label ∈ s.known) (hc : s.tree.root.Creates label)
    {old : NameSet} (hold : s.tree.tables.slot? label = some (.names old)) :
    s.rebuild.1.tree.tables.slot? label =
      some (.names ((Act.namesFor label (Act.live (declarations s.tree.root))).foldl NameSet.insert old)) := by
  obtain ⟨-, b, c, hb, hc', hknown, hp⟩ := performed_rebuild h
  rw [← hc']
  exact hp.old label old ((hknown label).mpr ⟨hk, hc⟩) (by rwa [hb])

theorem slot?_rebuild_of_not_mem (h : s.Remembers) (hk : label ∉ s.known)
    (hc : s.tree.root.Creates label) :
    s.rebuild.1.tree.tables.slot? label = some (.names (s.tree.root.builtTable label)) := by
  obtain ⟨-, b, c, hb, hc', hknown, hp⟩ := performed_rebuild h
  rw [← hc']
  exact hp.new label (fun hk' => hk ((hknown label).mp hk').1) hc

theorem slot?_rebuild_of_not_creates (h : s.Remembers) (hc : ¬ s.tree.root.Creates label) :
    s.rebuild.1.tree.tables.slot? label = s.tree.tables.slot? label := by
  obtain ⟨-, b, c, hb, hc', hknown, hp⟩ := performed_rebuild h
  rw [← hc', ← hb]
  exact hp.other label (fun hk => hc ((hknown label).mp hk).2) hc

theorem slot?_build_of_creates (hc : s.tree.root.Creates label) :
    s.build.1.tree.tables.slot? label = some (.names (s.tree.root.builtTable label)) :=
  (Building.resumes_start s.tree.tables s.tree.root).build.2.1 label hc

theorem slot?_build_of_not_creates (hc : ¬ s.tree.root.Creates label) :
    s.build.1.tree.tables.slot? label = s.tree.tables.slot? label :=
  (Building.resumes_start s.tree.tables s.tree.root).build.2.2.1 label hc

/-- A node that is given a table has the names that are bound in it, and those from before if it is
remembered. -/
theorem exists_slot?_rebuild (h : s.Remembers) (hc : s.tree.root.Creates label) :
    ∃ set, s.rebuild.1.tree.tables.slot? label = some (.names set) ∧
      ∀ x, x ∈ set ↔ x ∈ s.tree.root.builtTable label ∨
        label ∈ s.known ∧ ∃ old, s.tree.tables.slot? label = some (.names old) ∧ x ∈ old := by
  by_cases hk : label ∈ s.known
  · obtain ⟨m, hm, rfl⟩ := exists_mem_nodes_of_create (List.takeWhile_subset _ hc)
    obtain ⟨old, hold⟩ := h m hm hk
    refine ⟨_, slot?_rebuild_of_mem h hk hc hold, fun x => ?_⟩
    simp [NameSet.mem_foldl_insert, Value.builtTable, NameSet.mem_ofList, hk, hold]
  · refine ⟨_, slot?_rebuild_of_not_mem h hk hc, fun x => ?_⟩
    simp [hk]

theorem holdSets_rebuild (h : s.Remembers) (hs : s.tree.tables.HoldSets) :
    s.rebuild.1.tree.tables.HoldSets := by
  intro label slot hslot
  by_cases hc : s.tree.root.Creates label
  · obtain ⟨set, hset, -⟩ := exists_slot?_rebuild h hc
    exact ⟨set, Option.some.inj (hslot.symm.trans hset)⟩
  · rw [slot?_rebuild_of_not_creates h hc] at hslot
    exact hs label slot hslot

theorem holdSets_build (hs : s.tree.tables.HoldSets) : s.build.1.tree.tables.HoldSets := by
  intro label slot hslot
  by_cases hc : s.tree.root.Creates label
  · exact ⟨_, Option.some.inj (hslot.symm.trans (slot?_build_of_creates hc))⟩
  · rw [slot?_build_of_not_creates hc] at hslot
    exact hs label slot hslot

/-- What the session's builder leaves unbound, a new one does as well. -/
theorem binds_build_of_binds_rebuild (h : s.Remembers) {x : Name}
    (hx : s.rebuild.1.tree.tables.binds label x = .ok false) :
    s.build.1.tree.tables.binds label x = .ok false := by
  by_cases hc : s.tree.root.Creates label
  · obtain ⟨set, hset, hmem⟩ := exists_slot?_rebuild h hc
    rw [Tables.binds_of_slot?_eq_names hset] at hx
    rw [Tables.binds_of_slot?_eq_names (slot?_build_of_creates hc)]
    have hnot : x ∉ set := by simpa using hx
    have hnot' : x ∉ s.tree.root.builtTable label := fun hb => hnot ((hmem x).mpr (.inl hb))
    simp [hnot']
  · rw [Tables.binds, slot?_rebuild_of_not_creates h hc] at hx
    rwa [Tables.binds, slot?_build_of_not_creates hc]

end Session

/-! ### Tables that bind more -/

section

variable {tables others : Tables}
  (hbinds : ∀ label x, tables.binds label x = .ok false → others.binds label x = .ok false)
include hbinds

theorem Visit.IsUnbound.of_binds {v : Visit} (h : v.IsUnbound tables) : v.IsUnbound others := by
  obtain ⟨hk, x, hx, hundefined, harguments, hall⟩ | hthis := h
  · exact .inl ⟨hk, x, hx, hundefined, harguments, fun m hm => hbinds _ _ (hall m hm)⟩
  · exact .inr hthis

/-- Of tables that bind more, fewer references are found. -/
theorem sublist_of_referencesOf {vs : List Visit} {refs refs' : List Reference}
    (h : referencesOf tables vs = .ok refs) (h' : referencesOf others vs = .ok refs') :
    refs.Sublist refs' := by
  classical
  rw [referencesOf_eq_ok h, referencesOf_eq_ok h']
  apply List.Sublist.map
  apply List.monotone_filter_right
  intro v hv
  have hv : v.IsUnbound tables := by simpa using hv
  simpa using hv.of_binds hbinds

theorem sublist_of_references {root : Value} {refs refs' : List Reference}
    (h : references tables root = .ok refs) (h' : references others root = .ok refs') :
    refs.Sublist refs' := by
  have hof : ∀ {tables : Tables} {refs : List Reference}, references tables root = .ok refs →
      referencesOf tables (walk root).visits = .ok refs := by
    intro tables refs h
    unfold references at h
    cases hr : referencesOf tables (walk root).visits with
    | error fault => simp [hr] at h
    | ok found => cases hw : (walk root).fault <;> simp_all
  exact sublist_of_referencesOf hbinds (hof h) (hof h')

end

/-- Tables that are sets have no part in where the search for references fails. -/
theorem references_fault_congr {tables others : Tables} (hs : tables.HoldSets) (hs' : others.HoldSets)
    (root : Value) (fault : Fault) :
    references tables root = .error fault ↔ references others root = .error fault := by
  have herror : ∀ fault, referencesOf tables (walk root).visits = .error fault ↔
      referencesOf others (walk root).visits = .error fault := by
    intro fault
    rw [referencesOf_eq_error_iff fun v _ => v.answered_of_holdSets hs,
      referencesOf_eq_error_iff fun v _ => v.answered_of_holdSets hs']
  unfold references
  cases hr : referencesOf tables (walk root).visits with
  | error fault' => simp [hr, (herror fault').mp hr]
  | ok found =>
    cases hr' : referencesOf others (walk root).visits with
    | error fault' => cases hr.symm.trans ((herror fault').mpr hr')
    | ok found' => cases hw : (walk root).fault <;> simp [hr, hr', hw]

/-! ### Comparing the two -/

namespace Session

variable {s : Session} {root m : Node} (hroot : s.tree.root = root.toValue) (hl : s.tree.WellLabelled)
  (hf : s.build.2.1 = none)
include hroot hl hf

/-- A build that succeeds gives a table to the targets of declarations. -/
theorem creates_iff_isTarget (hm : m ∈ root.toValue.nodes) :
    s.tree.root.Creates m.label ↔ root.IsTarget m := by
  have hf : (buildScopes s.tree.tables root.toValue).2 = none := hroot ▸ hf
  have hl : root.toValue.WellLabelled := hroot ▸ hl
  obtain ⟨root', hroot', -, hclean⟩ := exists_node_of_build hf
  obtain rfl := Node.toValue_injective hroot'
  rw [hroot, Value.Creates, Act.live_eq_self (buildScopes_fault s.tree.tables root.toValue ▸ hf),
    create_mem_declarations_iff hclean]
  constructor
  · rintro ⟨scope, ht, hlabel⟩
    exact hl.eq_of_label_eq hm ht.mem_nodes hlabel ▸ ht
  · intro ht
    exact ⟨m, ht, rfl⟩

/-- The names that are declared in a target are those of its new table. -/
theorem mem_builtTable_iff (ht : root.IsTarget m) (x : Name) :
    x ∈ s.tree.root.builtTable m.label ↔ root.Declared m x := by
  have hc := (creates_iff_isTarget hroot hl hf ht.mem_nodes).mpr ht
  have hf' : (buildScopes s.tree.tables root.toValue).2 = none := hroot ▸ hf
  obtain ⟨set, hset, hmem⟩ := slot?_buildScopes_of_isTarget (hroot ▸ hl) hf' ht
  rw [← hroot] at hset
  obtain rfl : s.tree.root.builtTable m.label = set := by
    simpa using (slot?_build_of_creates hc).symm.trans hset
  exact hmem x

end Session

/-- **A builder that is used again against a new one.** Both fail in the same way. After a success, a node
that is declared into has the names that are bound in it now, with the used builder also those from before if
the builder remembers the node; all other tables stay. So what is free with the used builder is free with a new
one. -/
theorem rebuild_against_build {s : Session} (hl : s.tree.WellLabelled) (hs : s.tree.tables.HoldSets)
    (h : s.Remembers) :
    s.rebuild.2.1 = s.build.2.1 ∧
    (s.build.2.1 = none → ∃ root : Node, s.tree.root = root.toValue ∧
      (∀ m, root.IsTarget m →
        (∃ set, s.rebuild.1.tree.tables.slot? m.label = some (.names set) ∧
          ∀ x, x ∈ set ↔ root.Declared m x ∨
            m.label ∈ s.known ∧ ∃ old, s.tree.tables.slot? m.label = some (.names old) ∧ x ∈ old) ∧
        ∃ set, s.build.1.tree.tables.slot? m.label = some (.names set) ∧
          ∀ x, x ∈ set ↔ root.Declared m x) ∧
      ∀ m ∈ root.toValue.nodes, ¬ root.IsTarget m →
        s.rebuild.1.tree.tables.slot? m.label = s.tree.tables.slot? m.label ∧
        s.build.1.tree.tables.slot? m.label = s.tree.tables.slot? m.label) ∧
    (∀ fault, s.rebuild.1.classify = .error fault ↔ s.build.1.classify = .error fault) ∧
    ∀ refs refs', s.rebuild.1.classify = .ok refs → s.build.1.classify = .ok refs' →
      refs.Sublist refs' := by
  have hfault : s.rebuild.2.1 = s.build.2.1 :=
    (Session.performed_rebuild h).1.trans (buildScopes_fault s.tree.tables s.tree.root).symm
  refine ⟨hfault, fun hf => ?_, fun fault => ?_, fun refs refs' hr hr' => ?_⟩
  · obtain ⟨root, hroot, -, -⟩ := exists_node_of_build hf
    refine ⟨root, hroot, fun m ht => ?_, fun m hm ht => ?_⟩
    · have hc := (Session.creates_iff_isTarget hroot hl hf ht.mem_nodes).mpr ht
      have hmem := Session.mem_builtTable_iff hroot hl hf ht
      obtain ⟨set, hset, hset'⟩ := Session.exists_slot?_rebuild h hc
      refine ⟨⟨set, hset, fun x => ?_⟩, _, Session.slot?_build_of_creates hc, hmem⟩
      rw [hset', hmem]
    · have hc := mt (Session.creates_iff_isTarget hroot hl hf hm).mp ht
      exact ⟨Session.slot?_rebuild_of_not_creates h hc, Session.slot?_build_of_not_creates hc⟩
  · exact references_fault_congr (Session.holdSets_rebuild h hs) (Session.holdSets_build hs) s.tree.root fault
  · exact sublist_of_references (fun label x => Session.binds_build_of_binds_rebuild h) hr hr'

/-- A session on the program `var a; old`, which comes with a table from before that holds `old`. Its builder
remembers the program, and a node that is not in the tree. -/
def usedSession : Session where
  tree := .ofValue (Kind.program.object
    [("body", .array
      [Kind.variableDeclaration.object
        [("kind", .text "var"),
         ("declarations", .array [Kind.variableDeclarator.object [("id", .identifier "a")]])],
       .identifierStatement "old"]),
     (tableField, .array [.text "old"])])
  known := [0, 100]
  found := none

/-- The used builder keeps the name `old` in the table of the program, and a new one drops it. -/
theorem rebuild_against_build_usedSession :
    usedSession.tree.WellLabelled ∧ usedSession.tree.tables.HoldSets ∧ usedSession.Remembers ∧
      ∃ refs refs', usedSession.rebuild.1.classify = .ok refs ∧ usedSession.build.1.classify = .ok refs' ∧
        refs.Sublist refs' ∧ refs.length = 0 ∧ refs'.length = 1 := by
  have hl : usedSession.tree.WellLabelled := Tree.wellLabelled_ofValue _
  obtain ⟨set, hslots⟩ : ∃ set, usedSession.tree.tables.slots = [(0, .names set)] := ⟨_, rfl⟩
  have hs : usedSession.tree.tables.HoldSets := by
    intro label slot h
    rw [Tables.slot?, hslots] at h
    by_cases hlabel : label = 0
    · subst hlabel
      exact ⟨set, by simpa using h.symm⟩
    · have hbeq : (label == 0) = false := by simpa using hlabel
      simp [List.lookup_cons, hbeq] at h
  have hr : usedSession.Remembers := by
    intro m hm hk
    have hgone : 100 ∉ usedSession.tree.root.labels := by decide +kernel
    obtain h | h : m.label = 0 ∨ m.label = 100 := by simpa [usedSession] using hk
    · exact ⟨set, by simp [Tables.slot?, hslots, h]⟩
    · exact absurd (h ▸ List.mem_map_of_mem hm) hgone
  have hused : usedSession.rebuild.1.classify.toOption.map List.length = some 0 := by decide +kernel
  have hnew : usedSession.build.1.classify.toOption.map List.length = some 1 := by decide +kernel
  obtain ⟨refs, hrefs, hlen⟩ := Option.map_eq_some_iff.mp hused
  obtain ⟨refs', hrefs', hlen'⟩ := Option.map_eq_some_iff.mp hnew
  have hrefs := eq_ok_of_toOption hrefs
  have hrefs' := eq_ok_of_toOption hrefs'
  obtain ⟨-, -, -, hsub⟩ := rebuild_against_build hl hs hr
  exact ⟨hl, hs, hr, refs, refs', hrefs, hrefs', hsub refs refs' hrefs hrefs', hlen, hlen'⟩

end FreeNames
