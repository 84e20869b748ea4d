import FreeNames.Analysis
import FreeNames.Proofs.BindingTables

/-!
# Which references are free

An identifier is free where no declaration binds its name in a node around it (`Visit.IsFree`); this
is said from the declarations alone. The analysis asks tables, one node after another. For a program
that comes without tables both are the same: what an analysis finds is what the walk meets that is
free, in the order of the walk.
-/

namespace FreeNames

/-! ### Asking the tables -/

namespace Tables

variable {t : Tables} {label : Nat} {set : NameSet} {x : Name}

theorem binds_of_slot?_eq_none (h : t.slot? label = none) : t.binds label x = .ok false := by
  simp [binds, h, Value.hasName]

theorem binds_of_slot?_eq_names (h : t.slot? label = some (.names set)) :
    t.binds label x = .ok (decide (x ∈ set)) := by
  simp [binds, h, Value.hasName]

end Tables

namespace Visit

variable {tables : Tables} {v : Visit}

/-- The visit as a reference. -/
def toReference (v : Visit) : Reference := ⟨v.node, v.around⟩

/-- Some plain function is around the visit. -/
def HasReceiver (v : Visit) : Prop := ∃ n ∈ v.around, n.bindsReceiver

theorem boundAround_eq_ok_false_iff {x : Name} {around : List Node} :
    boundAround tables x around = .ok false ↔
      ¬ (x = .text "arguments" ∧ ∃ n ∈ around, n.bindsReceiver) ∧
        ∀ n ∈ around, tables.binds n.label x = .ok false := by
  induction around with
  | nil => simp [boundAround]
  | cons scope outer ih =>
    unfold boundAround
    split
    · rename_i h
      simp [h, pure, Except.pure]
    · rename_i h
      cases hb : tables.binds scope.label x with
      | error fault => simp [bind, Except.bind, hb]
      | ok b =>
        cases b with
        | true => simp [bind, Except.bind, pure, Except.pure, hb]
        | false =>
          simp only [bind, Except.bind, Bool.false_eq_true, if_false, ih, List.forall_mem_cons, hb,
            true_and, List.exists_mem_cons_iff]
          grind

/-- The visit is a reference that the tables around it do not bind. -/
def IsUnbound (tables : Tables) (v : Visit) : Prop :=
  (v.kind = .identifier ∧ ∃ x, v.node.Named x ∧ x ≠ .text "undefined" ∧
      ¬ (x = .text "arguments" ∧ v.HasReceiver) ∧ ∀ n ∈ v.around, tables.binds n.label x = .ok false) ∨
    (v.kind = .thisExpression ∧ ¬ v.HasReceiver)

theorem IsUnbound.kind (h : v.IsUnbound tables) : v.kind = .identifier ∨ v.kind = .thisExpression :=
  h.imp And.left And.left

theorem binds_eq_ok_false_iff {x : Name} :
    v.binds tables x = .ok false ↔ x ≠ .text "undefined" ∧
      ¬ (x = .text "arguments" ∧ v.HasReceiver) ∧ ∀ n ∈ v.around, tables.binds n.label x = .ok false := by
  unfold binds
  split
  · rename_i h
    simp [h]
  · rename_i h
    rw [boundAround_eq_ok_false_iff]
    exact ⟨fun hb => ⟨h, hb⟩, fun hb => hb.2⟩

end Visit

/-- The name that an identifier has to have. -/
theorem Node.name_eq_ok_iff {n : Node} {x : Name} :
    (n.require "name" >>= Value.asName) = .ok x ↔ n.Named x := by
  unfold Node.Named
  rw [← Node.require_eq_ok_iff]
  cases hr : n.require "name" with
  | error fault => simp [bind, Except.bind]
  | ok w =>
    simp only [bind, Except.bind, Value.asName, Except.ok.injEq]
    cases hw : w.name? with
    | none =>
      simp only [reduceCtorEq, false_iff]
      rintro rfl
      simp at hw
    | some y =>
      obtain rfl := Value.name?_eq_some_iff.mp hw
      exact ⟨fun h => by rw [Except.ok.inj h], fun h => by rw [Name.toValue_injective h]⟩

namespace Visit

variable {tables : Tables} {v : Visit}

/-- A visit gives a reference if it is one that the tables do not bind. -/
theorem reference?_eq_ok_some_iff {r : Reference} :
    v.reference? tables = .ok (some r) ↔ v.IsUnbound tables ∧ r = v.toReference := by
  unfold reference? IsUnbound
  split
  · rename_i hk
    simp only [hk, true_and, reduceCtorEq, false_and, or_false]
    cases hname : v.node.require "name" >>= Value.asName with
    | error fault =>
      simp only [bind, Except.bind, reduceCtorEq, false_iff]
      rintro ⟨⟨x, hx, -⟩, -⟩
      cases hname.symm.trans (Node.name_eq_ok_iff.mpr hx)
    | ok x =>
      have hx := Node.name_eq_ok_iff.mp hname
      have hnames : ∀ y, v.node.Named y ↔ y = x := fun y => ⟨fun hy => hy.eq hx, fun h => h ▸ hx⟩
      simp only [hnames, exists_eq_left, ← binds_eq_ok_false_iff]
      cases hb : v.binds tables x with
      | error fault => simp [bind, Except.bind, hb]
      | ok b => cases b <;> simp [bind, Except.bind, pure, Except.pure, hb, toReference, eq_comm]
  · rename_i hk
    simp only [hk, reduceCtorEq, false_and, true_and, false_or]
    by_cases h : v.HasReceiver
    · have hany : v.around.any Node.bindsReceiver = true := List.any_eq_true.mpr h
      simp [hany, h, pure, Except.pure]
    · have hany : v.around.any Node.bindsReceiver = false := by
        rw [← Bool.not_eq_true, List.any_eq_true]
        exact h
      simp [hany, h, pure, Except.pure, toReference, eq_comm]
  · rename_i hi ht
    simp only [pure, Except.pure, Except.ok.injEq, reduceCtorEq, false_iff]
    rintro ⟨⟨hk, -⟩ | ⟨hk, -⟩, -⟩
    · exact hi hk
    · exact ht hk

end Visit

open scoped Classical in
/-- What is found among visits are those that the tables do not bind. -/
theorem referencesOf_eq_ok {tables : Tables} : ∀ {vs : List Visit} {refs : List Reference},
    referencesOf tables vs = .ok refs →
      refs = (vs.filter fun v => v.IsUnbound tables).map Visit.toReference := by
  intro vs
  induction vs with
  | nil =>
    intro refs h
    cases h
    rfl
  | cons v rest ih =>
    intro refs h
    unfold referencesOf at h
    cases hv : v.reference? tables with
    | error fault => simp [hv, bind, Except.bind] at h
    | ok first =>
      cases hrest : referencesOf tables rest with
      | error fault => simp [hv, hrest, bind, Except.bind] at h
      | ok others =>
        simp only [hv, hrest, bind, Except.bind, pure, Except.pure, Except.ok.injEq] at h
        subst h
        rw [ih hrest]
        cases first with
        | none =>
          have hnot : ¬ v.IsUnbound tables := fun h => by
            cases hv.symm.trans (Visit.reference?_eq_ok_some_iff.mpr ⟨h, rfl⟩)
          simp [hnot]
        | some r =>
          obtain ⟨hun, rfl⟩ := Visit.reference?_eq_ok_some_iff.mp hv
          simp [hun]

/-- References can be looked for among visits if each of them can be asked. -/
theorem exists_referencesOf_iff {tables : Tables} {vs : List Visit} :
    (∃ refs, referencesOf tables vs = .ok refs) ↔ ∀ v ∈ vs, ∃ r, v.reference? tables = .ok r := by
  induction vs with
  | nil => exact iff_of_true ⟨[], rfl⟩ (by simp)
  | cons v rest ih =>
    rw [List.forall_mem_cons, ← ih, referencesOf]
    cases v.reference? tables with
    | error fault => simp [bind, Except.bind]
    | ok first => cases referencesOf tables rest <;> simp [bind, Except.bind, pure, Except.pure]

theorem mem_of_referencesOf {tables : Tables} {vs : List Visit} {refs : List Reference}
    (h : referencesOf tables vs = .ok refs) {r : Reference} :
    r ∈ refs ↔ ∃ v ∈ vs, v.IsUnbound tables ∧ r = v.toReference := by
  rw [referencesOf_eq_ok h]
  simp [and_assoc, eq_comm]

theorem references_eq_ok_iff {tables : Tables} {n : Node} {refs : List Reference} :
    references tables n.toValue = .ok refs ↔
      referencesOf tables n.entered = .ok refs ∧ (visits n.toValue []).fault = none := by
  have hwalk : walk n.toValue = visits n.toValue [] := walk_eq_visits rfl
  rw [references, hwalk, Node.entered]
  cases referencesOf tables (visits n.toValue []).visits with
  | error fault => simp
  | ok found => cases (visits n.toValue []).fault <;> simp

/-! ### The result of an analysis -/

theorem eq_ok_of_toOption {ε α : Type} {r : Except ε α} {a : α} (h : r.toOption = some a) :
    r = .ok a := by
  cases r with
  | error fault => cases h
  | ok b => rw [Option.some.inj h]

section

variable {t : Tree} (name : Text)

theorem Tree.analyze_result_of_not_isProgram (hp : t.isProgram = false) :
    (t.analyze name).result = .error .notAProgram := by
  simp [analyze, hp]

/-- An analysis gives the fault of the build, or what is made of the tables that were built. -/
theorem Tree.analyze_result_of_isProgram (hp : t.isProgram) :
    (t.analyze name).result =
      match (buildScopes t.tables t.root).2 with
      | some fault => .error fault
      | none => references (buildScopes t.tables t.root).1.tables t.root >>= groups := by
  simp only [analyze, hp, Bool.not_true, Bool.false_eq_true, if_false, freeGroups]
  cases (buildScopes t.tables t.root).2 with
  | some fault => rfl
  | none => cases references (buildScopes t.tables t.root).1.tables t.root >>= groups <;> rfl

theorem Tree.analyze_tables (hp : t.isProgram) :
    (t.analyze name).tree.tables = (buildScopes t.tables t.root).1.tables := by
  simp only [analyze, hp, Bool.not_true, Bool.false_eq_true, if_false, freeGroups]
  split
  · rfl
  · split <;> rfl

end

/-- An analysis leaves the tree as it is, but for its tables. -/
theorem Tree.analyze_root (t : Tree) (name : Text) : (t.analyze name).tree.root = t.root := by
  unfold analyze
  split
  · rfl
  · simp only
    split
    · rfl
    · split <;> rfl

/-- An analysis succeeds if building, looking for references and grouping them do. -/
theorem Tree.analyze_result_eq_ok_iff {t : Tree} {name : Text} {found : List Group} :
    (t.analyze name).result = .ok found ↔
      t.isProgram ∧ (buildScopes t.tables t.root).2 = none ∧
        ∃ refs, references (buildScopes t.tables t.root).1.tables t.root = .ok refs ∧
          groups refs = .ok found := by
  cases hp : t.isProgram with
  | false => simp [Tree.analyze_result_of_not_isProgram name hp]
  | true =>
    rw [Tree.analyze_result_of_isProgram name hp]
    cases hb : (buildScopes t.tables t.root).2 with
    | some fault => simp
    | none =>
      cases hr : references (buildScopes t.tables t.root).1.tables t.root with
      | error fault => simp [bind, Except.bind]
      | ok refs => simp [bind, Except.bind]

/-! ### Tables that were built -/

section

variable {tables : Tables} {n m : Node} {x : Name} (hl : n.toValue.WellLabelled)
  (hf : (buildScopes tables n.toValue).2 = none)
include hl hf

/-- What a target binds are the names that are declared in it. -/
theorem binds_buildScopes_of_isTarget (h : n.IsTarget m) :
    (buildScopes tables n.toValue).1.tables.binds m.label x = .ok false ↔ ¬ n.Declared m x := by
  obtain ⟨set, hslot, hset⟩ := slot?_buildScopes_of_isTarget hl hf h
  rw [Tables.binds_of_slot?_eq_names hslot, ← hset x]
  simp

/-- What any other node binds is what it bound before. -/
theorem binds_buildScopes_of_not_isTarget (hm : m ∈ n.toValue.nodes) (h : ¬ n.IsTarget m) :
    (buildScopes tables n.toValue).1.tables.binds m.label x = tables.binds m.label x := by
  rw [Tables.binds, slot?_buildScopes_of_not_isTarget hl hf hm h, Tables.binds]

end

/-- The nodes around a visit are nodes of the tree. -/
theorem Node.mem_nodes_of_mem_around {root m : Node} {v : Visit} (hv : v ∈ root.entered)
    (hm : m ∈ v.around) : m ∈ root.toValue.nodes :=
  ((enters_of_mem_visits hv).mem_nodes_of_mem_around hm).resolve_left List.not_mem_nil

/-! ### Free references -/

namespace Visit

/-- A name is bound where the visit stands: it is `undefined`, or `arguments` in a plain function, or
some declaration of the tree below `root`, be it earlier or later, binds it in a node around. -/
def IsBound (root : Node) (v : Visit) (x : Name) : Prop :=
  x = .text "undefined" ∨ (x = .text "arguments" ∧ v.HasReceiver) ∨ ∃ n ∈ v.around, root.Declared n x

/-- The visit is an identifier whose name is not bound there, or a `this` outside plain functions. -/
def IsFree (root : Node) (v : Visit) : Prop :=
  (v.kind = .identifier ∧ ∃ x, v.node.Named x ∧ ¬ v.IsBound root x) ∨
    (v.kind = .thisExpression ∧ ¬ v.HasReceiver)

/-- Tables that were built on none bind what is declared. -/
theorem isUnbound_iff_isFree {tables : Tables} {root : Node} {v : Visit}
    (hl : root.toValue.WellLabelled) (hnone : ∀ label, tables.slot? label = none)
    (hf : (buildScopes tables root.toValue).2 = none) (hv : v ∈ root.entered) :
    v.IsUnbound (buildScopes tables root.toValue).1.tables ↔ v.IsFree root := by
  have hdeclared : ∀ x, ∀ n ∈ v.around,
      ((buildScopes tables root.toValue).1.tables.binds n.label x = .ok false ↔ ¬ root.Declared n x) := by
    intro x n hn
    by_cases ht : root.IsTarget n
    · exact binds_buildScopes_of_isTarget hl hf ht
    · rw [binds_buildScopes_of_not_isTarget hl hf (Node.mem_nodes_of_mem_around hv hn) ht,
        Tables.binds_of_slot?_eq_none (hnone n.label)]
      exact ⟨fun _ hd => ht hd.isTarget, fun _ => rfl⟩
  have hbound : ∀ x, ¬ v.IsBound root x ↔ x ≠ .text "undefined" ∧
      ¬ (x = .text "arguments" ∧ v.HasReceiver) ∧
        ∀ n ∈ v.around, (buildScopes tables root.toValue).1.tables.binds n.label x = .ok false := by
    intro x
    rw [forall₂_congr (hdeclared x)]
    simp only [IsBound, not_or, not_exists, not_and]
  unfold IsUnbound IsFree
  simp only [hbound]

end Visit

section

open scoped Classical

/-- **The references that an analysis finds are the free ones.** For a program without tables, and an
analysis that succeeds, they are what the walk meets that no declaration binds, in the order of the
walk. -/
theorem references_eq_free {t : Tree} {name : Text} {found : List Group} (hl : t.WellLabelled)
    (hnone : ∀ label, t.tables.slot? label = none) (h : (t.analyze name).result = .ok found) :
    ∃ (n : Node) (refs : List Reference), t.root = n.toValue ∧
      references (buildScopes t.tables t.root).1.tables t.root = .ok refs ∧ groups refs = .ok found ∧
      refs = (n.entered.filter fun v => v.IsFree n).map Visit.toReference := by
  obtain ⟨-, hf, refs, hrefs, hgroups⟩ := Tree.analyze_result_eq_ok_iff.mp h
  obtain ⟨n, hn, -, -⟩ := exists_node_of_build hf
  refine ⟨n, refs, hn, hrefs, hgroups, ?_⟩
  unfold Tree.WellLabelled at hl
  rw [hn] at hl hf hrefs
  rw [referencesOf_eq_ok (references_eq_ok_iff.mp hrefs).1]
  congr 1
  refine List.filter_congr fun v hv => ?_
  rw [decide_eq_decide]
  exact Visit.isUnbound_iff_isFree hl hnone hf hv

/-- The program `f(x); function f(a) { g(a) } this`: its function is used before it is declared. -/
def hoistedProgram : Tree :=
  .ofValue (Kind.program.object
    [("body", .array
      [Kind.expressionStatement.object
        [("expression", Kind.callExpression.object
          [("callee", .identifier "f"), ("arguments", .array [.identifier "x"])])],
       Kind.functionDeclaration.object
        [("id", .identifier "f"), ("params", .array [.identifier "a"]),
         ("body", Kind.blockStatement.object
          [("body", .array [Kind.expressionStatement.object
            [("expression", Kind.callExpression.object
              [("callee", .identifier "g"), ("arguments", .array [.identifier "a"])])]])])],
       Kind.expressionStatement.object [("expression", Kind.thisExpression.object [])]])])

theorem references_eq_free_hoistedProgram :
    hoistedProgram.WellLabelled ∧ (∀ label, hoistedProgram.tables.slot? label = none) ∧
      ∃ found, (hoistedProgram.analyze "s").result = .ok found ∧
        found.map Group.name = [.text "g", .text "this", .text "x"] ∧
        ∃ (n : Node) (refs : List Reference), hoistedProgram.root = n.toValue ∧
          references (buildScopes hoistedProgram.tables hoistedProgram.root).1.tables
            hoistedProgram.root = .ok refs ∧ groups refs = .ok found ∧
          refs = (n.entered.filter fun v => v.IsFree n).map Visit.toReference := by
  have hl : hoistedProgram.WellLabelled := Tree.wellLabelled_ofValue _
  have hslots : hoistedProgram.tables.slots = [] := List.isEmpty_iff.mp (by decide +kernel)
  have hnone : ∀ label, hoistedProgram.tables.slot? label = none := by
    intro label
    rw [Tables.slot?, hslots, List.lookup_nil]
  have hnames : (hoistedProgram.analyze "s").result.toOption.map (List.map Group.name) =
      some [.text "g", .text "this", .text "x"] := by decide +kernel
  obtain ⟨found, hfound, hnames⟩ := Option.map_eq_some_iff.mp hnames
  have h := eq_ok_of_toOption hfound
  exact ⟨hl, hnone, found, h, hnames, references_eq_free hl hnone h⟩

end

end FreeNames
