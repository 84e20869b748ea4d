import FreeNames.Proofs.BindingGrammar
import FreeNames.Proofs.LeftoverTables

/-!
# When building and searching succeed

Each step of an analysis fails for reasons of its own. A walk fails at a value that it cannot enter. A
declaration fails at a part that it cannot read (`Node.Readable`); which scopes are around it makes no
difference, since in a program there always is one. The search for references fails at an identifier
without a name. This module says for each step that it succeeds if and only if none of its reasons to
fail is there.
-/

namespace FreeNames

/-! ### Acts without a failure -/

namespace Act

theorem clean_iff_findSome?_eq_none {acts : List Act} : Clean acts ↔ acts.findSome? fault? = none := by
  refine ⟨fun h => List.findSome?_eq_none_iff.mpr fun act hact => ?_, clean_of_findSome?_eq_none⟩
  cases act with
  | fail fault => exact absurd hact (h fault)
  | _ => rfl

theorem clean_nil : Clean [] := fun _ => List.not_mem_nil

theorem clean_cons_iff {act : Act} {acts : List Act} (h : act.fault? = none) :
    Clean (act :: acts) ↔ Clean acts := by
  rw [clean_iff_findSome?_eq_none, clean_iff_findSome?_eq_none, List.findSome?_cons, h]

theorem clean_flatMap_iff {α : Type} {l : List α} {f : α → List Act} :
    Clean (l.flatMap f) ↔ ∀ a ∈ l, Clean (f a) := by
  refine ⟨fun h a ha => h.of_mem_flatMap ha, fun h fault hf => ?_⟩
  obtain ⟨a, ha, hf⟩ := List.mem_flatMap.mp hf
  exact h a ha fault hf

theorem clean_after_iff {α : Type} {r : Except Fault α} {next : α → List Act} :
    Clean (after r next) ↔ ∃ a, r = .ok a ∧ Clean (next a) := by
  refine ⟨Clean.exists_of_after, ?_⟩
  rintro ⟨a, rfl, h⟩
  exact h

end Act

theorem Bound.clean_acts_iff {b : Bound} {label : Nat} : Act.Clean (b.acts label) ↔ b.fault = none := by
  refine ⟨fault_eq_none_of_clean, fun h fault hf => ?_⟩
  simp [acts, h] at hf

theorem Value.clean_bindActs_iff {v : Value} {label : Nat} :
    Act.Clean (v.bindActs label) ↔ ∃ x : Name, v = x.toValue := by
  rw [bindActs, Bound.clean_acts_iff, Bound.ofName_fault_eq_none_iff]
  simp

/-- A null name is not bound, but it can be read as a name. -/
theorem Value.exists_name_of_isNull {v : Value} (h : v.isNull) : ∃ x : Name, v = x.toValue := by
  cases v <;> simp [isNull] at h
  exact ⟨.null, rfl⟩

namespace Node

variable {n : Node}

theorem clean_declare_iff {v : Value} : Act.Clean (n.declare v) ↔ ∃ x : Name, v = x.toValue := by
  rw [declare, Act.clean_cons_iff rfl, Act.clean_cons_iff rfl, Value.clean_bindActs_iff]

theorem clean_bindOwnName_iff : Act.Clean n.bindOwnName ↔ ∃ x : Name, n.ownName = .ok x.toValue := by
  unfold bindOwnName
  rw [Act.clean_after_iff]
  constructor
  · rintro ⟨v, hv, h⟩
    split at h
    · rename_i hnull
      obtain ⟨x, rfl⟩ := Value.exists_name_of_isNull hnull
      exact ⟨x, hv⟩
    · obtain ⟨x, rfl⟩ := Value.clean_bindActs_iff.mp h
      exact ⟨x, hv⟩
  · rintro ⟨x, hx⟩
    refine ⟨_, hx, ?_⟩
    split
    · exact Act.clean_nil
    · exact Value.clean_bindActs_iff.mpr ⟨x, rfl⟩

theorem clean_functionActs_iff :
    Act.Clean n.functionActs ↔
      (∃ params, n.membersOf "params" = .ok params ∧ ∀ p ∈ params, (bound p).fault = none) ∧
        ∃ x : Name, n.ownName = .ok x.toValue := by
  rw [functionActs, Act.clean_cons_iff rfl, Act.clean_after_iff]
  simp only [Act.Clean.append_iff, Act.clean_flatMap_iff, Bound.clean_acts_iff, clean_bindOwnName_iff]
  constructor
  · rintro ⟨params, hm, hparams, hname⟩
    exact ⟨⟨params, hm, hparams⟩, hname⟩
  · rintro ⟨⟨params, hm, hparams⟩, hname⟩
    exact ⟨params, hm, hparams, hname⟩

theorem clean_classActs_iff : Act.Clean n.classActs ↔ ∃ x : Name, n.ownName = .ok x.toValue := by
  rw [classActs, Act.clean_cons_iff rfl, clean_bindOwnName_iff]

end Node

/-! ### What a declaration reads -/

theorem Node.isBlockScope_of_isScope {n : Node} (h : n.isScope) : n.isBlockScope := by
  unfold isScope hasKind at h
  unfold isBlockScope hasKind
  cases hk : n.kind? with
  | none => simp [hk] at h
  | some k =>
    rw [hk] at h
    exact Kind.isBlockScope_of_isScope h

/-- All that is read of a node of a kind when its declarations are recorded can be read. -/
structure Node.Readable (n : Node) (k : Kind) : Prop where
  declarators : k = .variableDeclaration → ∃ ds, n.membersOf "declarations" = .ok ds ∧
    ∀ d ∈ ds, ∃ p, d.member "id" = .ok p ∧ (bound p).fault = none
  parameters : k.isFunction → ∃ params, n.membersOf "params" = .ok params ∧
    ∀ p ∈ params, (bound p).fault = none
  ownName : k.isFunction ∨ k.isClass → ∃ x : Name, n.ownName = .ok x.toValue
  handler : k = .tryStatement → n.field "handler" = .null ∨
    ∃ handler : Node, n.field "handler" = handler.toValue ∧
      ((handler.field "param").isNull = false → (bound (handler.field "param")).fault = none)
  imported : k.isImport → ∃ (m : Node) (x : Name), n.field "local" = m.toValue ∧ m.Named x

namespace Visit

variable {v : Visit} {root : Node} {accepts : Node → Bool}

/-- Where a scope is around, it can be found. -/
theorem exists_nearest (h : ∃ s ∈ v.around, accepts s) : ∃ scope, v.nearest accepts = .ok scope := by
  obtain ⟨s, hs, haccepts⟩ := h
  cases hfind : v.around.find? accepts with
  | none => exact absurd haccepts (by simpa using List.find?_eq_none.mp hfind s hs)
  | some scope => exact ⟨scope, nearest_eq_ok_iff.mpr hfind⟩

theorem clean_declareOwnName_iff (hs : ∃ s ∈ v.around, accepts s) :
    Act.Clean (v.declareOwnName accepts) ↔ ∃ x : Name, v.node.ownName = .ok x.toValue := by
  obtain ⟨scope, hscope⟩ := exists_nearest hs
  unfold declareOwnName
  rw [Act.clean_after_iff]
  simp only [hscope, Act.after]
  constructor
  · rintro ⟨name, hname, h⟩
    split at h
    · rename_i hnull
      obtain ⟨x, rfl⟩ := Value.exists_name_of_isNull hnull
      exact ⟨x, hname⟩
    · obtain ⟨x, rfl⟩ := Node.clean_declare_iff.mp h
      exact ⟨x, hname⟩
  · rintro ⟨x, hx⟩
    refine ⟨_, hx, ?_⟩
    split
    · exact Act.clean_nil
    · exact Node.clean_declare_iff.mpr ⟨x, rfl⟩

theorem clean_variableActs_iff (hs : ∃ s ∈ v.around, v.variableScope s) :
    Act.Clean v.variableActs ↔ ∃ ds, v.node.membersOf "declarations" = .ok ds ∧
      ∀ d ∈ ds, ∃ p, d.member "id" = .ok p ∧ (bound p).fault = none := by
  obtain ⟨scope, hscope⟩ := exists_nearest hs
  have hacts : Act.Clean v.variableActs ↔
      Act.Clean (Act.after (v.node.membersOf "declarations") fun declarators =>
        declarators.flatMap fun d =>
          Act.after (d.member "id") fun pattern => (bound pattern).acts scope.label) := by
    unfold variableScope isVar at hscope
    simp only [variableActs, hscope]
    rw [Act.after, Act.clean_cons_iff rfl, Act.clean_cons_iff rfl]
  rw [hacts]
  simp only [Act.clean_after_iff, Act.clean_flatMap_iff, Bound.clean_acts_iff]

theorem clean_tryActs_iff :
    Act.Clean v.tryActs ↔ v.node.field "handler" = .null ∨
      ∃ handler : Node, v.node.field "handler" = handler.toValue ∧
        ((handler.field "param").isNull = false → (bound (handler.field "param")).fault = none) := by
  constructor
  · intro h
    unfold tryActs at h
    split at h
    · rename_i hnull
      exact .inl hnull
    · rename_i label fields hh
      refine .inr ⟨⟨label, fields⟩, hh, fun hnull => ?_⟩
      have hclean := h.of_cons
      rw [if_neg (by simp [hnull]), Bound.clean_acts_iff] at hclean
      exact hclean
    · exact absurd List.mem_cons_self (h .wrongSort)
  · rintro (hnull | ⟨handler, hh, hparam⟩)
    · simp only [tryActs, hnull]
      exact Act.clean_nil
    · rw [tryActs_of_handler hh, Act.clean_cons_iff rfl]
      split
      · exact Act.clean_nil
      · rename_i hnull
        exact Bound.clean_acts_iff.mpr (hparam (by simpa using hnull))

theorem clean_importActs_iff :
    Act.Clean (v.importActs root) ↔
      ∃ (m : Node) (x : Name), v.node.field "local" = m.toValue ∧ m.Named x := by
  rw [importActs, Act.clean_after_iff]
  simp only [Node.clean_declare_iff, importedName_eq_ok_iff, Node.require_eq_ok_iff]
  constructor
  · rintro ⟨_, ⟨m, hl, hm⟩, x, rfl⟩
    exact ⟨m, x, hl, hm⟩
  · rintro ⟨m, x, hl, hm⟩
    exact ⟨_, ⟨m, hl, hm⟩, x, rfl⟩

theorem exists_isBlockScope_of_isScope (hs : ∃ s ∈ v.around, s.isScope) : ∃ s ∈ v.around, s.isBlockScope := by
  obtain ⟨s, hmem, hscope⟩ := hs
  exact ⟨s, hmem, Node.isBlockScope_of_isScope hscope⟩

theorem exists_variableScope_of_isScope (hs : ∃ s ∈ v.around, s.isScope) :
    ∃ s ∈ v.around, v.variableScope s := by
  unfold variableScope
  split
  · exact hs
  · exact exists_isBlockScope_of_isScope hs

/-- With a scope around, the declarations of a node are recorded if they can be read. -/
theorem clean_acts_iff (hs : ∃ s ∈ v.around, s.isScope) :
    Act.Clean (v.acts root) ↔ v.node.Readable v.kind := by
  have hblock := exists_isBlockScope_of_isScope hs
  have hvariable := exists_variableScope_of_isScope hs
  constructor
  · intro h
    exact
      { declarators := fun hk =>
          (clean_variableActs_iff hvariable).mp (clean_of_asks h fun _ => Asks.ofVariables hk)
        parameters := fun hk =>
          (Node.clean_functionActs_iff.mp (clean_of_asks h fun _ => Asks.ofFunction hk)).1
        ownName := by
          rintro (hk | hk)
          · exact (Node.clean_functionActs_iff.mp (clean_of_asks h fun _ => Asks.ofFunction hk)).2
          · exact Node.clean_classActs_iff.mp (clean_of_asks h fun _ => Asks.ofClass hk)
        handler := fun hk => clean_tryActs_iff.mp (clean_of_asks h fun _ => Asks.ofHandler hk)
        imported := fun hk => clean_importActs_iff.mp (clean_of_asks h fun _ => Asks.ofImport hk) }
  · intro h fault hf
    cases mem_acts_iff.mp hf with
    | ofVariables hk hact => exact (clean_variableActs_iff hvariable).mpr (h.declarators hk) fault hact
    | functionName hk hact =>
      have hname := h.ownName (.inl (by rw [hk]; rfl))
      exact (clean_declareOwnName_iff hs).mpr hname fault hact
    | className hk hact =>
      have hname := h.ownName (.inr (by rw [hk]; rfl))
      exact (clean_declareOwnName_iff hblock).mpr hname fault hact
    | ofFunction hk hact =>
      exact Node.clean_functionActs_iff.mpr ⟨h.parameters hk, h.ownName (.inl hk)⟩ fault hact
    | ofClass hk hact => exact Node.clean_classActs_iff.mpr (h.ownName (.inr hk)) fault hact
    | ofHandler hk hact => exact clean_tryActs_iff.mpr (h.handler hk) fault hact
    | ofImport hk hact => exact clean_importActs_iff.mpr (h.imported hk) fault hact

end Visit

/-! ### Programs -/

/-- All but the root of a tree is entered below the root. -/
theorem Node.root_mem_around {root : Node} {v : Visit} (hv : v ∈ root.entered) :
    (v.node = root ∧ v.around = []) ∨ root ∈ v.around := by
  have h := enters_of_mem_visits hv
  generalize hr : root.toValue = r at h
  cases h with
  | here hk =>
    obtain rfl := Node.toValue_injective hr
    exact .inl ⟨rfl, rfl⟩
  | through hk hw hx =>
    obtain rfl := Node.toValue_injective hr
    exact .inr (hx.suffix_around.subset (List.mem_singleton.mpr rfl))

theorem Tree.isProgram_iff {t : Tree} :
    t.isProgram ↔ ∃ n : Node, t.root = n.toValue ∧ n.kind? = some .program := by
  have htype : ∀ n : Node, n.type.isText Kind.program.name ↔ n.kind? = some .program := by
    intro n
    rw [Node.kind?_eq_some_iff]
    cases n.type <;> simp [Value.isText]
  unfold isProgram
  constructor
  · intro h
    split at h
    · rename_i n hn
      exact ⟨n, Value.node?_eq_some_iff.mp hn, (htype n).mp h⟩
    · cases h
  · rintro ⟨n, hn, hk⟩
    rw [hn, Node.node?_toValue]
    exact (htype n).mpr hk

/-- All that is met in a program is the program itself, or has a scope around. -/
theorem Node.program_or_isScope {n : Node} (hk : n.kind? = some .program) {v : Visit}
    (hv : v ∈ n.entered) : v.kind = .program ∨ ∃ s ∈ v.around, s.isScope := by
  rcases Node.root_mem_around hv with ⟨hnode, -⟩ | hroot
  · have h := Node.kind?_of_enteredKind (enters_of_mem_visits hv).enteredKind_eq
    rw [hnode, hk] at h
    exact .inl (Option.some.inj h).symm
  · exact .inr ⟨n, hroot, by simp [Node.isScope, Node.hasKind, hk, Kind.isScope]⟩

/-- A tree is built without a fault if the walk of it is without one and none of its declarations fails. -/
theorem buildScopes_fault_eq_none_iff_clean {tables : Tables} {n : Node} :
    (buildScopes tables n.toValue).2 = none ↔
      (visits n.toValue []).fault = none ∧ ∀ v ∈ n.entered, Act.Clean (v.acts n) := by
  rw [buildScopes_fault, ← Act.clean_iff_findSome?_eq_none, declarations_toValue, Act.Clean.append_iff,
    Act.clean_flatMap_iff, and_comm]
  refine and_congr_left fun _ => ?_
  cases (visits n.toValue []).fault with
  | none => exact iff_of_true Act.clean_nil rfl
  | some fault => exact iff_of_false (fun h => h fault (by simp)) (by simp)

/-- A program is built without a fault if the walk of it is without one and all its declarations can be
read. -/
theorem buildScopes_fault_eq_none_iff {tables : Tables} {n : Node} (hk : n.kind? = some .program) :
    (buildScopes tables n.toValue).2 = none ↔
      (visits n.toValue []).fault = none ∧ ∀ v ∈ n.entered, v.node.Readable v.kind := by
  have hvisit : ∀ v ∈ n.entered, (Act.Clean (v.acts n) ↔ v.node.Readable v.kind) := by
    intro v hv
    rcases Node.program_or_isScope hk hv with hkind | hs
    · rw [Visit.acts, hkind]
      refine iff_of_true Act.clean_nil ?_
      constructor <;> intro h <;> simp [Kind.isFunction, Kind.isClass, Kind.isImport] at h
    · exact Visit.clean_acts_iff hs
  rw [buildScopes_fault_eq_none_iff_clean, forall₂_congr hvisit]

/-! ### Searching for references -/

theorem Tables.slot?_eq_none_of_isEmpty {t : Tables} (h : t.slots.isEmpty) (label : Nat) :
    t.slot? label = none := by
  rw [slot?, List.isEmpty_iff.mp h, List.lookup_nil]

theorem Tables.holdSets_of_slot?_eq_none {t : Tables} (h : ∀ label, t.slot? label = none) : t.HoldSets := by
  intro label slot hslot
  cases (h label).symm.trans hslot

theorem Visit.answered_of_holdSets {tables : Tables} (hs : tables.HoldSets) (v : Visit) :
    v.Answered tables := by
  intro m _ x
  cases hslot : tables.slot? m.label with
  | none => exact ⟨_, Tables.binds_of_slot?_eq_none hslot⟩
  | some slot =>
    obtain ⟨set, rfl⟩ := hs _ _ hslot
    exact ⟨_, Tables.binds_of_slot?_eq_names hslot⟩

/-- Where all slots hold tables, they do so after a build. -/
theorem holdSets_buildScopes {tables : Tables} {root : Value} (hs : tables.HoldSets)
    (hf : (buildScopes tables root).2 = none) : (buildScopes tables root).1.tables.HoldSets := by
  intro label slot hslot
  by_cases hc : .create label ∈ declarations root
  · rw [slot?_buildScopes_of_create hf hc] at hslot
    exact ⟨_, (Option.some.inj hslot).symm⟩
  · rw [slot?_buildScopes_of_not_create hf hc] at hslot
    exact hs label slot hslot

theorem Visit.nameFault?_eq_none_iff {v : Visit} :
    v.nameFault? = none ↔ (v.kind = .identifier → ∃ x, v.node.Named x) := by
  by_cases hk : v.kind = .identifier
  · cases hname : v.node.require "name" >>= Value.asName with
    | error fault =>
      simp only [nameFault?, hk, hname, reduceCtorEq, forall_const, false_iff, not_exists]
      intro x hx
      cases hname.symm.trans (Node.name_eq_ok_iff.mpr hx)
    | ok x =>
      simp only [nameFault?, hk, hname, forall_const, true_iff]
      exact ⟨x, Node.name_eq_ok_iff.mp hname⟩
  · simp [nameFault?_of_kind_ne hk, hk]

/-- References are found if the walk is without a fault and every identifier has a name. -/
theorem exists_references_iff {tables : Tables} {n : Node} (hs : tables.HoldSets) :
    (∃ refs, references tables n.toValue = .ok refs) ↔
      (visits n.toValue []).fault = none ∧
        ∀ v ∈ n.entered, v.kind = .identifier → ∃ x, v.node.Named x := by
  have herror : ∀ fault, referencesOf tables n.entered = .error fault ↔
      n.entered.findSome? Visit.nameFault? = some fault :=
    fun fault => referencesOf_eq_error_iff fun v _ => Visit.answered_of_holdSets hs v
  have hok : (∃ refs, referencesOf tables n.entered = .ok refs) ↔
      n.entered.findSome? Visit.nameFault? = none := by
    cases hr : referencesOf tables n.entered with
    | error fault => simp [(herror fault).mp hr]
    | ok refs =>
      refine iff_of_true ⟨refs, rfl⟩ ?_
      cases hn : n.entered.findSome? Visit.nameFault? with
      | none => rfl
      | some fault => cases hr.symm.trans ((herror fault).mpr hn)
  simp only [references_eq_ok_iff, exists_and_right, hok, List.findSome?_eq_none_iff,
    Visit.nameFault?_eq_none_iff]
  exact and_comm

end FreeNames
