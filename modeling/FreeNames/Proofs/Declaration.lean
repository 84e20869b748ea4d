import FreeNames.Proofs.Building
import FreeNames.Proofs.Pattern

/-!
# What declarations bind, and where

`Visit.Declares` says which identifier a declaration binds in which node, kind of declaration by kind
of declaration; `Visit.Targets` says which nodes it gives a table. Neither speaks of acts, tables or
the order of declarations. Both are tied to the acts of a visit by one theorem each
(`Visit.bind_mem_acts_iff`, `Visit.create_mem_acts_iff`): acts that do not fail bind the names that
are declared, and create the tables of the targets.
-/

namespace FreeNames

namespace Kind

/-- Functions of all sorts. -/
def isFunction : Kind → Bool
  | functionDeclaration | functionExpression | arrowFunctionExpression => true
  | _ => false

/-- Classes of both sorts. -/
def isClass : Kind → Bool
  | classDeclaration | classExpression => true
  | _ => false

/-- The parts of an import declaration that bring in names. -/
def isImport : Kind → Bool
  | importSpecifier | importDefaultSpecifier | importNamespaceSpecifier => true
  | _ => false

end Kind

/-- A field of the node is an array that has a value among its items. -/
def Node.Lists (n : Node) (name : String) (v : Value) : Prop :=
  ∃ items, n.field name = .array items ∧ v ∈ items

/-- The node has a name of its own; a null is none. -/
def Node.OwnName (n : Node) (x : Name) : Prop :=
  ∃ m : Node, n.field "id" = m.toValue ∧ m.Named x ∧ x ≠ .null

namespace Visit

/-- The nearest node around a visit that a test accepts. -/
def Nearest (v : Visit) (accepts : Node → Bool) (scope : Node) : Prop :=
  v.around.find? accepts = some scope

/-- Whether a variable declaration binds into the nearest function and not into the nearest block. -/
def isVar (v : Visit) : Bool := (v.node.field "kind").isText "var"

/-- `v.Declares root scope m`: the declaration that is met as `v` in the tree below `root` binds the
identifier `m` in the node `scope`. -/
inductive Declares (root : Node) (v : Visit) : Node → Node → Prop where
  /-- The patterns of a `var` belong to the nearest function or the program. -/
  | var {scope d m : Node} (hk : v.kind = .variableDeclaration) (hv : v.isVar)
      (hs : v.Nearest Node.isScope scope) (hd : v.node.Lists "declarations" d.toValue)
      (hm : Leaf (d.field "id") m) : Declares root v scope m
  /-- The patterns of any other variable declaration belong to the nearest block. -/
  | lexical {scope d m : Node} (hk : v.kind = .variableDeclaration) (hv : v.isVar = false)
      (hs : v.Nearest Node.isBlockScope scope) (hd : v.node.Lists "declarations" d.toValue)
      (hm : Leaf (d.field "id") m) : Declares root v scope m
  /-- The name of a function declaration belongs to the nearest function or the program. -/
  | functionName {scope m : Node} (hk : v.kind = .functionDeclaration)
      (hid : v.node.field "id" = m.toValue) (hm : ¬ m.Named .null)
      (hs : v.Nearest Node.isScope scope) : Declares root v scope m
  /-- The name of a class declaration belongs to the nearest block. -/
  | className {scope m : Node} (hk : v.kind = .classDeclaration)
      (hid : v.node.field "id" = m.toValue) (hm : ¬ m.Named .null)
      (hs : v.Nearest Node.isBlockScope scope) : Declares root v scope m
  /-- The parameters of a function belong to it. -/
  | parameter {p : Value} {m : Node} (hk : v.kind.isFunction) (hp : v.node.Lists "params" p)
      (hm : Leaf p m) : Declares root v v.node m
  /-- Functions and classes know themselves by their own names. -/
  | ownName {m : Node} (hk : v.kind.isFunction ∨ v.kind.isClass)
      (hid : v.node.field "id" = m.toValue) (hm : ¬ m.Named .null) : Declares root v v.node m
  /-- A catch parameter belongs to its clause. -/
  | catchParameter {handler m : Node} (hk : v.kind = .tryStatement)
      (hh : v.node.field "handler" = handler.toValue) (hm : Leaf (handler.field "param") m) :
      Declares root v handler m
  /-- Imports belong to the root of the tree, wherever they stand. -/
  | importName {m : Node} (hk : v.kind.isImport) (hl : v.node.field "local" = m.toValue) :
      Declares root v root m

/-- `v.Binds root scope x`: the declaration that is met as `v` binds the name `x` in `scope`. -/
def Binds (root : Node) (v : Visit) (scope : Node) (x : Name) : Prop :=
  ∃ m, v.Declares root scope m ∧ m.Named x

/-- The node that is met as `v` has a name of its own. -/
def HasOwnName (v : Visit) : Prop := ∃ x, v.node.OwnName x

/-- `v.Targets root scope`: the node `scope` gets a table for what is met as `v`, even if nothing is
bound in it. -/
inductive Targets (root : Node) (v : Visit) : Node → Prop where
  /-- Functions and classes always have a table. -/
  | own (hk : v.kind.isFunction ∨ v.kind.isClass) : Targets root v v.node
  /-- So has the handler of a `try` statement. -/
  | handler {handler : Node} (hk : v.kind = .tryStatement)
      (hh : v.node.field "handler" = handler.toValue) : Targets root v handler
  /-- The scope of a `var`. -/
  | var {scope : Node} (hk : v.kind = .variableDeclaration) (hv : v.isVar)
      (hs : v.Nearest Node.isScope scope) : Targets root v scope
  /-- The scope of any other variable declaration. -/
  | lexical {scope : Node} (hk : v.kind = .variableDeclaration) (hv : v.isVar = false)
      (hs : v.Nearest Node.isBlockScope scope) : Targets root v scope
  /-- The scope of the name of a function declaration. -/
  | functionName {scope : Node} (hk : v.kind = .functionDeclaration) (hn : v.HasOwnName)
      (hs : v.Nearest Node.isScope scope) : Targets root v scope
  /-- The scope of the name of a class declaration. -/
  | className {scope : Node} (hk : v.kind = .classDeclaration) (hn : v.HasOwnName)
      (hs : v.Nearest Node.isBlockScope scope) : Targets root v scope
  /-- The root, where there is an import. -/
  | importName (hk : v.kind.isImport) : Targets root v root

end Visit

/-! ### Acts without a failure -/

namespace Act

/-- No act is a failure. -/
def Clean (acts : List Act) : Prop := ∀ fault, .fail fault ∉ acts

theorem clean_of_findSome?_eq_none {acts : List Act} (h : acts.findSome? fault? = none) : Clean acts := by
  intro fault hf
  have := List.findSome?_eq_none_iff.mp h _ hf
  simp [fault?] at this

namespace Clean

theorem append_iff {as bs : List Act} : Clean (as ++ bs) ↔ Clean as ∧ Clean bs := by
  simp only [Clean, List.mem_append, not_or]
  exact ⟨fun h => ⟨fun f => (h f).1, fun f => (h f).2⟩, fun h f => ⟨h.1 f, h.2 f⟩⟩

theorem subset {as bs : List Act} (h : Clean bs) (hs : as ⊆ bs) : Clean as :=
  fun fault hf => h fault (hs hf)

theorem of_cons {act : Act} {acts : List Act} (h : Clean (act :: acts)) : Clean acts :=
  h.subset (List.subset_cons_self _ _)

theorem of_mem_flatMap {α : Type} {l : List α} {f : α → List Act} (h : Clean (l.flatMap f)) {a : α}
    (ha : a ∈ l) : Clean (f a) :=
  fun fault hf => h fault (List.mem_flatMap.mpr ⟨a, ha, hf⟩)

/-- Where there is no failure, the value that acts follow from is there. -/
theorem exists_of_after {α : Type} {r : Except Fault α} {next : α → List Act}
    (h : Clean (Act.after r next)) : ∃ a, r = .ok a ∧ Clean (next a) := by
  cases r with
  | ok a => exact ⟨a, rfl, h⟩
  | error fault => exact absurd List.mem_cons_self (h fault)

end Clean

end Act

namespace Bound

variable {b : Bound} {label other : Nat} {x : Name}

theorem bind_mem_acts_iff : .bind other x ∈ b.acts label ↔ other = label ∧ x ∈ b.names := by
  simp only [acts, List.mem_append, List.mem_map, List.mem_flatMap, Act.bind.injEq]
  constructor
  · rintro (⟨y, hy, rfl, rfl⟩ | ⟨fault, -, h⟩)
    · exact ⟨rfl, hy⟩
    · rcases h with h | h
      · split at h <;> simp at h
      · simp at h
  · rintro ⟨rfl, hx⟩
    exact .inl ⟨x, hx, rfl, rfl⟩

theorem create_not_mem_acts : .create other ∉ b.acts label := by
  simp only [acts, List.mem_append, List.mem_map, List.mem_flatMap, not_or]
  refine ⟨by simp, ?_⟩
  rintro ⟨fault, -, h⟩
  rcases h with h | h
  · split at h <;> simp at h
  · simp at h

theorem fault_eq_none_of_clean (h : Act.Clean (b.acts label)) : b.fault = none := by
  cases hf : b.fault with
  | none => rfl
  | some fault =>
    refine absurd ?_ (h fault)
    simp [acts, hf]

end Bound

/-- Acts of a pattern that do not fail bind its leaves. -/
theorem bind_mem_acts_bound_iff {p : Value} {label other : Nat} {x : Name}
    (h : Act.Clean ((bound p).acts label)) :
    .bind other x ∈ (bound p).acts label ↔ other = label ∧ ∃ m, Leaf p m ∧ m.Named x := by
  rw [Bound.bind_mem_acts_iff, mem_names_bound_iff (Bound.fault_eq_none_of_clean h)]

theorem Value.bind_mem_bindActs_iff {v : Value} {label other : Nat} {x : Name} :
    .bind other x ∈ v.bindActs label ↔ other = label ∧ v = x.toValue := by
  rw [Value.bindActs, Bound.bind_mem_acts_iff, Bound.mem_names_ofName_iff, Except.ok.injEq]

theorem Value.create_not_mem_bindActs {v : Value} {label other : Nat} :
    .create other ∉ v.bindActs label := Bound.create_not_mem_acts

/-- An act other than a failure is among the acts that follow from a value if the value is there. -/
theorem Act.mem_after_iff {α : Type} {a : Act} {r : Except Fault α} {next : α → List Act}
    (h : a.fault? = none) : a ∈ Act.after r next ↔ ∃ b, r = .ok b ∧ a ∈ next b := by
  cases r with
  | ok b => simp [Act.after]
  | error fault =>
    simp only [Act.after, List.mem_singleton, reduceCtorEq, false_and, exists_false, iff_false]
    rintro rfl
    cases h

theorem Value.exists_of_member_eq_ok {v w : Value} {name : String} (h : v.member name = .ok w) :
    ∃ n : Node, v = n.toValue ∧ w = n.field name := by
  unfold Value.member at h
  split at h
  · rename_i n hn
    exact ⟨n, Value.node?_eq_some_iff.mp hn, (Node.field_of_require h).symm⟩
  · cases h

/-! ### Names of their own -/

theorem Name.toValue_injective {x y : Name} (h : x.toValue = y.toValue) : x = y := by
  have := congrArg Value.name? h
  simpa using this

theorem Name.isNull_toValue_iff {x : Name} : x.toValue.isNull = false ↔ x ≠ .null := by
  cases x <;> simp [Name.toValue, Value.isNull]

namespace Node

variable {n m : Node} {x y : Name}

theorem Named.eq (hx : m.Named x) (hy : m.Named y) : x = y :=
  Name.toValue_injective (Option.some.inj (hx.symm.trans hy))

theorem member_toValue_eq_ok_iff : m.toValue.member "name" = .ok x.toValue ↔ m.Named x := by
  simp only [Value.member, node?_toValue, require_eq_ok_iff, Named]

theorem ownName_iff : n.OwnName x ↔ ∃ m : Node, n.field "id" = m.toValue ∧ ¬ m.Named .null ∧ m.Named x := by
  constructor
  · rintro ⟨m, hid, hm, hx⟩
    exact ⟨m, hid, fun h => hx (hm.eq h), hm⟩
  · rintro ⟨m, hid, hnull, hm⟩
    exact ⟨m, hid, hm, fun h => hnull (h ▸ hm)⟩

theorem ownName_eq_ok_iff : n.ownName = .ok x.toValue ∧ x ≠ .null ↔ n.OwnName x := by
  unfold ownName
  constructor
  · rintro ⟨h, hx⟩
    simp only at h
    split at h
    · exact absurd (Name.toValue_injective (y := .null) (Except.ok.inj h).symm) hx
    · unfold Value.member at h
      split at h
      · rename_i m hm
        exact ⟨m, Value.node?_eq_some_iff.mp hm, require_eq_ok_iff.mp h, hx⟩
      · cases h
  · rintro ⟨m, hid, hm, hx⟩
    rw [hid]
    exact ⟨member_toValue_eq_ok_iff.mpr hm, hx⟩

theorem bind_mem_bindOwnName_iff {label : Nat} :
    .bind label x ∈ n.bindOwnName ↔ label = n.label ∧ n.OwnName x := by
  unfold bindOwnName
  rw [Act.mem_after_iff rfl, ← ownName_eq_ok_iff]
  constructor
  · rintro ⟨v, hv, h⟩
    split at h
    · simp at h
    · rename_i hnull
      obtain ⟨hl, rfl⟩ := Value.bind_mem_bindActs_iff.mp h
      exact ⟨hl, hv, Name.isNull_toValue_iff.mp (by simpa using hnull)⟩
  · rintro ⟨hl, hv, hx⟩
    refine ⟨_, hv, ?_⟩
    rw [if_neg (by simpa using Name.isNull_toValue_iff.mpr hx)]
    exact Value.bind_mem_bindActs_iff.mpr ⟨hl, rfl⟩

theorem create_not_mem_bindOwnName {label : Nat} : .create label ∉ n.bindOwnName := by
  unfold bindOwnName
  rw [Act.mem_after_iff rfl]
  rintro ⟨v, -, h⟩
  split at h
  · simp at h
  · exact Value.create_not_mem_bindActs h

theorem bind_mem_declare_iff {label : Nat} {v : Value} :
    .bind label x ∈ n.declare v ↔ label = n.label ∧ v = x.toValue := by
  simp only [declare, List.mem_cons, reduceCtorEq, false_or]
  exact Value.bind_mem_bindActs_iff

theorem create_mem_declare_iff {label : Nat} {v : Value} :
    .create label ∈ n.declare v ↔ label = n.label := by
  simp only [declare, List.mem_cons, reduceCtorEq, false_or, Act.create.injEq,
    Value.create_not_mem_bindActs, or_false]

theorem exists_eq_toValue_of_clean_declare {v : Value} (h : Act.Clean (n.declare v)) :
    ∃ x : Name, v = x.toValue := by
  have hf := Bound.fault_eq_none_of_clean h.of_cons.of_cons
  cases hv : v.name? with
  | none => simp [Bound.ofName, bind, Except.bind, Value.asName, hv] at hf
  | some x => exact ⟨x, Value.name?_eq_some_iff.mp hv⟩

/-- Objects among the members of a field are items of it. -/
theorem lists_toValue_iff {name : String} {l : List Value} (h : n.membersOf name = .ok l) :
    n.Lists name m.toValue ↔ m.toValue ∈ l := by
  constructor
  · rintro ⟨items, hitems, hmem⟩
    rw [membersOf_of_field_eq_array hitems] at h
    cases h
    exact hmem
  · intro hmem
    exact ⟨l, field_eq_array_of_membersOf h hmem, hmem⟩

/-! ### Functions and classes -/

theorem bind_mem_functionActs_iff {label : Nat} (h : Act.Clean n.functionActs) :
    .bind label x ∈ n.functionActs ↔
      label = n.label ∧
        ((∃ p m, n.Lists "params" p ∧ Leaf p m ∧ m.Named x) ∨ n.OwnName x) := by
  obtain ⟨params, hparams, hclean⟩ := h.of_cons.exists_of_after
  obtain ⟨hps, -⟩ := Act.Clean.append_iff.mp hclean
  have hacts : n.functionActs = .create n.label ::
      (params.flatMap (fun p => (bound p).acts n.label) ++ n.bindOwnName) := by
    simp only [functionActs, hparams, Act.after]
  rw [hacts]
  simp only [List.mem_cons, reduceCtorEq, false_or, List.mem_append, List.mem_flatMap,
    bind_mem_bindOwnName_iff]
  constructor
  · rintro (⟨p, hp, hb⟩ | ⟨hl, hx⟩)
    · obtain ⟨hl, m, hm, hx⟩ := (bind_mem_acts_bound_iff (hps.of_mem_flatMap hp)).mp hb
      obtain ⟨q, rfl⟩ := hm.exists_eq_toValue
      exact ⟨hl, .inl ⟨_, m, (lists_toValue_iff hparams).mpr hp, hm, hx⟩⟩
    · exact ⟨hl, .inr hx⟩
  · rintro ⟨hl, ⟨p, m, hp, hm, hx⟩ | hx⟩
    · obtain ⟨q, rfl⟩ := hm.exists_eq_toValue
      have hp := (lists_toValue_iff hparams).mp hp
      exact .inl ⟨_, hp, (bind_mem_acts_bound_iff (hps.of_mem_flatMap hp)).mpr ⟨hl, m, hm, hx⟩⟩
    · exact .inr ⟨hl, hx⟩

theorem create_mem_functionActs_iff {label : Nat} :
    .create label ∈ n.functionActs ↔ label = n.label := by
  simp only [functionActs, List.mem_cons, Act.create.injEq, or_iff_left_iff_imp]
  rw [Act.mem_after_iff rfl]
  rintro ⟨params, -, h⟩
  simp [create_not_mem_bindOwnName, Bound.create_not_mem_acts] at h

theorem bind_mem_classActs_iff {label : Nat} :
    .bind label x ∈ n.classActs ↔ label = n.label ∧ n.OwnName x := by
  simp only [classActs, List.mem_cons, reduceCtorEq, false_or, bind_mem_bindOwnName_iff]

theorem create_mem_classActs_iff {label : Nat} : .create label ∈ n.classActs ↔ label = n.label := by
  simp only [classActs, List.mem_cons, Act.create.injEq, create_not_mem_bindOwnName, or_false]

end Node

/-! ### Declarations in a scope around -/

namespace Visit

variable {v : Visit} {root scope : Node} {accepts : Node → Bool} {label : Nat} {x : Name}

theorem nearest_eq_ok_iff : v.nearest accepts = .ok scope ↔ v.Nearest accepts scope := by
  unfold nearest Nearest
  split <;> rename_i h <;> simp [h]

theorem bind_mem_declareOwnName_iff :
    .bind label x ∈ v.declareOwnName accepts ↔
      v.node.OwnName x ∧ ∃ scope, v.Nearest accepts scope ∧ label = scope.label := by
  unfold declareOwnName
  rw [Act.mem_after_iff rfl, ← Node.ownName_eq_ok_iff]
  constructor
  · rintro ⟨name, hname, h⟩
    split at h
    · simp at h
    · rename_i hnull
      obtain ⟨scope, hs, h⟩ := (Act.mem_after_iff rfl).mp h
      obtain ⟨hl, rfl⟩ := Node.bind_mem_declare_iff.mp h
      refine ⟨⟨hname, Name.isNull_toValue_iff.mp (by simpa using hnull)⟩, scope, ?_, hl⟩
      exact nearest_eq_ok_iff.mp hs
  · rintro ⟨⟨hname, hx⟩, scope, hs, hl⟩
    refine ⟨_, hname, ?_⟩
    rw [if_neg (by simpa using Name.isNull_toValue_iff.mpr hx), Act.mem_after_iff rfl]
    exact ⟨scope, nearest_eq_ok_iff.mpr hs, Node.bind_mem_declare_iff.mpr ⟨hl, rfl⟩⟩

theorem create_mem_declareOwnName_iff (h : Act.Clean (v.declareOwnName accepts)) :
    .create label ∈ v.declareOwnName accepts ↔
      v.HasOwnName ∧ ∃ scope, v.Nearest accepts scope ∧ label = scope.label := by
  constructor
  · intro hc
    obtain ⟨name, hname, hclean⟩ := h.exists_of_after
    obtain ⟨name', hname', hc⟩ := (Act.mem_after_iff rfl).mp hc
    rw [hname] at hname'
    cases hname'
    split at hc
    · simp at hc
    · rename_i hnull
      rw [if_neg hnull] at hclean
      obtain ⟨scope, hs, hclean⟩ := hclean.exists_of_after
      obtain ⟨y, rfl⟩ := Node.exists_eq_toValue_of_clean_declare hclean
      have hy : y ≠ .null := Name.isNull_toValue_iff.mp (by simpa using hnull)
      rw [hs] at hc
      exact ⟨⟨y, Node.ownName_eq_ok_iff.mp ⟨hname, hy⟩⟩, scope, nearest_eq_ok_iff.mp hs,
        Node.create_mem_declare_iff.mp hc⟩
  · rintro ⟨⟨y, hy⟩, scope, hs, hl⟩
    obtain ⟨hname, hy⟩ := Node.ownName_eq_ok_iff.mpr hy
    refine (Act.mem_after_iff rfl).mpr ⟨_, hname, ?_⟩
    rw [if_neg (by simpa using Name.isNull_toValue_iff.mpr hy), Act.mem_after_iff rfl]
    exact ⟨scope, nearest_eq_ok_iff.mpr hs, Node.create_mem_declare_iff.mpr hl⟩

/-- The test for the scope that a variable declaration binds into. -/
def variableScope (v : Visit) : Node → Bool := if v.isVar then Node.isScope else Node.isBlockScope

theorem declares_of_variableScope {d m : Node} (hk : v.kind = .variableDeclaration)
    (hs : v.Nearest v.variableScope scope) (hd : v.node.Lists "declarations" d.toValue)
    (hm : Leaf (d.field "id") m) : v.Declares root scope m := by
  cases hv : v.isVar with
  | true => exact .var hk hv (by simpa [variableScope, hv] using hs) hd hm
  | false => exact .lexical hk hv (by simpa [variableScope, hv] using hs) hd hm

/-- A variable declaration that does not fail has a scope. -/
theorem exists_variableScope (h : Act.Clean v.variableActs) : ∃ scope, v.Nearest v.variableScope scope := by
  obtain ⟨scope, hs, -⟩ := h.exists_of_after
  exact ⟨scope, nearest_eq_ok_iff.mp hs⟩

theorem bind_mem_variableActs_iff (h : Act.Clean v.variableActs) :
    .bind label x ∈ v.variableActs ↔
      ∃ scope, v.Nearest v.variableScope scope ∧ label = scope.label ∧
        ∃ d m : Node, v.node.Lists "declarations" d.toValue ∧ Leaf (d.field "id") m ∧ m.Named x := by
  obtain ⟨scope, hs, hclean⟩ := h.exists_of_after
  obtain ⟨ds, hds, hclean⟩ := hclean.of_cons.of_cons.exists_of_after
  have hacts : .bind label x ∈ v.variableActs ↔
      ∃ d ∈ ds, ∃ p, d.member "id" = .ok p ∧ .bind label x ∈ (bound p).acts scope.label := by
    simp only [variableActs, hs, hds, Act.after.eq_1, List.mem_cons, reduceCtorEq, false_or,
      List.mem_flatMap, Act.mem_after_iff (a := .bind label x) rfl]
  rw [hacts]
  constructor
  · rintro ⟨d, hd, p, hp, hb⟩
    obtain ⟨p', hp', hpc⟩ := (hclean.of_mem_flatMap hd).exists_of_after
    cases hp.symm.trans hp'
    obtain ⟨hl, m, hm, hx⟩ := (bind_mem_acts_bound_iff hpc).mp hb
    obtain ⟨d, rfl, rfl⟩ := Value.exists_of_member_eq_ok hp
    exact ⟨scope, nearest_eq_ok_iff.mp hs, hl, d, m, (Node.lists_toValue_iff hds).mpr hd, hm, hx⟩
  · rintro ⟨scope', hs', hl, d, m, hd, hm, hx⟩
    cases hs.symm.trans (nearest_eq_ok_iff.mpr hs')
    have hd := (Node.lists_toValue_iff hds).mp hd
    obtain ⟨p, hp, hpc⟩ := (hclean.of_mem_flatMap hd).exists_of_after
    obtain ⟨d', hd', rfl⟩ := Value.exists_of_member_eq_ok hp
    obtain rfl := Node.toValue_injective hd'
    exact ⟨_, hd, _, hp, (bind_mem_acts_bound_iff hpc).mpr ⟨hl, m, hm, hx⟩⟩

theorem create_mem_variableActs_iff :
    .create label ∈ v.variableActs ↔ ∃ scope, v.Nearest v.variableScope scope ∧ label = scope.label := by
  unfold variableActs
  rw [Act.mem_after_iff rfl]
  constructor
  · rintro ⟨scope, hs, h⟩
    refine ⟨scope, nearest_eq_ok_iff.mp hs, ?_⟩
    rcases List.mem_cons.mp h with h | h
    · cases h
    · rcases List.mem_cons.mp h with h | h
      · exact Act.create.inj h
      · obtain ⟨ds, -, h⟩ := (Act.mem_after_iff rfl).mp h
        obtain ⟨d, -, h⟩ := List.mem_flatMap.mp h
        obtain ⟨p, -, h⟩ := (Act.mem_after_iff rfl).mp h
        exact absurd h Bound.create_not_mem_acts
  · rintro ⟨scope, hs, rfl⟩
    exact ⟨scope, nearest_eq_ok_iff.mpr hs, List.mem_cons_of_mem _ List.mem_cons_self⟩

/-! ### Handlers and imports -/

theorem tryActs_of_handler {handler : Node} (h : v.node.field "handler" = handler.toValue) :
    v.tryActs = .create handler.label ::
      if (handler.field "param").isNull then [] else (bound (handler.field "param")).acts handler.label := by
  simp only [tryActs, h, Node.toValue]

theorem exists_handler_of_mem_tryActs {act : Act} (hact : act.fault? = none) (h : act ∈ v.tryActs) :
    ∃ handler : Node, v.node.field "handler" = handler.toValue := by
  unfold tryActs at h
  split at h
  · simp at h
  · rename_i label fields hh
    exact ⟨⟨label, fields⟩, hh⟩
  · obtain rfl := List.mem_singleton.mp h
    cases hact

theorem bind_mem_tryActs_iff (h : Act.Clean v.tryActs) :
    .bind label x ∈ v.tryActs ↔
      ∃ handler : Node, v.node.field "handler" = handler.toValue ∧ label = handler.label ∧
        ∃ m, Leaf (handler.field "param") m ∧ m.Named x := by
  constructor
  · intro hb
    obtain ⟨handler, hh⟩ := exists_handler_of_mem_tryActs rfl hb
    rw [tryActs_of_handler hh] at hb h
    rcases List.mem_cons.mp hb with hb | hb
    · cases hb
    · have hclean := h.of_cons
      split at hb
      · simp at hb
      · rename_i hnull
        rw [if_neg hnull] at hclean
        obtain ⟨hl, m, hm, hx⟩ := (bind_mem_acts_bound_iff hclean).mp hb
        exact ⟨handler, hh, hl, m, hm, hx⟩
  · rintro ⟨handler, hh, hl, m, hm, hx⟩
    obtain ⟨q, hq⟩ := hm.exists_eq_toValue
    rw [tryActs_of_handler hh, hq, if_neg (by simp [Node.toValue, Value.isNull])] at h ⊢
    exact List.mem_cons_of_mem _ ((bind_mem_acts_bound_iff h.of_cons).mpr ⟨hl, m, hq ▸ hm, hx⟩)

theorem create_mem_tryActs_iff :
    .create label ∈ v.tryActs ↔
      ∃ handler : Node, v.node.field "handler" = handler.toValue ∧ label = handler.label := by
  constructor
  · intro hc
    obtain ⟨handler, hh⟩ := exists_handler_of_mem_tryActs rfl hc
    rw [tryActs_of_handler hh] at hc
    refine ⟨handler, hh, ?_⟩
    rcases List.mem_cons.mp hc with hc | hc
    · exact Act.create.inj hc
    · split at hc
      · simp at hc
      · exact absurd hc Bound.create_not_mem_acts
  · rintro ⟨handler, hh, rfl⟩
    rw [tryActs_of_handler hh]
    exact List.mem_cons_self

/-- The value that an import specifier brings in. -/
theorem importedName_eq_ok_iff {n : Node} {name : Value} :
    (do (← n.require "local").member "name") = .ok name ↔
      ∃ m : Node, n.field "local" = m.toValue ∧ m.require "name" = .ok name := by
  constructor
  · intro h
    cases hr : n.require "local" with
    | error fault => simp [hr, bind, Except.bind] at h
    | ok w =>
      simp only [hr, bind, Except.bind, Value.member] at h
      split at h
      · rename_i m hm
        exact ⟨m, (Node.field_of_require hr).trans (Value.node?_eq_some_iff.mp hm), h⟩
      · cases h
  · rintro ⟨m, hl, hm⟩
    have hr : n.require "local" = .ok m.toValue := by
      unfold Node.field at hl
      rw [Node.require_eq_ok_iff]
      cases hlookup : n.fields.lookup "local" with
      | none => simp [hlookup, Node.toValue] at hl
      | some w => simpa [hlookup] using hl
    simp [hr, bind, Except.bind, Value.member, hm]

theorem bind_mem_importActs_iff :
    .bind label x ∈ v.importActs root ↔
      label = root.label ∧ ∃ m : Node, v.node.field "local" = m.toValue ∧ m.Named x := by
  unfold importActs
  rw [Act.mem_after_iff rfl]
  simp only [importedName_eq_ok_iff, Node.bind_mem_declare_iff]
  constructor
  · rintro ⟨_, ⟨m, hl, hm⟩, hlabel, rfl⟩
    exact ⟨hlabel, m, hl, Node.require_eq_ok_iff.mp hm⟩
  · rintro ⟨hlabel, m, hl, hm⟩
    exact ⟨_, ⟨m, hl, Node.require_eq_ok_iff.mpr hm⟩, hlabel, rfl⟩

theorem create_mem_importActs_iff (h : Act.Clean (v.importActs root)) :
    .create label ∈ v.importActs root ↔ label = root.label := by
  obtain ⟨name, hname, -⟩ := h.exists_of_after
  unfold importActs
  rw [hname, Act.mem_after_iff rfl]
  simp [Node.create_mem_declare_iff]

/-! ### All declarations -/

/-- `v.Asks root act`: the act is one of those that what is met as `v` asks for. -/
inductive Asks (root : Node) (v : Visit) (act : Act) : Prop where
  | ofVariables (hk : v.kind = .variableDeclaration) (h : act ∈ v.variableActs)
  | functionName (hk : v.kind = .functionDeclaration) (h : act ∈ v.declareOwnName Node.isScope)
  | className (hk : v.kind = .classDeclaration) (h : act ∈ v.declareOwnName Node.isBlockScope)
  | ofFunction (hk : v.kind.isFunction) (h : act ∈ v.node.functionActs)
  | ofClass (hk : v.kind.isClass) (h : act ∈ v.node.classActs)
  | ofHandler (hk : v.kind = .tryStatement) (h : act ∈ v.tryActs)
  | ofImport (hk : v.kind.isImport) (h : act ∈ v.importActs root)

theorem mem_acts_iff {act : Act} : act ∈ v.acts root ↔ v.Asks root act := by
  constructor
  · intro h
    unfold acts at h
    split at h <;> rename_i hk
    · exact .ofVariables hk h
    · rcases List.mem_append.mp h with h | h
      · exact .functionName hk h
      · exact .ofFunction (by rw [hk]; rfl) h
    · exact .ofFunction (by rw [hk]; rfl) h
    · exact .ofFunction (by rw [hk]; rfl) h
    · rcases List.mem_append.mp h with h | h
      · exact .className hk h
      · exact .ofClass (by rw [hk]; rfl) h
    · exact .ofClass (by rw [hk]; rfl) h
    · exact .ofHandler hk h
    · exact .ofImport (by rw [hk]; rfl) h
    · exact .ofImport (by rw [hk]; rfl) h
    · exact .ofImport (by rw [hk]; rfl) h
    · exact absurd h List.not_mem_nil
  · intro h
    unfold acts
    cases h with
    | ofVariables hk h => simpa only [hk] using h
    | functionName hk h => simpa only [hk] using List.mem_append_left _ h
    | className hk h => simpa only [hk] using List.mem_append_left _ h
    | ofFunction hk h => cases hv : v.kind <;> simp_all [Kind.isFunction]
    | ofClass hk h => cases hv : v.kind <;> simp_all [Kind.isClass]
    | ofHandler hk h => simpa only [hk] using h
    | ofImport hk h => cases hv : v.kind <;> simp_all [Kind.isImport]

/-- Acts that are asked for do not fail if no act of the visit does. -/
theorem clean_of_asks {acts : List Act} (h : Act.Clean (v.acts root))
    (hasks : ∀ act ∈ acts, v.Asks root act) : Act.Clean acts :=
  h.subset fun act hact => mem_acts_iff.mpr (hasks act hact)

/-- Acts that do not fail bind the names that are declared. -/
theorem bind_mem_acts_iff (h : Act.Clean (v.acts root)) :
    .bind label x ∈ v.acts root ↔ ∃ scope, v.Binds root scope x ∧ label = scope.label := by
  rw [mem_acts_iff]
  constructor
  · intro hasks
    cases hasks with
    | ofVariables hk hb =>
      have hclean := clean_of_asks h fun _ => Asks.ofVariables hk
      obtain ⟨scope, hs, hl, d, m, hd, hm, hx⟩ := (bind_mem_variableActs_iff hclean).mp hb
      exact ⟨scope, ⟨m, declares_of_variableScope hk hs hd hm, hx⟩, hl⟩
    | functionName hk hb =>
      obtain ⟨hx, scope, hs, hl⟩ := bind_mem_declareOwnName_iff.mp hb
      obtain ⟨m, hid, hm, hx⟩ := Node.ownName_iff.mp hx
      exact ⟨scope, ⟨m, .functionName hk hid hm hs, hx⟩, hl⟩
    | className hk hb =>
      obtain ⟨hx, scope, hs, hl⟩ := bind_mem_declareOwnName_iff.mp hb
      obtain ⟨m, hid, hm, hx⟩ := Node.ownName_iff.mp hx
      exact ⟨scope, ⟨m, .className hk hid hm hs, hx⟩, hl⟩
    | ofFunction hk hb =>
      have hclean := clean_of_asks h fun _ => Asks.ofFunction hk
      obtain ⟨hl, ⟨p, m, hp, hm, hx⟩ | hx⟩ := (Node.bind_mem_functionActs_iff hclean).mp hb
      · exact ⟨v.node, ⟨m, .parameter hk hp hm, hx⟩, hl⟩
      · obtain ⟨m, hid, hm, hx⟩ := Node.ownName_iff.mp hx
        exact ⟨v.node, ⟨m, .ownName (.inl hk) hid hm, hx⟩, hl⟩
    | ofClass hk hb =>
      obtain ⟨hl, hx⟩ := Node.bind_mem_classActs_iff.mp hb
      obtain ⟨m, hid, hm, hx⟩ := Node.ownName_iff.mp hx
      exact ⟨v.node, ⟨m, .ownName (.inr hk) hid hm, hx⟩, hl⟩
    | ofHandler hk hb =>
      have hclean := clean_of_asks h fun _ => Asks.ofHandler hk
      obtain ⟨handler, hh, hl, m, hm, hx⟩ := (bind_mem_tryActs_iff hclean).mp hb
      exact ⟨handler, ⟨m, .catchParameter hk hh hm, hx⟩, hl⟩
    | ofImport hk hb =>
      obtain ⟨hl, m, hlocal, hx⟩ := bind_mem_importActs_iff.mp hb
      exact ⟨root, ⟨m, .importName hk hlocal, hx⟩, hl⟩
  · rintro ⟨scope, ⟨m, hd, hx⟩, hl⟩
    cases hd with
    | var hk hv hs hd hm =>
      have hclean := clean_of_asks h fun _ => Asks.ofVariables hk
      have hs : v.Nearest v.variableScope scope := by simpa [variableScope, hv] using hs
      exact .ofVariables hk ((bind_mem_variableActs_iff hclean).mpr ⟨scope, hs, hl, _, m, hd, hm, hx⟩)
    | lexical hk hv hs hd hm =>
      have hclean := clean_of_asks h fun _ => Asks.ofVariables hk
      have hs : v.Nearest v.variableScope scope := by simpa [variableScope, hv] using hs
      exact .ofVariables hk ((bind_mem_variableActs_iff hclean).mpr ⟨scope, hs, hl, _, m, hd, hm, hx⟩)
    | functionName hk hid hm hs =>
      have hown := Node.ownName_iff.mpr ⟨m, hid, hm, hx⟩
      exact .functionName hk (bind_mem_declareOwnName_iff.mpr ⟨hown, scope, hs, hl⟩)
    | className hk hid hm hs =>
      have hown := Node.ownName_iff.mpr ⟨m, hid, hm, hx⟩
      exact .className hk (bind_mem_declareOwnName_iff.mpr ⟨hown, scope, hs, hl⟩)
    | parameter hk hp hm =>
      have hclean := clean_of_asks h fun _ => Asks.ofFunction hk
      exact .ofFunction hk ((Node.bind_mem_functionActs_iff hclean).mpr ⟨hl, .inl ⟨_, m, hp, hm, hx⟩⟩)
    | ownName hk hid hm =>
      have hown := Node.ownName_iff.mpr ⟨m, hid, hm, hx⟩
      rcases hk with hk | hk
      · have hclean := clean_of_asks h fun _ => Asks.ofFunction hk
        exact .ofFunction hk ((Node.bind_mem_functionActs_iff hclean).mpr ⟨hl, .inr hown⟩)
      · exact .ofClass hk (Node.bind_mem_classActs_iff.mpr ⟨hl, hown⟩)
    | catchParameter hk hh hm =>
      have hclean := clean_of_asks h fun _ => Asks.ofHandler hk
      exact .ofHandler hk ((bind_mem_tryActs_iff hclean).mpr ⟨_, hh, hl, m, hm, hx⟩)
    | importName hk hlocal => exact .ofImport hk (bind_mem_importActs_iff.mpr ⟨hl, m, hlocal, hx⟩)

/-- Acts that do not fail create the tables of the targets. -/
theorem create_mem_acts_iff (h : Act.Clean (v.acts root)) :
    .create label ∈ v.acts root ↔ ∃ scope, v.Targets root scope ∧ label = scope.label := by
  rw [mem_acts_iff]
  constructor
  · intro hasks
    cases hasks with
    | ofVariables hk hc =>
      obtain ⟨scope, hs, hl⟩ := create_mem_variableActs_iff.mp hc
      refine ⟨scope, ?_, hl⟩
      cases hv : v.isVar with
      | true => exact .var hk hv (by simpa [variableScope, hv] using hs)
      | false => exact .lexical hk hv (by simpa [variableScope, hv] using hs)
    | functionName hk hc =>
      have hclean := clean_of_asks h fun _ => Asks.functionName hk
      obtain ⟨hn, scope, hs, hl⟩ := (create_mem_declareOwnName_iff hclean).mp hc
      exact ⟨scope, .functionName hk hn hs, hl⟩
    | className hk hc =>
      have hclean := clean_of_asks h fun _ => Asks.className hk
      obtain ⟨hn, scope, hs, hl⟩ := (create_mem_declareOwnName_iff hclean).mp hc
      exact ⟨scope, .className hk hn hs, hl⟩
    | ofFunction hk hc => exact ⟨v.node, .own (.inl hk), Node.create_mem_functionActs_iff.mp hc⟩
    | ofClass hk hc => exact ⟨v.node, .own (.inr hk), Node.create_mem_classActs_iff.mp hc⟩
    | ofHandler hk hc =>
      obtain ⟨handler, hh, hl⟩ := create_mem_tryActs_iff.mp hc
      exact ⟨handler, .handler hk hh, hl⟩
    | ofImport hk hc =>
      have hclean := clean_of_asks h fun _ => Asks.ofImport hk
      exact ⟨root, .importName hk, (create_mem_importActs_iff hclean).mp hc⟩
  · rintro ⟨scope, ht, hl⟩
    cases ht with
    | own hk =>
      rcases hk with hk | hk
      · exact .ofFunction hk (Node.create_mem_functionActs_iff.mpr hl)
      · exact .ofClass hk (Node.create_mem_classActs_iff.mpr hl)
    | handler hk hh => exact .ofHandler hk (create_mem_tryActs_iff.mpr ⟨_, hh, hl⟩)
    | var hk hv hs =>
      have hs : v.Nearest v.variableScope scope := by simpa [variableScope, hv] using hs
      exact .ofVariables hk (create_mem_variableActs_iff.mpr ⟨scope, hs, hl⟩)
    | lexical hk hv hs =>
      have hs : v.Nearest v.variableScope scope := by simpa [variableScope, hv] using hs
      exact .ofVariables hk (create_mem_variableActs_iff.mpr ⟨scope, hs, hl⟩)
    | functionName hk hn hs =>
      have hclean := clean_of_asks h fun _ => Asks.functionName hk
      exact .functionName hk ((create_mem_declareOwnName_iff hclean).mpr ⟨hn, scope, hs, hl⟩)
    | className hk hn hs =>
      have hclean := clean_of_asks h fun _ => Asks.className hk
      exact .className hk ((create_mem_declareOwnName_iff hclean).mpr ⟨hn, scope, hs, hl⟩)
    | importName hk =>
      have hclean := clean_of_asks h fun _ => Asks.ofImport hk
      exact .ofImport hk ((create_mem_importActs_iff hclean).mpr hl)

end Visit

end FreeNames
