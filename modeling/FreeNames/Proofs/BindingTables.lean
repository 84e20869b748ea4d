import FreeNames.Proofs.Declaration

/-!
# The tables after building

Which nodes of a tree have a table of their own is a matter of its declarations (`Node.IsTarget`), and
so is which names a table holds (`Node.Declared`). A build that succeeds leaves exactly these tables:
each target has the set of the names that are declared in it, whatever its slot held before, and no
other slot is touched. Apart from the tables, nothing in the tree changes.
-/

namespace FreeNames

/-! ### Writing trees down -/

/-- An object of a kind, as plain data: its label is still to be given. -/
def Kind.object (k : Kind) (fields : List (String × Value)) : Value :=
  .object 0 (("type", .text k.name) :: fields)

/-- An identifier as plain data. -/
def Value.identifier (name : String) : Value := Kind.identifier.object [("name", .text name)]

/-- The statement that consists of an identifier, as plain data. -/
def Value.identifierStatement (name : String) : Value :=
  Kind.expressionStatement.object [("expression", .identifier name)]

/-- The program of some statements that are plain data. -/
def Tree.ofStatements (body : List Value) : Tree := .ofValue (Kind.program.object [("body", .array body)])

/-! ### Targets and declared names -/

namespace Node

/-- What a walk of the tree below `root` meets, in order. -/
def entered (root : Node) : List Visit := (visits root.toValue []).visits

/-- Some declaration in the tree below `root` gives the node `n` a table. -/
def IsTarget (root n : Node) : Prop := ∃ v ∈ root.entered, v.Targets root n

/-- Some declaration in the tree below `root` binds the name `x` in the node `n`. Names of one key are
the same name. -/
def Declared (root n : Node) (x : Name) : Prop := ∃ v ∈ root.entered, ∃ y, v.Binds root n y ∧ y.key = x.key

end Node

/-! ### Targets are nodes of the tree -/

namespace Visit

variable {root scope m : Node} {v : Visit}

theorem Nearest.mem_around {accepts : Node → Bool} (h : v.Nearest accepts scope) : scope ∈ v.around :=
  List.mem_of_find?_eq_some h

theorem Targets.mem_nodes (h : v.Targets root scope) (hv : v ∈ root.entered) :
    scope ∈ root.toValue.nodes := by
  have hin := enters_of_mem_visits hv
  have haround : ∀ {accepts : Node → Bool}, v.Nearest accepts scope → scope ∈ root.toValue.nodes := by
    intro accepts hs
    exact (hin.mem_nodes_of_mem_around hs.mem_around).resolve_left List.not_mem_nil
  cases h with
  | own _ => exact hin.mem_nodes
  | handler _ hh =>
    refine Value.nodes_subset hin.mem_nodes (List.mem_cons_of_mem _ ?_)
    exact Node.mem_nodesOfFields_of_field hh (Value.mem_nodes_toValue scope)
  | var _ _ hs => exact haround hs
  | lexical _ _ hs => exact haround hs
  | functionName _ _ hs => exact haround hs
  | className _ _ hs => exact haround hs
  | importName _ => exact Value.mem_nodes_toValue root

/-- A name is bound in targets only. -/
theorem Binds.targets {x : Name} (h : v.Binds root scope x) : v.Targets root scope := by
  obtain ⟨m, hd, hx⟩ := h
  cases hd with
  | var hk hv hs _ _ => exact .var hk hv hs
  | lexical hk hv hs _ _ => exact .lexical hk hv hs
  | functionName hk hid hm hs => exact .functionName hk ⟨x, Node.ownName_iff.mpr ⟨m, hid, hm, hx⟩⟩ hs
  | className hk hid hm hs => exact .className hk ⟨x, Node.ownName_iff.mpr ⟨m, hid, hm, hx⟩⟩ hs
  | parameter hk _ _ => exact .own (.inl hk)
  | ownName hk _ _ => exact .own hk
  | catchParameter hk hh _ => exact .handler hk hh
  | importName hk _ => exact .importName hk

end Visit

theorem Node.IsTarget.mem_nodes {root n : Node} (h : root.IsTarget n) : n ∈ root.toValue.nodes := by
  obtain ⟨v, hv, ht⟩ := h
  exact ht.mem_nodes hv

theorem Node.Declared.isTarget {root n : Node} {x : Name} (h : root.Declared n x) : root.IsTarget n := by
  obtain ⟨v, hv, y, hb, -⟩ := h
  exact ⟨v, hv, hb.targets⟩

/-! ### All acts of a tree -/

theorem declarations_toValue (n : Node) :
    declarations n.toValue =
      n.entered.flatMap (Visit.acts n) ++ (visits n.toValue []).fault.toList.map .fail := by
  have hwalk : walk n.toValue = visits n.toValue [] := walk_eq_visits rfl
  simp only [declarations, hwalk, Node.node?_toValue, Node.entered]

theorem declarations_of_fault_eq_none {n : Node} (h : (visits n.toValue []).fault = none) :
    declarations n.toValue = n.entered.flatMap (Visit.acts n) := by
  rw [declarations_toValue, h]
  exact List.append_nil _

/-- Only a tree that is a node can be built on, and then nothing in it fails. -/
theorem exists_node_of_build {tables : Tables} {root : Value}
    (hf : (buildScopes tables root).2 = none) :
    ∃ n : Node, root = n.toValue ∧ (visits root []).fault = none ∧
      Act.Clean (n.entered.flatMap (Visit.acts n)) := by
  rw [buildScopes_fault] at hf
  have hclean := Act.clean_of_findSome?_eq_none hf
  cases hn : root.node? with
  | some n =>
    obtain rfl := Value.node?_eq_some_iff.mp hn
    rw [declarations_toValue, Act.Clean.append_iff] at hclean
    refine ⟨n, rfl, ?_, hclean.1⟩
    cases hfault : (visits n.toValue []).fault with
    | none => rfl
    | some fault => exact absurd (by simp [hfault]) (hclean.2 fault)
  | none =>
    obtain ⟨fault, hfault⟩ := exists_walk_fault hn
    refine absurd ?_ (hclean fault)
    simp [declarations, hfault]

section

variable {n : Node} {label : Nat} (h : Act.Clean (n.entered.flatMap (Visit.acts n)))
include h

theorem create_mem_declarations_iff :
    .create label ∈ declarations n.toValue ↔ ∃ scope, n.IsTarget scope ∧ label = scope.label := by
  rw [declarations_toValue]
  simp only [List.mem_append, List.mem_map, reduceCtorEq, and_false, exists_false, or_false,
    List.mem_flatMap]
  constructor
  · rintro ⟨v, hv, hc⟩
    obtain ⟨scope, ht, hl⟩ := (Visit.create_mem_acts_iff (h.of_mem_flatMap hv)).mp hc
    exact ⟨scope, ⟨v, hv, ht⟩, hl⟩
  · rintro ⟨scope, ⟨v, hv, ht⟩, hl⟩
    exact ⟨v, hv, (Visit.create_mem_acts_iff (h.of_mem_flatMap hv)).mpr ⟨scope, ht, hl⟩⟩

theorem mem_namesFor_declarations_iff {x : Name} :
    x ∈ Act.namesFor label (declarations n.toValue) ↔
      ∃ v ∈ n.entered, ∃ scope, v.Binds n scope x ∧ label = scope.label := by
  rw [Act.mem_namesFor, declarations_toValue]
  simp only [List.mem_append, List.mem_map, reduceCtorEq, and_false, exists_false, or_false,
    List.mem_flatMap]
  constructor
  · rintro ⟨v, hv, hb⟩
    exact ⟨v, hv, (Visit.bind_mem_acts_iff (h.of_mem_flatMap hv)).mp hb⟩
  · rintro ⟨v, hv, hb⟩
    exact ⟨v, hv, (Visit.bind_mem_acts_iff (h.of_mem_flatMap hv)).mpr hb⟩

end

/-! ### Slots after a build -/

section

variable {tables : Tables} {n m : Node} (hl : n.toValue.WellLabelled)
  (hf : (buildScopes tables n.toValue).2 = none)
include hl hf

/-- A target has the set of the names that are declared in it. -/
theorem slot?_buildScopes_of_isTarget (h : n.IsTarget m) :
    ∃ set, (buildScopes tables n.toValue).1.tables.slot? m.label = some (.names set) ∧
      ∀ x, x ∈ set ↔ n.Declared m x := by
  obtain ⟨n', hn, -, hclean⟩ := exists_node_of_build hf
  obtain rfl := Node.toValue_injective hn
  have hc := (create_mem_declarations_iff hclean).mpr ⟨m, h, rfl⟩
  refine ⟨_, slot?_buildScopes_of_create hf hc, fun x => ?_⟩
  rw [NameSet.mem_ofList]
  constructor
  · rintro ⟨y, hy, hkey⟩
    obtain ⟨v, hv, scope, hb, hlabel⟩ := (mem_namesFor_declarations_iff hclean).mp hy
    obtain rfl := hl.eq_of_label_eq h.mem_nodes (hb.targets.mem_nodes hv) hlabel
    exact ⟨v, hv, y, hb, hkey⟩
  · rintro ⟨v, hv, y, hb, hkey⟩
    exact ⟨y, (mem_namesFor_declarations_iff hclean).mpr ⟨v, hv, m, hb, rfl⟩, hkey⟩

/-- A node that is no target keeps its slot. -/
theorem slot?_buildScopes_of_not_isTarget (hm : m ∈ n.toValue.nodes) (h : ¬ n.IsTarget m) :
    (buildScopes tables n.toValue).1.tables.slot? m.label = tables.slot? m.label := by
  obtain ⟨n', hn, -, hclean⟩ := exists_node_of_build hf
  obtain rfl := Node.toValue_injective hn
  refine slot?_buildScopes_of_not_create hf fun hc => ?_
  obtain ⟨scope, ht, hlabel⟩ := (create_mem_declarations_iff hclean).mp hc
  exact h (hl.eq_of_label_eq hm ht.mem_nodes hlabel ▸ ht)

end

/-! ### What is not a table -/

namespace Value

mutual
/-- A value without the tables in the fields of those objects whose labels pass a test. -/
def bareAt (p : Nat → Bool) : Value → Value
  | array items => array (bareAtItems p items)
  | object label fields =>
    object label (if p label then dropField tableField (bareAtFields p fields) else bareAtFields p fields)
  | v => v

/-- Array items without the tables of those objects. -/
def bareAtItems (p : Nat → Bool) : List Value → List Value
  | [] => []
  | v :: rest => v.bareAt p :: bareAtItems p rest

/-- Fields without the tables of those objects in their values. -/
def bareAtFields (p : Nat → Bool) : List (String × Value) → List (String × Value)
  | [] => []
  | (name, v) :: rest => (name, v.bareAt p) :: bareAtFields p rest
end

theorem dropField_dropField (name : String) (fields : List (String × Value)) :
    dropField name (dropField name fields) = dropField name fields := by
  rw [dropField, dropField, List.filter_filter]
  simp

theorem dropField_setField (name : String) (v : Value) (fields : List (String × Value)) :
    dropField name (setField name v fields) = dropField name fields := by
  induction fields with
  | nil => simp [setField, dropField]
  | cons field rest ih =>
    obtain ⟨other, w⟩ := field
    rw [setField]
    split
    · rename_i h
      simp [dropField, h]
    · rw [dropField, List.filter_cons, ← dropField, ih, dropField, dropField, List.filter_cons]

section

variable (p : Nat → Bool)

theorem bareAtFields_setField (name : String) (v : Value) (fields : List (String × Value)) :
    bareAtFields p (setField name v fields) = setField name (v.bareAt p) (bareAtFields p fields) := by
  induction fields with
  | nil => rfl
  | cons field rest ih =>
    obtain ⟨other, w⟩ := field
    simp only [setField, bareAtFields]
    split
    · rfl
    · rw [bareAtFields, ih]

theorem bareAtFields_dropField (name : String) (fields : List (String × Value)) :
    bareAtFields p (dropField name fields) = dropField name (bareAtFields p fields) := by
  induction fields with
  | nil => rfl
  | cons field rest ih =>
    obtain ⟨other, w⟩ := field
    rw [dropField] at ih
    simp only [dropField, bareAtFields, List.filter_cons]
    split
    · rw [bareAtFields, ih, dropField]
    · rw [ih, dropField]

end

mutual
/-- Where two tables differ only for labels that pass a test, the trees with these tables in their fields
differ only in the tables of the objects with such labels. -/
theorem bareAt_withTables_congr {p : Nat → Bool} {t t' : Tables}
    (h : ∀ label, p label = false → t.slot? label = t'.slot? label) :
    ∀ v : Value, (v.withTables t).bareAt p = (v.withTables t').bareAt p
  | array items => by simp only [withTables, bareAt, bareAtItems_withTables_congr h items]
  | object label fields => by
    have hfields := bareAtFields_withTables_congr h fields
    cases hp : p label with
    | true =>
      -- Whatever stands in the slot is taken away again.
      have hbare : ∀ t : Tables, ((object label fields).withTables t).bareAt p =
          object label (dropField tableField (bareAtFields p (withTablesFields t fields))) := by
        intro t
        simp only [withTables]
        split
        · simp only [bareAt, hp, if_true, bareAtFields_setField, dropField_setField]
        · simp only [bareAt, hp, if_true, bareAtFields_dropField, dropField_dropField]
      rw [hbare, hbare, hfields]
    | false =>
      simp only [withTables, h label hp]
      split
      · simp only [bareAt, hp, Bool.false_eq_true, if_false, bareAtFields_setField, hfields]
      · simp only [bareAt, hp, Bool.false_eq_true, if_false, bareAtFields_dropField, hfields]
  | null | bool _ | int _ | float _ | text _ | names _ => rfl

theorem bareAtItems_withTables_congr {p : Nat → Bool} {t t' : Tables}
    (h : ∀ label, p label = false → t.slot? label = t'.slot? label) :
    ∀ items : List Value, bareAtItems p (withTablesItems t items) = bareAtItems p (withTablesItems t' items)
  | [] => rfl
  | v :: rest => by
    simp only [withTablesItems, bareAtItems, bareAt_withTables_congr h v, bareAtItems_withTables_congr h rest]

theorem bareAtFields_withTables_congr {p : Nat → Bool} {t t' : Tables}
    (h : ∀ label, p label = false → t.slot? label = t'.slot? label) :
    ∀ fields : List (String × Value),
      bareAtFields p (withTablesFields t fields) = bareAtFields p (withTablesFields t' fields)
  | [] => rfl
  | (name, v) :: rest => by
    simp only [withTablesFields, bareAtFields, bareAt_withTables_congr h v, bareAtFields_withTables_congr h rest]
end

/-- Where tables have changed for some nodes only, a test that these pass covers all that is different. -/
theorem bareAt_withTables_of_changed {P : Node → Prop} {t t' : Tables}
    (h : ∀ label, t'.slot? label ≠ t.slot? label → ∃ m, P m ∧ label = m.label) (v : Value) {p : Nat → Bool}
    (hp : ∀ m, P m → p m.label) : (v.withTables t').bareAt p = (v.withTables t).bareAt p := by
  refine bareAt_withTables_congr (fun label hlabel => ?_) v
  refine Classical.byContradiction fun hchanged => ?_
  obtain ⟨m, hm, rfl⟩ := h label hchanged
  exact Bool.false_ne_true (hlabel.symm.trans (hp m hm))

end Value

/-! ### Exact tables -/

/-- **A build that succeeds leaves exactly the tables that the declarations ask for.** Every target has
the set of the names that are declared in it, and every other node has the slot that it had. With the tables
in its fields, the tree is as before but for the tables of targets: if these pass a test, and the tables of
all nodes that pass it are taken away, what is left is the same. -/
theorem tables_after_build {tables : Tables} {root : Value} (hl : root.WellLabelled)
    (hf : (buildScopes tables root).2 = none) :
    ∃ n : Node, root = n.toValue ∧
      (∀ m, n.IsTarget m →
        ∃ set, (buildScopes tables root).1.tables.slot? m.label = some (.names set) ∧
          ∀ x, x ∈ set ↔ n.Declared m x) ∧
      (∀ m ∈ root.nodes, ¬ n.IsTarget m →
        (buildScopes tables root).1.tables.slot? m.label = tables.slot? m.label) ∧
      ∀ p : Nat → Bool, (∀ m, n.IsTarget m → p m.label) →
        (root.withTables (buildScopes tables root).1.tables).bareAt p = (root.withTables tables).bareAt p := by
  obtain ⟨n, rfl, -, hclean⟩ := exists_node_of_build hf
  refine ⟨n, rfl, ?_, ?_, fun p => Value.bareAt_withTables_of_changed (fun label hchanged => ?_) n.toValue⟩
  · exact fun m hm => slot?_buildScopes_of_isTarget hl hf hm
  · exact fun m hm ht => slot?_buildScopes_of_not_isTarget hl hf hm ht
  · refine (create_mem_declarations_iff hclean).mp ?_
    exact Classical.byContradiction fun hc => hchanged (slot?_buildScopes_of_not_create hf hc)

/-- The program `var a; { x }`. The program and its block come with tables from before, of which the
build touches only the first. -/
def staleProgram : Tree :=
  .ofValue (Kind.program.object
    [("body", .array
      [Kind.variableDeclaration.object
        [("kind", .text "var"),
         ("declarations", .array [Kind.variableDeclarator.object [("id", .identifier "a")]])],
       Kind.blockStatement.object
        [("body", .array [Kind.expressionStatement.object [("expression", .identifier "x")]]),
         (tableField, .array [.text "x"])]]),
     (tableField, .array [.text "old"])])

theorem tables_after_build_staleProgram :
    staleProgram.root.WellLabelled ∧ (buildScopes staleProgram.tables staleProgram.root).2 = none ∧
      ∃ n : Node, staleProgram.root = n.toValue ∧
        (∀ m, n.IsTarget m →
          ∃ set, (buildScopes staleProgram.tables staleProgram.root).1.tables.slot? m.label =
              some (.names set) ∧ ∀ x, x ∈ set ↔ n.Declared m x) ∧
        (∀ m ∈ staleProgram.root.nodes, ¬ n.IsTarget m →
          (buildScopes staleProgram.tables staleProgram.root).1.tables.slot? m.label =
            staleProgram.tables.slot? m.label) ∧
        ∀ p : Nat → Bool, (∀ m, n.IsTarget m → p m.label) →
          (staleProgram.root.withTables (buildScopes staleProgram.tables staleProgram.root).1.tables).bareAt p =
            (staleProgram.root.withTables staleProgram.tables).bareAt p := by
  have hl : staleProgram.root.WellLabelled := Tree.wellLabelled_ofValue _
  have hf : (buildScopes staleProgram.tables staleProgram.root).2 = none :=
    Option.isNone_iff_eq_none.mp (by decide +kernel)
  exact ⟨hl, hf, tables_after_build hl hf⟩

end FreeNames
