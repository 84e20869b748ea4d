import FreeNames.Proofs.Rearrangement
import FreeNames.Proofs.Replacement
import FreeNames.Proofs.Wrapping

/-!
# The order of statements

A program, a block and a case of a `switch` hold a list of statements. What an analysis of the program finds does
not depend on the order of such a list (`reordered_statements`): a declaration counts for all of the node that it
binds in, also for what stands before it.

A program with a reordered list corresponds to the one from before: the node that holds the list has the same
children in another order, and all other nodes have the same children with this node replaced among them.
-/

namespace FreeNames

/-- The field that holds the list of statements of a node of a kind, if there is one. -/
def Kind.statementField? : Kind → Option String
  | program | blockStatement => some "body"
  | switchCase => some "consequent"
  | _ => none

/-- The tree with other items in a field of one of its nodes. -/
def Tree.withItems (t : Tree) (n : Node) (field : String) (items : List Value) : Tree :=
  { t with root := t.root.replace (n.withItems field items) }

namespace Kind

variable {k : Kind} {field : String} (h : k.statementField? = some field)
include h

theorem computedField_of_statementField? : k.computedField = none := by
  cases k <;> cases h <;> rfl

/-- Nothing but children is read from a list of statements. -/
theorem not_read_of_statementField? : ∀ name ∈ "name" :: readFields, name ∉ [field] := by
  cases k <;> cases h <;> decide

theorem params_not_mem_of_statementField? : "params" ∉ [field] := by
  cases k <;> cases h <;> decide

end Kind

/-! ### Labels -/

namespace Value

/-- With its items reordered, a field holds the same nodes. -/
theorem nodesOfFields_setField_perm {name : String} {items items' : List Value} (hperm : items.Perm items') :
    ∀ {fields : List (String × Value)}, fields.lookup name = some (.array items) →
      (nodesOfFields (setField name (.array items') fields)).Perm (nodesOfFields fields)
  | (key, w) :: rest, h => by
    unfold setField
    rw [List.lookup_cons] at h
    split
    · rename_i heq
      rw [heq, beq_self_eq_true] at h
      obtain rfl := Option.some.inj h
      simp only [nodesOfFields, nodes, nodesOfItems_eq_flatMap]
      exact (hperm.symm.flatMap_right nodes).append_right _
    · rename_i hne
      rw [beq_false_of_ne (Ne.symm hne)] at h
      exact (nodesOfFields_setField_perm hperm h).append_left _

end Value

/-! ### The reordered node -/

/-- A node with other statements is read like the one from before. -/
theorem refilling.faithful_withItems {f : Node} {k : Kind} {field : String} (hl : f.toValue.WellLabelled)
    (hk : f.kind? = some k) (hfield : k.statementField? = some field) (items : List Value) :
    (refilling f (f.withItems field items)).Faithful :=
  refilling.faithful (f.altered_withItems field items) (Kind.not_read_of_statementField? hfield) hl hk

section

variable {f : Node} {field : String} {items items' : List Value} (hitems : f.field field = .array items)
  (hperm : items.Perm items')
include hitems

theorem Node.lookup_of_field_eq_array : f.fields.lookup field = some (.array items) := by
  unfold Node.field at hitems
  cases h : f.fields.lookup field with
  | none => simp [h] at hitems
  | some v => simpa [h] using hitems

include hperm

theorem Node.labels_withItems_perm : (f.withItems field items').toValue.labels.Perm f.toValue.labels := by
  have hnodes := Value.nodesOfFields_setField_perm hperm (Node.lookup_of_field_eq_array hitems)
  exact (hnodes.map Node.label).cons f.label

variable {k : Kind} (hl : f.toValue.WellLabelled) (hk : f.kind? = some k)
  (hfield : k.statementField? = some field)
include hl hk hfield

/-- The statements are the same in another order, and what is in other fields is the same. -/
theorem refilling.rearranged_children :
    Rearranged (refilling f (f.withItems field items')).values (f.children k)
      ((f.withItems field items').children k) := by
  have ha := f.altered_withItems field items'
  have hC := refilling.faithful_withItems hl hk hfield items'
  have hcomputed := Kind.computedField_of_statementField? hfield
  have hsame : Rearranged Eq k.entered k.entered := .of_forall₂ (List.forall₂_same.mpr fun _ _ => rfl)
  rw [Node.children_of_computedField hcomputed, Node.children_of_computedField hcomputed]
  refine hsame.flatMap fun name _ name' heq => ?_
  subst heq
  by_cases hname : name = field
  · subst hname
    have hnot := refilling.not_mem_labels_of_lookup ha hl (Node.lookup_of_field_eq_array hitems)
    have hvalues : List.Forall₂ (refilling f (f.withItems name items')).values
        (Node.fieldChildren (.array items)) (Node.fieldChildren (.array items)) := by
      refine List.forall₂_same.mpr fun w hw => refilling.values_self fun hmem => hnot ?_
      exact List.map_subset _ (Value.nodes_subset_of_mem_array (List.mem_filter.mp hw).1) hmem
    rw [hitems, Node.field_withItems]
    exact (Rearranged.of_forall₂ hvalues).trans_perm (hperm.filter _)
  · refine .of_forall₂ (hC.fieldChildren (hC.field_of_rel ?_))
    exact refilling.rel_lookup_self ha hl (by simpa using hname)

theorem refilling.rearranging : (refilling f (f.withItems field items')).Rearranging where
  toFaithful := refilling.faithful_withItems hl hk hfield items'
  names := rfl
  labels _ := rfl
  params {n n'} h := by
    by_cases hn : n.label = (f.withItems field items').label
    · obtain ⟨rfl, rfl⟩ := refilling.nodes_of_label_eq h hn
      exact refilling.rel_lookup_self (n.altered_withItems field items') hl
        (Kind.params_not_mem_of_statementField? hfield)
    · exact refilling.rel_lookup h hn "params"
  children {n n' k'} h hk' := by
    by_cases hn : n.label = (f.withItems field items').label
    · obtain ⟨rfl, rfl⟩ := refilling.nodes_of_label_eq h hn
      obtain rfl := Option.some.inj (hk.symm.trans hk')
      exact refilling.rearranged_children hitems hperm hl hk hfield
    · have hC := refilling.faithful_withItems hl hk hfield items'
      exact .of_forall₂ (hC.children h fun name _ => refilling.rel_lookup h hn name)

end

/-! ### The reordered program -/

/-- **The order of statements does not matter.** Let the list of statements of a program, a block or a case be
reordered anywhere in a tree. The objects of the tree keep their labels. The tree can be analysed if and only if
it could be before. Then every object has a table with the same names, the names that are found are the same in
the same order, and the references of each name are the same nodes, in an order of their own. -/
theorem reordered_statements {t : Tree} (hl : t.WellLabelled) {v : Visit} (hv : Enters t.root [] v)
    {field : String} (hfield : v.kind.statementField? = some field) {items items' : List Value}
    (hitems : v.node.field field = .array items) (hperm : items.Perm items') (name : Text) :
    (t.withItems v.node field items').root.labels.Perm t.root.labels ∧
      ((∃ found, (t.analyze name).result = .ok found) ↔
        ∃ found', ((t.withItems v.node field items').analyze name).result = .ok found') ∧
      ∀ found found', (t.analyze name).result = .ok found →
        ((t.withItems v.node field items').analyze name).result = .ok found' →
          (∀ label, SameSlots ((t.analyze name).tree.tables.slot? label)
            (((t.withItems v.node field items').analyze name).tree.tables.slot? label)) ∧
          List.Forall₂ Group.SameUpToOrder found found' ∧
          ((∀ g ∈ found, ∃ s, g.name = .text s) → found'.map Group.name = found.map Group.name) := by
  have hin := hv.mem_nodes
  have hlabel : (v.node.withItems field items').label = v.node.label := rfl
  have hC := refilling.rearranging hitems hperm (hv.wellLabelled hl)
    (Node.kind?_of_enteredKind hv.enteredKind_eq) hfield
  have hvalues : (refilling v.node (v.node.withItems field items')).values t.root
      (t.withItems v.node field items').root :=
    ⟨rfl, fun n hn heq => hl.eq_of_label_eq hn hin heq⟩
  obtain ⟨root, hr⟩ := hv.exists_node
  obtain ⟨root', hr', hroot⟩ := hC.exists_node (hr ▸ hvalues)
  -- The node with the statements is no reference, and no reference has it inside.
  have hnode : ∀ u ∈ root.entered, ∀ u', (refilling v.node (v.node.withItems field items')).Visits u u' →
      u.kind = .identifier ∨ u.kind = .thisExpression → u.node = u'.node := by
    intro u hu u' huu hk
    have hne : u ≠ v := by
      rintro rfl
      rcases hk with hk | hk <;> rw [hk] at hfield <;> cases hfield
    have hu := enters_of_mem_visits hu
    rw [← hr] at hu
    exact (refilling.node_eq hl hu hv hlabel huu (Node.children_of_reference hk) hne).symm
  refine ⟨?_, hC.exists_analyze_iff hr hr' hroot rfl name hnode, fun found found' h h' => ?_⟩
  · exact ((Value.labels_replace hlabel hl hin).perm (Node.labels_withItems_perm hitems hperm).symm).symm
  · have hgroups := hC.sameUpToOrder_analyze hr hr' hroot rfl name hnode h h'
    exact ⟨hC.sameSlots_analyze hr hr' hroot rfl name h, hgroups, map_name_eq_of_sameUpToOrder hgroups⟩

/-- The statements `b; a; let a; c; b`. -/
def hoistingBody : List Value :=
  [namedStatement 2 (.text "b"), namedStatement 4 (.text "a"), declaringStatement 6 "let" "a",
    namedStatement 9 (.text "c"), namedStatement 11 (.text "b")]

/-- A block of the statements. -/
def hoistingBlock : Node := Kind.blockStatement.node 1 [("body", .array hoistingBody)]

/-- The program that consists of the block. -/
def hoistingProgram : Tree := .programOf [hoistingBlock.toValue]

/-- What an analysis finds: names, with the labels of their references. -/
def Analyzed.labelsByName? (a : Analyzed) : Option (List (Name × List Nat)) :=
  a.result.toOption.map (List.map fun g => (g.name, g.references.map fun r => r.node.label))

theorem Analyzed.exists_result_of_labelsByName? {a : Analyzed} {l : List (Name × List Nat)}
    (h : a.labelsByName? = some l) : ∃ found, a.result = .ok found := by
  obtain ⟨found, hfound, -⟩ := Option.map_eq_some_iff.mp h
  exact ⟨found, eq_ok_of_toOption hfound⟩

theorem reordered_statements_hoistingProgram :
    hoistingProgram.WellLabelled ∧
      (∃ around, Enters hoistingProgram.root [] ⟨hoistingBlock, .blockStatement, around⟩) ∧
      Kind.blockStatement.statementField? = some "body" ∧ hoistingBlock.field "body" = .array hoistingBody ∧
      hoistingBody.Perm hoistingBody.reverse ∧
      (hoistingProgram.analyze "s").labelsByName? = some [(.text "b", [3, 12]), (.text "c", [10])] ∧
      ((hoistingProgram.withItems hoistingBlock "body" hoistingBody.reverse).analyze "s").labelsByName? =
        some [(.text "b", [12, 3]), (.text "c", [10])] ∧
      (hoistingProgram.withItems hoistingBlock "body" hoistingBody.reverse).root.labels.Perm
        hoistingProgram.root.labels ∧
      ∃ found found', (hoistingProgram.analyze "s").result = .ok found ∧
        ((hoistingProgram.withItems hoistingBlock "body" hoistingBody.reverse).analyze "s").result = .ok found' ∧
        (∀ label, SameSlots ((hoistingProgram.analyze "s").tree.tables.slot? label)
          (((hoistingProgram.withItems hoistingBlock "body" hoistingBody.reverse).analyze "s").tree.tables.slot?
            label)) ∧
        List.Forall₂ Group.SameUpToOrder found found' ∧
        ((∀ g ∈ found, ∃ s, g.name = .text s) → found'.map Group.name = found.map Group.name) := by
  have hl : hoistingProgram.WellLabelled := by
    show hoistingProgram.root.labels.Nodup
    decide +kernel
  have hv : Enters hoistingProgram.root []
      ⟨hoistingBlock, .blockStatement, [Kind.program.node 0 [("body", .array [hoistingBlock.toValue])]]⟩ :=
    .through (k := .program) (Node.enteredKind_eq_ok_iff.mpr (by decide +kernel)) (List.mem_singleton.mpr rfl)
      (.here (Node.enteredKind_eq_ok_iff.mpr (by decide +kernel)))
  have hitems : hoistingBlock.field "body" = .array hoistingBody := rfl
  have hperm := hoistingBody.reverse_perm.symm
  have hfound : (hoistingProgram.analyze "s").labelsByName? =
      some [(.text "b", [3, 12]), (.text "c", [10])] := by decide +kernel
  have hfound' : ((hoistingProgram.withItems hoistingBlock "body" hoistingBody.reverse).analyze "s").labelsByName? =
      some [(.text "b", [12, 3]), (.text "c", [10])] := by decide +kernel
  obtain ⟨found, h⟩ := Analyzed.exists_result_of_labelsByName? hfound
  obtain ⟨found', h'⟩ := Analyzed.exists_result_of_labelsByName? hfound'
  obtain ⟨hlabels, -, hsame⟩ := reordered_statements hl hv rfl hitems hperm "s"
  dsimp only at hlabels hsame
  exact ⟨hl, ⟨_, hv⟩, rfl, hitems, hperm, hfound, hfound', hlabels, found, found', h, h', hsame found found' h h'⟩

end FreeNames
