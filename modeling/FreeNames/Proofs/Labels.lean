import FreeNames.Proofs.Walk
import FreeNames.Tree.Labelled
import Mathlib.Data.List.Flatten
import Mathlib.Data.List.Nodup
import Mathlib.Data.List.Pairwise

/-!
# The nodes of a tree and their labels

`Value.nodes` lists all objects inside a value, whether a walk enters them or not. A tree is well
labelled if no two of them have the same label; every tree that is made from plain data is
(`Tree.wellLabelled_ofValue`).

In a well labelled tree a node is known by its label, and a walk meets each node at most once. If a
walk meets a node that lies inside another one that it meets, then it meets it there: with the outer
node around it (`Enters.suffix_of_mem_nodes`).
-/

namespace FreeNames

namespace Value

mutual
/-- The objects inside a value, itself included. -/
def nodes : Value → List Node
  | array items => nodesOfItems items
  | object label fields => ⟨label, fields⟩ :: nodesOfFields fields
  | _ => []

/-- The objects inside array items. -/
def nodesOfItems : List Value → List Node
  | [] => []
  | v :: rest => v.nodes ++ nodesOfItems rest

/-- The objects inside the values of fields. -/
def nodesOfFields : List (String × Value) → List Node
  | [] => []
  | (_, v) :: rest => v.nodes ++ nodesOfFields rest
end

/-- The labels of the objects inside a value. -/
def labels (v : Value) : List Nat := v.nodes.map Node.label

theorem nodesOfItems_eq_flatMap (items : List Value) : nodesOfItems items = items.flatMap nodes := by
  induction items with
  | nil => rfl
  | cons v rest ih => rw [nodesOfItems, ih, List.flatMap_cons]

@[simp] theorem nodes_toValue (n : Node) : n.toValue.nodes = n :: nodesOfFields n.fields := rfl

theorem mem_nodes_toValue (n : Node) : n ∈ n.toValue.nodes := by simp

/-! ### Parts of a value -/

mutual
/-- What is inside a node of a value is inside the value. -/
theorem nodes_subset {m : Node} : ∀ {v : Value}, m ∈ v.nodes → m.toValue.nodes ⊆ v.nodes
  | array items, h => nodes_subset_items h
  | object label fields, h => by
    rcases List.mem_cons.mp h with rfl | h
    · exact fun _ hx => hx
    · exact fun x hx => List.mem_cons_of_mem _ (nodes_subset_fields h hx)
  | null, h | bool _, h | int _, h | float _, h | text _, h | names _, h => by simp [nodes] at h

theorem nodes_subset_items {m : Node} : ∀ {items : List Value}, m ∈ nodesOfItems items →
    m.toValue.nodes ⊆ nodesOfItems items
  | [], h => by simp [nodesOfItems] at h
  | v :: rest, h => by
    intro x hx
    rcases List.mem_append.mp h with h | h
    · exact List.mem_append_left _ (nodes_subset h hx)
    · exact List.mem_append_right _ (nodes_subset_items h hx)

theorem nodes_subset_fields {m : Node} : ∀ {fields : List (String × Value)}, m ∈ nodesOfFields fields →
    m.toValue.nodes ⊆ nodesOfFields fields
  | [], h => by simp [nodesOfFields] at h
  | (_, v) :: rest, h => by
    intro x hx
    rcases List.mem_append.mp h with h | h
    · exact List.mem_append_left _ (nodes_subset h hx)
    · exact List.mem_append_right _ (nodes_subset_fields h hx)
end

theorem nodes_subset_of_lookup {fields : List (String × Value)} {name : String} {v : Value}
    (h : fields.lookup name = some v) : v.nodes ⊆ nodesOfFields fields := by
  induction fields with
  | nil => simp at h
  | cons field rest ih =>
    obtain ⟨key, w⟩ := field
    intro x hx
    rw [List.lookup_cons] at h
    split at h
    · cases h; exact List.mem_append_left _ hx
    · exact List.mem_append_right _ (ih h hx)

/-- What is inside a field of a node is inside the node. -/
theorem nodes_field_subset (n : Node) (name : String) :
    (n.field name).nodes ⊆ nodesOfFields n.fields := by
  unfold Node.field
  cases h : n.fields.lookup name with
  | none => exact fun x hx => by simp [nodes] at hx
  | some v => exact nodes_subset_of_lookup h

theorem nodes_subset_of_mem_array {v : Value} {items : List Value} (h : v ∈ items) :
    v.nodes ⊆ (array items).nodes := by
  intro x hx
  rw [nodes, nodesOfItems_eq_flatMap]
  exact List.mem_flatMap.mpr ⟨v, h, hx⟩

theorem flatMap_nodes_fieldChildren_sublist (v : Value) :
    ((Node.fieldChildren v).flatMap nodes).Sublist v.nodes := by
  unfold Node.fieldChildren
  split
  · exact List.nil_sublist _
  · rw [nodes, nodesOfItems_eq_flatMap]
    exact List.filter_sublist.flatMap _
  · simp

theorem flatMap_nodes_parts_sublist (fields : List (String × Value)) :
    ((fields.flatMap fun field => Node.fieldChildren field.2).flatMap nodes).Sublist
      (nodesOfFields fields) := by
  induction fields with
  | nil => exact List.Sublist.slnil
  | cons field rest ih =>
    rw [List.flatMap_cons, List.flatMap_append, nodesOfFields]
    exact (flatMap_nodes_fieldChildren_sublist field.2).append ih

end Value

theorem Node.mem_nodesOfFields_of_field {n m : Node} {name : String} (h : n.field name = m.toValue) :
    m.toValue.nodes ⊆ Value.nodesOfFields n.fields := by
  have hsub := Value.nodes_field_subset n name
  rwa [h] at hsub

/-- The children of a node have no object in common, and none that is not inside the node. -/
theorem Node.flatMap_nodes_children_subperm (n : Node) (k : Kind) :
    ((n.children k).flatMap Value.nodes).Subperm (Value.nodesOfFields n.fields) := by
  obtain ⟨l, hperm, hsub⟩ := n.children_subperm_parts k
  refine ((hperm.symm.flatMap_right Value.nodes).subperm).trans ?_
  exact ((hsub.flatMap Value.nodes).trans (Value.flatMap_nodes_parts_sublist n.fields)).subperm

/-! ### Different labels -/

/-- No two objects inside a value have the same label. -/
def Value.WellLabelled (v : Value) : Prop := v.labels.Nodup

/-- No two nodes of a tree have the same label. -/
def Tree.WellLabelled (t : Tree) : Prop := t.root.WellLabelled

namespace Value.WellLabelled

/-- A node of a well labelled value is known by its label. -/
theorem eq_of_label_eq {v : Value} (h : v.WellLabelled) {m n : Node} (hm : m ∈ v.nodes)
    (hn : n ∈ v.nodes) (heq : m.label = n.label) : m = n :=
  List.inj_on_of_nodup_map h hm hn heq

variable {n : Node} {k : Kind}

theorem not_mem_nodesOfFields (h : n.toValue.WellLabelled) : n ∉ nodesOfFields n.fields := by
  intro hn
  exact (List.nodup_cons.mp h).1 (List.mem_map_of_mem hn)

theorem nodup_flatMap_children (h : n.toValue.WellLabelled) (k : Kind) :
    (((n.children k).flatMap nodes).map Node.label).Nodup := by
  have hrest : ((nodesOfFields n.fields).map Node.label).Nodup := (List.nodup_cons.mp h).2
  obtain ⟨l, hperm, hsub⟩ := n.flatMap_nodes_children_subperm k
  exact (hperm.map Node.label).nodup ((hsub.map Node.label).nodup hrest)

theorem child (h : n.toValue.WellLabelled) {w : Value} (hw : w ∈ n.children k) :
    w.WellLabelled := by
  have hall := h.nodup_flatMap_children k
  rw [List.map_flatMap] at hall
  exact (List.nodup_flatMap.mp hall).1 w hw

/-- Two children with a node in common are the same child. -/
theorem child_eq (h : n.toValue.WellLabelled) {w w' : Value} (hw : w ∈ n.children k)
    (hw' : w' ∈ n.children k) {m : Node} (hm : m ∈ w.nodes) (hm' : m ∈ w'.nodes) : w = w' := by
  have hall := h.nodup_flatMap_children k
  rw [List.map_flatMap] at hall
  by_contra hne
  have hpairs := (List.nodup_flatMap.mp hall).2
  have : Std.Symm (Function.onFun List.Disjoint fun a : Value => a.nodes.map Node.label) :=
    ⟨fun _ _ hd => List.disjoint_symm hd⟩
  have hdisjoint : List.Disjoint _ _ := hpairs.forall hw hw' hne
  exact hdisjoint (List.mem_map_of_mem hm) (List.mem_map_of_mem hm')

end Value.WellLabelled

/-! ### Nodes that a walk meets -/

/-- The children of a node lie inside it. -/
theorem Node.nodes_child_subset {n : Node} {k : Kind} {w : Value} (hw : w ∈ n.children k) :
    w.nodes ⊆ Value.nodesOfFields n.fields := by
  intro m hm
  exact (n.flatMap_nodes_children_subperm k).subset (List.mem_flatMap.mpr ⟨w, hw, hm⟩)

namespace Enters

variable {v : Value} {around : List Node} {x : Visit}

theorem mem_nodes (h : Enters v around x) : x.node ∈ v.nodes := by
  induction h with
  | here hk => exact Value.mem_nodes_toValue _
  | through hk hw _ ih => exact List.mem_cons_of_mem _ (Node.nodes_child_subset hw ih)

theorem wellLabelled (h : Enters v around x) (hl : v.WellLabelled) : x.node.toValue.WellLabelled := by
  induction h with
  | here hk => exact hl
  | through hk hw _ ih => exact ih (hl.child hw)

theorem mem_nodes_of_mem_around (h : Enters v around x) {m : Node} (hm : m ∈ x.around) :
    m ∈ around ∨ m ∈ v.nodes := by
  induction h with
  | here hk => exact .inl hm
  | through hk hw _ ih =>
    rcases ih hm with hm | hm
    · rcases List.mem_cons.mp hm with rfl | hm
      · exact .inr (Value.mem_nodes_toValue _)
      · exact .inl hm
    · exact .inr (List.mem_cons_of_mem _ (Node.nodes_child_subset hw hm))

/-- A node that lies inside an entered node is met below it. -/
theorem suffix_of_mem_nodes {a b : Visit} (hl : v.WellLabelled) (ha : Enters v around a)
    (hb : Enters v around b) (h : b.node ∈ a.node.toValue.nodes) :
    b = a ∨ (a.node :: a.around) <:+ b.around := by
  -- Along the way to `a`: each child on it holds `b.node`, so the way to `b` takes the same child.
  induction ha with
  | @here n k around hk =>
    rcases (enters_toValue_iff hk).mp hb with rfl | ⟨w, hw, hb⟩
    · exact .inl rfl
    · exact .inr hb.suffix_around
  | @through n k around w a hk hw ha ih =>
    have hin : b.node ∈ w.nodes := Value.nodes_subset ha.mem_nodes h
    rcases (enters_toValue_iff hk).mp hb with rfl | ⟨w', hw', hb⟩
    · exact absurd (Node.nodes_child_subset hw hin) hl.not_mem_nodesOfFields
    · obtain rfl := hl.child_eq hw hw' hin hb.mem_nodes
      exact ih (hl.child hw) hb h

/-- An entered node lies in no other one without children. -/
theorem not_mem_nodes_of_children_eq_nil {a b : Visit} (hl : v.WellLabelled) (ha : Enters v [] a)
    (hb : Enters v [] b) (hchildren : a.node.children a.kind = []) (hne : a ≠ b) :
    b.node ∉ a.node.toValue.nodes := by
  intro hmem
  rcases ha.suffix_of_mem_nodes hl hb hmem with heq | hs
  · exact hne heq.symm
  · obtain ⟨y, hy, hnode, -, hchild⟩ := (hb.exists_suffix_of_mem_around
      (hs.subset List.mem_cons_self)).resolve_left List.not_mem_nil
    have hkind := hy.enteredKind_eq
    rw [hnode, ha.enteredKind_eq] at hkind
    rw [← Except.ok.inj hkind] at hchild
    exact hchild hchildren

end Enters

/-! ### Labelled trees -/

/-- The numbers in a list increase, from `first` on and below `next`. -/
def Increases (first next : Nat) (l : List Nat) : Prop :=
  first ≤ next ∧ l.Pairwise (· < ·) ∧ ∀ i ∈ l, first ≤ i ∧ i < next

namespace Increases

variable {a b c : Nat} {l m : List Nat}

theorem nil (a : Nat) : Increases a a [] := ⟨Nat.le_refl a, List.Pairwise.nil, by simp⟩

theorem append (hl : Increases a b l) (hm : Increases b c m) : Increases a c (l ++ m) := by
  obtain ⟨hab, hl, hlb⟩ := hl
  obtain ⟨hbc, hm, hmb⟩ := hm
  refine ⟨by omega, List.pairwise_append.mpr ⟨hl, hm, fun i hi j hj => ?_⟩, fun i hi => ?_⟩
  · have := hlb i hi
    have := hmb j hj
    omega
  · rcases List.mem_append.mp hi with hi | hi
    · have := hlb i hi
      omega
    · have := hmb i hi
      omega

theorem cons (hl : Increases (a + 1) b l) : Increases a b (a :: l) := by
  obtain ⟨hab, hl, hlb⟩ := hl
  refine ⟨by omega, List.pairwise_cons.mpr ⟨fun i hi => ?_, hl⟩, fun i hi => ?_⟩
  · exact (hlb i hi).1
  · rcases List.mem_cons.mp hi with rfl | hi
    · omega
    · have := hlb i hi
      omega

theorem sublist (hl : Increases a b l) (h : m.Sublist l) : Increases a b m :=
  ⟨hl.1, hl.2.1.sublist h, fun i hi => hl.2.2 i (h.subset hi)⟩

theorem nodup (hl : Increases a b l) : l.Nodup := hl.2.1.imp Nat.ne_of_lt

end Increases

namespace Value

/-- Making a set of the names in a table takes nodes away only. -/
theorem nodes_asTable_sublist (v : Value) : v.asTable.nodes.Sublist v.nodes := by
  cases v with
  | array items => exact List.nil_sublist _
  | _ => exact List.Sublist.refl _

mutual
theorem increases_labelled : ∀ (v : Value) (next : Nat),
    Increases next (v.labelled next).2 (v.labelled next).1.labels
  | array items, next => increases_labelledItems items next
  | object _ fields, next => (increases_labelledFields fields (next + 1)).cons
  | null, next | bool _, next | int _, next | float _, next | text _, next | names _, next =>
    Increases.nil next

theorem increases_labelledItems : ∀ (items : List Value) (next : Nat),
    Increases next (labelledItems items next).2
      ((nodesOfItems (labelledItems items next).1).map Node.label)
  | [], next => Increases.nil next
  | v :: rest, next => by
    have hv := increases_labelled v next
    have hrest := increases_labelledItems rest (v.labelled next).2
    simp only [labelledItems, nodesOfItems, List.map_append]
    exact hv.append hrest

theorem increases_labelledFields : ∀ (fields : List (String × Value)) (next : Nat),
    Increases next (labelledFields fields next).2
      ((nodesOfFields (labelledFields fields next).1).map Node.label)
  | [], next => Increases.nil next
  | (name, v) :: rest, next => by
    have hv := increases_labelled v next
    have hrest := increases_labelledFields rest (v.labelled next).2
    simp only [labelledFields, nodesOfFields, List.map_append]
    refine Increases.append (hv.sublist ?_) hrest
    split
    · exact (nodes_asTable_sublist _).map _
    · exact List.Sublist.refl _
end

theorem wellLabelled_labelled (v : Value) (next : Nat) : (v.labelled next).1.WellLabelled :=
  (increases_labelled v next).nodup

end Value

/-- Trees that are made from plain data are well labelled. -/
theorem Tree.wellLabelled_ofValue (v : Value) : (Tree.ofValue v).WellLabelled :=
  v.wellLabelled_labelled 0

end FreeNames
