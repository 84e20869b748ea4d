import FreeNames.Proofs.Correspondence

/-!
# Replacing what a node contains

`Value.replace` puts a new node in the place of the object that has its label. Here the new node is the old one
with other values in some fields (`Node.Altered`), such as a function with other parameters and another body
(`Node.Refilled`). If nothing but children is read from these fields, a program corresponds to the one with the
new node as far as anything else is read (`refilling.faithful`). The labels of objects outside the node stay as
they are (`Value.labels_replace`).
-/

namespace FreeNames

/-! ### Replacing an object -/

namespace Value

mutual
/-- The value with a new node in the place of the object that has its label. -/
def replace (new : Node) : Value → Value
  | array items => array (replaceItems new items)
  | object label fields =>
    if label = new.label then new.toValue else object label (replaceFields new fields)
  | v => v

/-- Array items with a new node in the place of the object that has its label. -/
def replaceItems (new : Node) : List Value → List Value
  | [] => []
  | v :: rest => v.replace new :: replaceItems new rest

/-- Fields with a new node in the place of the object that has its label. -/
def replaceFields (new : Node) : List (String × Value) → List (String × Value)
  | [] => []
  | (name, v) :: rest => (name, v.replace new) :: replaceFields new rest
end

variable {new : Node}

theorem replaceItems_eq_map (items : List Value) : replaceItems new items = items.map (replace new) := by
  induction items with
  | nil => rfl
  | cons v rest ih => rw [replaceItems, ih, List.map_cons]

theorem lookup_replaceFields (fields : List (String × Value)) (name : String) :
    (replaceFields new fields).lookup name = (fields.lookup name).map (replace new) := by
  induction fields with
  | nil => rfl
  | cons field rest ih =>
    obtain ⟨key, v⟩ := field
    rw [replaceFields, List.lookup_cons, List.lookup_cons]
    split
    · rfl
    · exact ih

theorem replace_toValue_of_ne {n : Node} (h : n.label ≠ new.label) :
    n.toValue.replace new = Node.toValue ⟨n.label, replaceFields new n.fields⟩ := by
  rw [Node.toValue, replace, if_neg h]
  rfl

theorem replace_toValue_of_eq {n : Node} (h : n.label = new.label) : n.toValue.replace new = new.toValue := by
  rw [Node.toValue, replace, if_pos h]

mutual
/-- A value in which nothing has the label stays as it is. -/
theorem replace_eq_self : ∀ {v : Value}, new.label ∉ v.labels → v.replace new = v
  | array items, h => by rw [replace, replaceItems_eq_self h]
  | object label fields, h => by
    obtain ⟨hne, hrest⟩ := not_or.mp (mt List.mem_cons.mpr h)
    rw [replace, if_neg (Ne.symm hne), replaceFields_eq_self hrest]
  | null, _ | bool _, _ | int _, _ | float _, _ | text _, _ | names _, _ => rfl

theorem replaceItems_eq_self : ∀ {items : List Value},
    new.label ∉ (nodesOfItems items).map Node.label → replaceItems new items = items
  | [], _ => rfl
  | v :: rest, h => by
    rw [nodesOfItems, List.map_append, List.mem_append, not_or] at h
    rw [replaceItems, replace_eq_self h.1, replaceItems_eq_self h.2]

theorem replaceFields_eq_self : ∀ {fields : List (String × Value)},
    new.label ∉ (nodesOfFields fields).map Node.label → replaceFields new fields = fields
  | [], _ => rfl
  | (name, v) :: rest, h => by
    rw [nodesOfFields, List.map_append, List.mem_append, not_or] at h
    rw [replaceFields, replace_eq_self h.1, replaceFields_eq_self h.2]
end

/-- The second list is the first with a part of it exchanged. -/
def PartExchanged (part part' l l' : List Nat) : Prop :=
  ∃ before after, l = before ++ part ++ after ∧ l' = before ++ part' ++ after

namespace PartExchanged

variable {part part' l l' : List Nat} (h : PartExchanged part part' l l')
include h

theorem append_left (m : List Nat) : PartExchanged part part' (m ++ l) (m ++ l') := by
  obtain ⟨before, after, rfl, rfl⟩ := h
  exact ⟨m ++ before, after, by simp only [List.append_assoc], by simp only [List.append_assoc]⟩

theorem append_right (m : List Nat) : PartExchanged part part' (l ++ m) (l' ++ m) := by
  obtain ⟨before, after, rfl, rfl⟩ := h
  exact ⟨before, after ++ m, by simp only [List.append_assoc], by simp only [List.append_assoc]⟩

/-- Where no number comes twice, what is not in the part is not in its replacement. -/
theorem not_mem (hl' : l'.Nodup) {i : Nat} (hi : i ∈ l) (hpart : i ∉ part) : i ∉ part' := by
  obtain ⟨before, after, rfl, rfl⟩ := h
  simp only [List.nodup_append, List.mem_append] at hl' hi
  grind

theorem perm (hpart : part.Perm part') : l.Perm l' := by
  obtain ⟨before, after, rfl, rfl⟩ := h
  exact (hpart.append_left before).append_right after

end PartExchanged

mutual
/-- Where an object is replaced, its labels are exchanged for those of the new one, and no others. -/
theorem labels_replace {f : Node} (hf : new.label = f.label) : ∀ {v : Value}, v.labels.Nodup →
    f ∈ v.nodes → PartExchanged f.toValue.labels new.toValue.labels v.labels (v.replace new).labels
  | array items, hl, h => labels_replaceItems hf hl h
  | object label fields, hl, h => by
    obtain ⟨hlabel, hfields⟩ := List.nodup_cons.mp hl
    rcases List.mem_cons.mp h with rfl | h
    · rw [replace, if_pos hf.symm]
      exact ⟨[], [], by simp [Node.toValue], by simp⟩
    · have hne : label ≠ new.label := fun heq => hlabel (by rw [heq, hf]; exact List.mem_map_of_mem h)
      rw [replace, if_neg hne]
      exact (labels_replaceFields hf hfields h).append_left [label]

theorem labels_replaceItems {f : Node} (hf : new.label = f.label) : ∀ {items : List Value},
    ((nodesOfItems items).map Node.label).Nodup → f ∈ nodesOfItems items →
      PartExchanged f.toValue.labels new.toValue.labels ((nodesOfItems items).map Node.label)
        ((nodesOfItems (replaceItems new items)).map Node.label)
  | v :: rest, hl, h => by
    rw [nodesOfItems, List.map_append] at hl
    obtain ⟨hv, hrest, hapart⟩ := List.nodup_append.mp hl
    simp only [replaceItems, nodesOfItems, List.map_append]
    rcases List.mem_append.mp h with h | h
    · rw [replaceItems_eq_self fun hmem => hapart _ (List.mem_map_of_mem h) _ hmem hf.symm]
      exact (labels_replace hf hv h).append_right _
    · rw [replace_eq_self fun hmem => hapart _ hmem _ (List.mem_map_of_mem h) hf]
      exact (labels_replaceItems hf hrest h).append_left _

theorem labels_replaceFields {f : Node} (hf : new.label = f.label) :
    ∀ {fields : List (String × Value)}, ((nodesOfFields fields).map Node.label).Nodup →
      f ∈ nodesOfFields fields →
        PartExchanged f.toValue.labels new.toValue.labels ((nodesOfFields fields).map Node.label)
          ((nodesOfFields (replaceFields new fields)).map Node.label)
  | (_, v) :: rest, hl, h => by
    rw [nodesOfFields, List.map_append] at hl
    obtain ⟨hv, hrest, hapart⟩ := List.nodup_append.mp hl
    simp only [replaceFields, nodesOfFields, List.map_append]
    rcases List.mem_append.mp h with h | h
    · rw [replaceFields_eq_self fun hmem => hapart _ (List.mem_map_of_mem h) _ hmem hf.symm]
      exact (labels_replace hf hv h).append_right _
    · rw [replace_eq_self fun hmem => hapart _ hmem _ (List.mem_map_of_mem h) hf]
      exact (labels_replaceFields hf hrest h).append_left _
end

end Value

/-! ### Nodes with other contents -/

/-- The node `g` is `f` with other values in some fields. -/
structure Node.Altered (names : List String) (f g : Node) : Prop where
  label : g.label = f.label
  lookup : ∀ name ∉ names, g.fields.lookup name = f.fields.lookup name

/-- The node with other items in a field. -/
def Node.withItems (n : Node) (name : String) (items : List Value) : Node :=
  ⟨n.label, Value.setField name (.array items) n.fields⟩

theorem Value.lookup_setField_self (name : String) (v : Value) (fields : List (String × Value)) :
    (setField name v fields).lookup name = some v := by
  induction fields with
  | nil => exact List.lookup_cons_self
  | cons field rest ih =>
    obtain ⟨key, w⟩ := field
    unfold setField
    split
    · exact List.lookup_cons_self
    · rename_i hne
      rw [List.lookup_cons, beq_false_of_ne (Ne.symm hne)]
      exact ih

theorem Value.lookup_setField_of_ne {name other : String} (h : other ≠ name) (v : Value)
    (fields : List (String × Value)) : (setField name v fields).lookup other = fields.lookup other := by
  induction fields with
  | nil =>
    rw [setField, List.lookup_cons, beq_false_of_ne h]
  | cons field rest ih =>
    obtain ⟨key, w⟩ := field
    unfold setField
    split
    · rename_i heq
      rw [List.lookup_cons, List.lookup_cons, heq, beq_false_of_ne h]
    · rw [List.lookup_cons, List.lookup_cons, ih]

theorem Node.field_withItems (n : Node) (name : String) (items : List Value) :
    (n.withItems name items).field name = .array items := by
  rw [field, withItems, Value.lookup_setField_self]
  rfl

theorem Node.altered_withItems (n : Node) (name : String) (items : List Value) :
    n.Altered [name] (n.withItems name items) := by
  refine ⟨rfl, fun other hother => ?_⟩
  exact Value.lookup_setField_of_ne (fun heq => hother (List.mem_singleton.mpr heq)) _ _

/-- The node `g` is `f` with other parameters and another body. -/
structure Node.Refilled (f g : Node) : Prop where
  label : g.label = f.label
  lookup : ∀ name, name ≠ "params" → name ≠ "body" → g.fields.lookup name = f.fields.lookup name

theorem Node.Refilled.altered {f g : Node} (h : f.Refilled g) : f.Altered ["params", "body"] g := by
  refine ⟨h.label, fun name hname => ?_⟩
  obtain ⟨hp, hb⟩ : name ≠ "params" ∧ name ≠ "body" := by simpa using hname
  exact h.lookup name hp hb

/-- Values belong together if the second is the first with `g` in the place of `f`. -/
def refilling (f g : Node) : Correspondence where
  names := .identity
  labels := Eq
  values v w := w = v.replace g ∧ ∀ n ∈ v.nodes, n.label = g.label → n = f

namespace refilling

variable {f g : Node}

theorem values_self {v : Value} (h : g.label ∉ v.labels) : (refilling f g).values v v :=
  ⟨(Value.replace_eq_self h).symm, fun _ hn heq => absurd (heq ▸ List.mem_map_of_mem hn) h⟩

theorem eq_of_label_ne {n n' : Node} (h : (refilling f g).nodes n n') (hn : n.label ≠ g.label) :
    n' = ⟨n.label, Value.replaceFields g n.fields⟩ :=
  Node.toValue_injective (h.1.trans (Value.replace_toValue_of_ne hn))

/-- What is in the fields of any other node is replaced there. -/
theorem rel_lookup {n n' : Node} (h : (refilling f g).nodes n n') (hn : n.label ≠ g.label) (name : String) :
    Option.Rel (refilling f g).values (n.fields.lookup name) (n'.fields.lookup name) := by
  have hunique := h.2
  rw [eq_of_label_ne h hn, Value.lookup_replaceFields]
  cases hlookup : n.fields.lookup name with
  | none => exact .none
  | some v =>
    refine .some ⟨rfl, fun m hm => hunique m (List.mem_cons_of_mem _ ?_)⟩
    exact Value.nodes_subset_of_lookup hlookup hm

theorem nodes_of_label_eq {n n' : Node} (h : (refilling f g).nodes n n') (hn : n.label = g.label) :
    n = f ∧ n' = g :=
  ⟨h.2 n (Value.mem_nodes_toValue n) hn, Node.toValue_injective (h.1.trans (Value.replace_toValue_of_eq hn))⟩

section

variable {names : List String} (ha : f.Altered names g) (hl : f.toValue.WellLabelled)
include ha hl

theorem not_mem_labels_of_lookup {name : String} {v : Value} (h : f.fields.lookup name = some v) :
    g.label ∉ v.labels := by
  rw [ha.label]
  intro hmem
  obtain ⟨m, hm, hlabel⟩ := List.mem_map.mp hmem
  have hin := Value.nodes_subset_of_lookup h hm
  have heq := hl.eq_of_label_eq (List.mem_cons_of_mem _ hin) (Value.mem_nodes_toValue f) hlabel
  exact hl.not_mem_nodesOfFields (heq ▸ hin)

theorem nodes_self : (refilling f g).nodes f g := by
  refine ⟨(Value.replace_toValue_of_eq ha.label.symm).symm, fun n hn hlabel => ?_⟩
  exact hl.eq_of_label_eq hn (Value.mem_nodes_toValue f) (hlabel.trans ha.label)

theorem rel_lookup_self {name : String} (hname : name ∉ names) :
    Option.Rel (refilling f g).values (f.fields.lookup name) (g.fields.lookup name) := by
  rw [ha.lookup name hname]
  cases h : f.fields.lookup name with
  | none => exact .none
  | some v => exact .some (values_self (not_mem_labels_of_lookup ha hl h))

end

/-- A replaced value is a name if the value is one, and then it is the same. -/
theorem name?_eq (v w : Value) (h : (refilling f g).values v w) : w.name? = v.name? := by
  obtain ⟨rfl, -⟩ := h
  cases v with
  | object label fields =>
    rw [Value.replace]
    split <;> rfl
  | _ => rfl

/-- A node is read like the one that it is replaced by. -/
theorem reads_self {names : List String} (ha : f.Altered names g)
    (hread : ∀ name ∈ "name" :: readFields, name ∉ names) (hl : f.toValue.WellLabelled) {k : Kind}
    (hk : f.kind? = some k) : (refilling f g).Reads f g where
  label := ha.label.symm
  isEmpty := by
    -- Both have a `type`.
    have htype := ha.lookup "type" (hread "type" (by decide))
    have hsome : f.fields.lookup "type" ≠ none := by
      intro hnone
      rw [Node.kind?, Node.type, Node.field, hnone] at hk
      cases hk
    generalize f.fields = fields, g.fields = fields' at htype hsome
    cases fields <;> cases fields' <;> first | rfl | exact absurd rfl hsome | exact absurd htype.symm hsome
  name := Correspondence.rel_nameValues rfl name?_eq (rel_lookup_self ha hl (hread "name" (by decide)))
  field name hname := rel_lookup_self ha hl (hread name (List.mem_cons_of_mem _ hname))

theorem reads_of_ne {n n' : Node} (h : (refilling f g).nodes n n') (hn : n.label ≠ g.label) :
    (refilling f g).Reads n n' := by
  obtain rfl := eq_of_label_ne h hn
  refine ⟨rfl, ?_, ?_, fun name _ => rel_lookup h hn name⟩
  · cases n.fields <;> rfl
  · exact Correspondence.rel_nameValues rfl name?_eq (rel_lookup h hn "name")

theorem faithful {names : List String} (ha : f.Altered names g)
    (hread : ∀ name ∈ "name" :: readFields, name ∉ names) (hl : f.toValue.WellLabelled) {k : Kind}
    (hk : f.kind? = some k) : (refilling f g).Faithful where
  null := ⟨rfl, by simp [Value.nodes]⟩
  unique := by
    rintro a b a' b' rfl rfl
    exact Iff.rfl
  shape {v w} h := by
    cases hv : v.node? with
    | some n =>
      obtain rfl := Value.node?_eq_some_iff.mp hv
      obtain ⟨n', rfl⟩ : ∃ n' : Node, w = n'.toValue := by
        obtain ⟨rfl, -⟩ := h
        by_cases hn : n.label = g.label
        · exact ⟨g, Value.replace_toValue_of_eq hn⟩
        · exact ⟨_, Value.replace_toValue_of_ne hn⟩
      refine .node ?_
      by_cases hn : n.label = g.label
      · obtain ⟨rfl, rfl⟩ := nodes_of_label_eq h hn
        exact reads_self ha hread hl hk
      · exact reads_of_ne h hn
    | none =>
      obtain ⟨rfl, hunique⟩ := h
      cases v with
      | array items =>
        rw [Value.replace, Value.replaceItems_eq_map]
        refine .array (List.forall₂_map_right_iff.mpr (List.forall₂_same.mpr fun v hv => ⟨rfl, fun n hn => ?_⟩))
        exact hunique n (Value.nodes_subset_of_mem_array hv hn)
      | object => cases hv
      | _ => exact .atom rfl

/-- A node without children that a walk meets is not replaced. -/
theorem node_eq {root : Value} {u u' v : Visit} (hl : root.WellLabelled) (hu : Enters root [] u)
    (hv : Enters root [] v) (hg : g.label = v.node.label) (huu : (refilling v.node g).Visits u u')
    (hchildren : u.node.children u.kind = []) (hne : u ≠ v) : u'.node = u.node := by
  have hnot : g.label ∉ u.node.toValue.labels := by
    intro hmem
    obtain ⟨m, hm, hlabel⟩ := List.mem_map.mp hmem
    have heq := hl.eq_of_label_eq (Value.nodes_subset hu.mem_nodes hm) hv.mem_nodes (hlabel.trans hg)
    exact hu.not_mem_nodes_of_children_eq_nil hl hv hchildren hne (heq ▸ hm)
  exact Node.toValue_injective (huu.node.1.trans (Value.replace_eq_self hnot))

end refilling

end FreeNames
