import FreeNames.Proofs.CorrespondingAnalyses
import FreeNames.Proofs.Frame
import FreeNames.Proofs.Scoped

/-!
# What the analysis does not look at

Some fields of nodes are never read: a key or a member name that is not computed, the labels of statements, the
specifiers of an export, the outer name of an import, and both parts of a meta property. `Value.outline` is a
value without them, and without its labels, which are not part of the data.

Programs without tables that have the same outline correspond to each other, node by node, and so an analysis
comes to the same on both (`unread_places`). Only where a fault or a position quotes a value of the tree can
the difference be seen.
-/

namespace FreeNames

/-! ### Values up to their labels -/

namespace Value

mutual
/-- The value with no labels. -/
def unlabelled : Value → Value
  | array items => array (unlabelledItems items)
  | object _ fields => object 0 (unlabelledFields fields)
  | v => v

/-- Array items with no labels. -/
def unlabelledItems : List Value → List Value
  | [] => []
  | v :: rest => v.unlabelled :: unlabelledItems rest

/-- Fields with no labels. -/
def unlabelledFields : List (String × Value) → List (String × Value)
  | [] => []
  | (name, v) :: rest => (name, v.unlabelled) :: unlabelledFields rest
end

mutual
theorem length_nodes_unlabelled : ∀ v : Value, v.unlabelled.nodes.length = v.nodes.length
  | array items => by simp only [unlabelled, nodes, length_nodesOfItems_unlabelled items]
  | object label fields => by
    simp only [unlabelled, nodes, List.length_cons, length_nodesOfFields_unlabelled fields]
  | null | bool _ | int _ | float _ | text _ | names _ => rfl

theorem length_nodesOfItems_unlabelled : ∀ items : List Value,
    (nodesOfItems (unlabelledItems items)).length = (nodesOfItems items).length
  | [] => rfl
  | v :: rest => by
    simp only [unlabelledItems, nodesOfItems, List.length_append, length_nodes_unlabelled v,
      length_nodesOfItems_unlabelled rest]

theorem length_nodesOfFields_unlabelled : ∀ fields : List (String × Value),
    (nodesOfFields (unlabelledFields fields)).length = (nodesOfFields fields).length
  | [] => rfl
  | (name, v) :: rest => by
    simp only [unlabelledFields, nodesOfFields, List.length_append, length_nodes_unlabelled v,
      length_nodesOfFields_unlabelled rest]
end

/-- The values are the same but for their labels, and each label belongs to the one in its place. -/
structure Relabels (pairs : List (Nat × Nat)) (v w : Value) : Prop where
  unlabelled : w.unlabelled = v.unlabelled
  pairs : v.labels.zip w.labels ⊆ pairs

variable {pairs : List (Nat × Nat)}

theorem length_labels_eq {v w : Value} (h : w.unlabelled = v.unlabelled) :
    (v.nodes.map Node.label).length = (w.nodes.map Node.label).length := by
  rw [List.length_map, List.length_map, ← length_nodes_unlabelled v, ← h, length_nodes_unlabelled w]

theorem forall₂_relabels_items : ∀ {items items' : List Value},
    unlabelledItems items' = unlabelledItems items →
    ((nodesOfItems items).map Node.label).zip ((nodesOfItems items').map Node.label) ⊆ pairs →
    List.Forall₂ (Relabels pairs) items items'
  | [], [], _, _ => .nil
  | [], _ :: _, h, _ => by cases h
  | _ :: _, [], h, _ => by cases h
  | v :: rest, w :: rest', h, hp => by
    obtain ⟨hv, hrest⟩ := List.cons.inj h
    rw [nodesOfItems, nodesOfItems, List.map_append, List.map_append,
      List.zip_append (length_labels_eq hv)] at hp
    obtain ⟨hp, hprest⟩ := List.append_subset.mp hp
    exact .cons ⟨hv, hp⟩ (forall₂_relabels_items hrest hprest)

theorem forall₂_relabels_fields : ∀ {fields fields' : List (String × Value)},
    unlabelledFields fields' = unlabelledFields fields →
    ((nodesOfFields fields).map Node.label).zip ((nodesOfFields fields').map Node.label) ⊆ pairs →
    List.Forall₂ (fun a b => a.1 = b.1 ∧ Relabels pairs a.2 b.2) fields fields'
  | [], [], _, _ => .nil
  | [], _ :: _, h, _ => by cases h
  | _ :: _, [], h, _ => by cases h
  | (name, v) :: rest, (name', w) :: rest', h, hp => by
    obtain ⟨hhead, hrest⟩ := List.cons.inj h
    obtain ⟨hname, hv⟩ := Prod.mk.inj hhead
    rw [nodesOfFields, nodesOfFields, List.map_append, List.map_append,
      List.zip_append (length_labels_eq hv)] at hp
    obtain ⟨hp, hprest⟩ := List.append_subset.mp hp
    exact .cons ⟨hname.symm, hv, hp⟩ (forall₂_relabels_fields hrest hprest)

theorem rel_lookup {R : Value → Value → Prop} {fields fields' : List (String × Value)}
    (h : List.Forall₂ (fun a b => a.1 = b.1 ∧ R a.2 b.2) fields fields') (name : String) :
    Option.Rel R (fields.lookup name) (fields'.lookup name) := by
  induction h with
  | nil => exact .none
  | @cons a b _ _ h _ ih =>
    rw [List.lookup_cons, List.lookup_cons, ← h.1]
    split
    · exact .some h.2
    · exact ih

end Value

/-- In two lists without repetitions, one item of a place determines the other. -/
theorem eq_iff_of_mem_zip {l l' : List Nat} (hl : l.Nodup) (hl' : l'.Nodup) {a b a' b' : Nat}
    (h : (a, b) ∈ l.zip l') (h' : (a', b') ∈ l.zip l') : a = a' ↔ b = b' := by
  obtain ⟨i, hi, hget⟩ := List.mem_iff_getElem.mp h
  obtain ⟨j, hj, hget'⟩ := List.mem_iff_getElem.mp h'
  rw [List.length_zip, Nat.lt_min] at hi hj
  rw [List.getElem_zip, Prod.mk.injEq] at hget hget'
  rw [← hget.1, ← hget.2, ← hget'.1, ← hget'.2, hl.getElem_inj_iff, hl'.getElem_inj_iff]

/-! ### Unread fields -/

/-- The fields of a node of a kind that are never read. -/
def Kind.unread (k : Kind) (computed : Bool) : List String :=
  match k, computed with
  | property, false | methodDefinition, false | fieldDefinition, false => ["key"]
  | memberExpression, false => ["property"]
  | labeledStatement, _ | breakStatement, _ | continueStatement, _ => ["label"]
  | exportNamedDeclaration, _ => ["specifiers"]
  | importSpecifier, _ => ["imported"]
  | metaProperty, _ => ["meta", "property"]
  | _, _ => []

/-- All fields that are unread in nodes of some kind. -/
def unreadFields : List String := ["key", "property", "label", "specifiers", "imported", "meta"]

theorem Kind.unread_subset (k : Kind) (computed : Bool) : k.unread computed ⊆ unreadFields := by
  unfold unread
  split <;> simp [unreadFields]

/-- The fields of the node that are never read. -/
def Node.unread (n : Node) : List String :=
  match n.kind? with
  | some k => k.unread (n.field "computed").isTrue
  | none => []

theorem Node.unread_subset (n : Node) : n.unread ⊆ unreadFields := by
  unfold unread
  split
  · exact Kind.unread_subset _ _
  · exact List.nil_subset _

theorem Node.not_mem_unread {n : Node} {k : Kind} (hk : n.kind? = some k) {name : String}
    (h : name ∈ n.enteredFields k) : name ∉ n.unread := by
  unfold enteredFields at h
  unfold unread
  rw [hk]
  dsimp only
  split at h
  · rename_i hc
    rw [hc]
    revert h
    cases k <;> simp [Kind.entered, Kind.unread] <;> grind
  · rename_i hc
    rw [Bool.not_eq_true] at hc
    rw [hc]
    revert h
    cases k <;> simp [Kind.entered, Kind.unread, Kind.computedField] <;> grind

/-! ### Values without what is not read -/

namespace Value

mutual
/-- The value without the unread fields of its objects. -/
def seen : Value → Value
  | array items => array (seenItems items)
  | object label fields => object label (seenFields (Node.unread ⟨label, fields⟩) fields)
  | v => v

/-- Array items without the unread fields of their objects. -/
def seenItems : List Value → List Value
  | [] => []
  | v :: rest => v.seen :: seenItems rest

/-- Fields without those of given names, and without the unread fields inside them. -/
def seenFields (unread : List String) : List (String × Value) → List (String × Value)
  | [] => []
  | (name, v) :: rest =>
    if name ∈ unread then seenFields unread rest else (name, v.seen) :: seenFields unread rest
end

/-- What the analysis can see of a value: neither its unread fields nor its labels. -/
def outline (v : Value) : Value := v.seen.unlabelled

theorem seenItems_eq_map (items : List Value) : seenItems items = items.map seen := by
  induction items with
  | nil => rfl
  | cons v rest ih => rw [seenItems, ih, List.map_cons]

theorem lookup_seenFields {unread : List String} {name : String} (h : name ∉ unread)
    (fields : List (String × Value)) :
    (seenFields unread fields).lookup name = (fields.lookup name).map seen := by
  induction fields with
  | nil => rfl
  | cons field rest ih =>
    obtain ⟨other, v⟩ := field
    unfold seenFields
    split
    · rename_i hmem
      rw [ih, List.lookup_cons, beq_false_of_ne fun heq : name = other => h (heq ▸ hmem)]
    · rw [List.lookup_cons, List.lookup_cons, ih]
      split <;> rfl

mutual
/-- No object comes in, and those that stay keep their labels. -/
theorem labels_seen_sublist : ∀ v : Value, v.seen.labels.Sublist v.labels
  | array items => labels_seenItems_sublist items
  | object label fields => (labels_seenFields_sublist _ fields).cons_cons label
  | null | bool _ | int _ | float _ | text _ | names _ => .slnil

theorem labels_seenItems_sublist : ∀ items : List Value,
    ((nodesOfItems (seenItems items)).map Node.label).Sublist ((nodesOfItems items).map Node.label)
  | [] => .slnil
  | v :: rest => by
    simp only [seenItems, nodesOfItems, List.map_append]
    exact (labels_seen_sublist v).append (labels_seenItems_sublist rest)

theorem labels_seenFields_sublist (unread : List String) : ∀ fields : List (String × Value),
    ((nodesOfFields (seenFields unread fields)).map Node.label).Sublist ((nodesOfFields fields).map Node.label)
  | [] => .slnil
  | (name, v) :: rest => by
    unfold seenFields
    split
    · simp only [nodesOfFields, List.map_append]
      exact (labels_seenFields_sublist unread rest).trans (List.sublist_append_right _ _)
    · simp only [nodesOfFields, List.map_append]
      exact (labels_seen_sublist v).append (labels_seenFields_sublist unread rest)
end

mutual
/-- A value without objects is its own outline, and that of no other value. -/
theorem eq_of_outline_eq : ∀ {v w : Value}, v.nodes = [] → w.outline = v.outline → w = v
  | array items, w, hv, h => by
    cases w with
    | array items' =>
      exact congrArg array (eq_of_outlineItems_eq hv (Value.array.inj h))
    | _ => cases h
  | object .., _, hv, _ => by cases hv
  | null, w, _, h | bool _, w, _, h | int _, w, _, h | float _, w, _, h | text _, w, _, h
  | names _, w, _, h => by cases w <;> first | exact h | cases h

theorem eq_of_outlineItems_eq : ∀ {items items' : List Value}, nodesOfItems items = [] →
    unlabelledItems (seenItems items') = unlabelledItems (seenItems items) → items' = items
  | [], [], _, _ => rfl
  | [], _ :: _, _, h => by cases h
  | _ :: _, [], _, h => by cases h
  | v :: rest, w :: rest', hv, h => by
    obtain ⟨hv, hrest⟩ := List.append_eq_nil_iff.mp hv
    obtain ⟨h, hrest'⟩ := List.cons.inj h
    rw [eq_of_outline_eq hv h, eq_of_outlineItems_eq hrest hrest']
end

end Value

namespace Node

/-- The fields of the node that are read. -/
def seenFields (n : Node) : List (String × Value) := Value.seenFields n.unread n.fields

/-- A node that has unread fields has others too. -/
theorem isEmpty_seenFields (n : Node) : n.seenFields.isEmpty = n.fields.isEmpty := by
  obtain ⟨label, fields⟩ := n
  cases fields with
  | nil => rfl
  | cons field rest =>
    cases hk : (Node.mk label (field :: rest)).kind? with
    | none =>
      have hunread : (Node.mk label (field :: rest)).unread = [] := by rw [unread, hk]
      rw [seenFields, hunread]
      simp [Value.seenFields]
    | some k =>
      have htype : (Node.mk label (field :: rest)).seenFields.lookup "type" ≠ none := by
        rw [seenFields, Value.lookup_seenFields fun h => absurd (unread_subset _ h) (by decide)]
        intro hnone
        rw [Option.map_eq_none_iff] at hnone
        rw [kind?, type, Node.field, hnone] at hk
        cases hk
      cases hseen : (Node.mk label (field :: rest)).seenFields with
      | nil => exact absurd (by rw [hseen]; rfl) htype
      | cons => rfl

end Node

/-! ### Programs of one outline correspond -/

/-- What is read of two values is the same but for labels, and the labels are paired. -/
def outlineCorrespondence (pairs : List (Nat × Nat)) : Correspondence where
  names := .identity
  labels l l' := (l, l') ∈ pairs
  values v w := Value.Relabels pairs v.seen w.seen

namespace outlineCorrespondence

variable {pairs : List (Nat × Nat)} {n n' : Node}

theorem rel_field (h : (outlineCorrespondence pairs).nodes n n') {name : String} (hn : name ∉ n.unread)
    (hn' : name ∉ n'.unread) :
    Option.Rel (outlineCorrespondence pairs).values (n.fields.lookup name) (n'.fields.lookup name) := by
  have hfields : Value.unlabelledFields n'.seenFields = Value.unlabelledFields n.seenFields :=
    (Value.object.inj h.unlabelled).2
  have hpairs := (List.cons_subset.mp h.pairs).2
  have hrel := Value.rel_lookup (Value.forall₂_relabels_fields hfields hpairs) name
  rw [Node.seenFields, Node.seenFields, Value.lookup_seenFields hn, Value.lookup_seenFields hn'] at hrel
  generalize n.fields.lookup name = o, n'.fields.lookup name = o' at hrel ⊢
  cases o <;> cases o' <;> cases hrel
  · exact .none
  · exact .some ‹_›

theorem rel_field_of_not_mem (h : (outlineCorrespondence pairs).nodes n n') (name : String)
    (hname : name ∉ unreadFields) :
    Option.Rel (outlineCorrespondence pairs).values (n.fields.lookup name) (n'.fields.lookup name) :=
  rel_field h (fun hmem => hname (n.unread_subset hmem)) fun hmem => hname (n'.unread_subset hmem)

/-- Values that look the same in the place of a name are the same name. -/
theorem name?_eq (v w : Value) (h : (outlineCorrespondence pairs).values v w) : w.name? = v.name? := by
  have houtline : w.outline = v.outline := h.unlabelled
  cases v <;> cases w <;> first | rfl | (cases houtline; rfl) | cases houtline

theorem reads (h : (outlineCorrespondence pairs).nodes n n') : (outlineCorrespondence pairs).Reads n n' where
  label := (List.cons_subset.mp h.pairs).1
  isEmpty := by
    have hfields : Value.unlabelledFields n'.seenFields = Value.unlabelledFields n.seenFields :=
      (Value.object.inj h.unlabelled).2
    rw [← n.isEmpty_seenFields, ← n'.isEmpty_seenFields]
    generalize n.seenFields = fields, n'.seenFields = fields' at hfields
    cases fields <;> cases fields' <;> first | rfl | cases hfields
  name := Correspondence.rel_nameValues rfl name?_eq (rel_field_of_not_mem h "name" (by decide))
  field name hname := by
    have hread : ∀ name ∈ readFields, name ∉ unreadFields := by decide
    exact rel_field_of_not_mem h name (hread name hname)

theorem shape {v w : Value} (h : (outlineCorrespondence pairs).values v w) :
    (outlineCorrespondence pairs).Shape v w := by
  have houtline := h.unlabelled
  cases v with
  | array items =>
    cases w with
    | array items' =>
      have hitems := Value.forall₂_relabels_items (Value.array.inj houtline) h.pairs
      rw [Value.seenItems_eq_map, Value.seenItems_eq_map, List.forall₂_map_left_iff,
        List.forall₂_map_right_iff] at hitems
      exact .array hitems
    | _ => cases houtline
  | object label fields =>
    cases w with
    | object label' fields' =>
      have hnodes : (outlineCorrespondence pairs).nodes ⟨label, fields⟩ ⟨label', fields'⟩ := h
      exact .node (reads hnodes)
    | _ => cases houtline
  | _ => cases w <;> first | cases houtline; exact .atom rfl | cases houtline

theorem complete (hunique : ∀ {a b a' b' : Nat}, (a, b) ∈ pairs → (a', b') ∈ pairs → (a = a' ↔ b = b')) :
    (outlineCorrespondence pairs).Complete := by
  have hC : (outlineCorrespondence pairs).Faithful := ⟨⟨rfl, List.nil_subset _⟩, shape, hunique⟩
  refine ⟨hC, fun h => rel_field_of_not_mem h "params" (by decide), ?_⟩
  intro n n' k h hk name hname
  have hunread : n'.unread = n.unread := by
    rw [Node.unread, Node.unread, hC.kind? h, hC.isTrue (hC.field h "computed" (by decide))]
  have hnot := Node.not_mem_unread hk hname
  exact rel_field h hnot (hunread ▸ hnot)

end outlineCorrespondence

/-! ### Same outlines, same findings -/

/-- The references are of one kind, with nodes of the same kinds around, and stand at the same place. -/
structure Reference.Alike (r r' : Reference) : Prop where
  kind : r'.node.kind? = r.node.kind?
  around : r'.around.map Node.kind? = r.around.map Node.kind?
  position : r'.position.map (Position.map Value.outline) = r.position.map (Position.map Value.outline)

/-- The groups have the same name and the same references. -/
structure Group.Alike (g g' : Group) : Prop where
  name : g'.name = g.name
  references : List.Forall₂ Reference.Alike g.references g'.references

section

variable {C : Correspondence} (hC : C.Complete) (houtline : ∀ v w, C.values v w → w.outline = v.outline)
include hC houtline

theorem Reference.alike {r r' : Reference} (h : C.References r r') : r.Alike r' where
  kind := hC.kind? h.node
  around := by
    have haround := h.around
    generalize r.around = l, r'.around = l' at haround
    induction haround with
    | nil => rfl
    | cons h _ ih => rw [List.map_cons, List.map_cons, ih, hC.kind? h]
  position := by
    have hposition := hC.position h.node
    unfold Reference.position
    generalize hp : r.node.position = p at hposition
    generalize r'.node.position = p' at hposition
    cases hposition with
    | ok h => exact congrArg Except.ok (congrArg₂ Position.mk (houtline _ _ h.line) (houtline _ _ h.column))
    | error hf =>
      obtain rfl := Node.eq_notAnObject_of_position hp
      cases hf
      rfl

/-- Without a renaming, groups that correspond come in the same order. -/
theorem Group.forall₂_alike (hnames : C.names = .identity) {found found' : List Group}
    (hsorted : found.Pairwise fun g g' => g.name.key < g'.name.key)
    (hsorted' : found'.Pairwise fun g g' => g.name.key < g'.name.key) (h : C.Reordered found found') :
    List.Forall₂ Group.Alike found found' := by
  obtain ⟨same, hsame, hperm⟩ := h
  have halike : List.Forall₂ Group.Alike found same := by
    refine hsame.imp fun g g' hg => ⟨?_, hg.references.imp fun r r' => Reference.alike hC houtline⟩
    rw [hg.name, hnames, Name.rename_identity]
  have hnames' : same.map Group.name = found.map Group.name := by
    clear hsame hperm hsorted
    induction halike with
    | nil => rfl
    | cons h _ ih => rw [List.map_cons, List.map_cons, h.name, ih]
  have hsorted_same : same.Pairwise fun g g' => g.name.key < g'.name.key := by
    refine (List.pairwise_map (f := Group.name) (R := fun x y => x.key < y.key)).mp ?_
    rw [hnames']
    exact List.pairwise_map.mpr hsorted
  rw [hperm.eq_of_pairwise (fun a b _ _ hab hba => absurd (List.lt_trans hab hba) (List.lt_irrefl _)) hsorted'
    hsorted_same]
  exact halike

end

/-- The visits are of one kind, and the nodes have the same slots in their tables. -/
structure Visit.SameSlot (tables tables' : Tables) (v v' : Visit) : Prop where
  kind : v'.kind = v.kind
  slot : tables'.slot? v'.node.label = tables.slot? v.node.label

/-- **What is not read does not matter.** Let two programs without tables be the same but for their unread
fields. Then the analysis fails on both with the same fault, up to the unread fields in values that the fault
quotes, and exactly the same if it quotes no object. Or it succeeds on both: it finds the same names, with
references at the same places, up to unread fields in the values of the places, and with nodes of the same
kinds around them, and the nodes that walks meet have the same tables. -/
theorem unread_places {t t' : Tree} (hfresh : t.Fresh) (hfresh' : t'.Fresh)
    (h : t'.root.outline = t.root.outline) (name : Text) :
    (∃ fault fault', (t.analyze name).result = .error fault ∧ (t'.analyze name).result = .error fault' ∧
        fault'.map Value.outline = fault.map Value.outline ∧
        ((∀ v ∈ fault.quoted, v.nodes = []) → fault' = fault)) ∨
      ∃ found found', (t.analyze name).result = .ok found ∧ (t'.analyze name).result = .ok found' ∧
        List.Forall₂ Group.Alike found found' ∧
        List.Forall₂ (Visit.SameSlot (t.analyze name).tree.tables (t'.analyze name).tree.tables)
          (walk t.root).visits (walk t'.root).visits := by
  let pairs := t.root.seen.labels.zip t'.root.seen.labels
  have hlabels : t.root.seen.labels.Nodup := (t.root.labels_seen_sublist).nodup hfresh.wellLabelled
  have hlabels' : t'.root.seen.labels.Nodup := (t'.root.labels_seen_sublist).nodup hfresh'.wellLabelled
  have hC : (outlineCorrespondence pairs).Complete :=
    outlineCorrespondence.complete fun h h' => eq_iff_of_mem_zip hlabels hlabels' h h'
  have hroot : (outlineCorrespondence pairs).values t.root t'.root := ⟨h, List.Subset.refl _⟩
  have houtline : ∀ v w, (outlineCorrespondence pairs).values v w → w.outline = v.outline :=
    fun v w hvw => hvw.unlabelled
  have hanswers : (outlineCorrespondence pairs).Answers t.tables t'.tables := by
    intro l l' _ x
    rw [Tables.binds_of_slot?_eq_none (hfresh.noTables l), Tables.binds_of_slot?_eq_none (hfresh'.noTables l')]
  have hresult := hC.analyze hroot hanswers name
  generalize hfound : (t.analyze name).result = r at hresult
  generalize hfound' : (t'.analyze name).result = r' at hresult
  cases hresult with
  | @error fault fault' hf =>
    refine .inl ⟨fault, fault', rfl, rfl, hf.map_eq houtline, fun hquoted => hf.eq fun v hv w hvw => ?_⟩
    exact Value.eq_of_outline_eq (hquoted v hv) (houtline v w hvw)
  | @ok found found' hgroups =>
    obtain ⟨hp, -, refs, -, hgrouped⟩ := Tree.analyze_result_eq_ok_iff.mp hfound
    obtain ⟨hp', -, refs', -, hgrouped'⟩ := Tree.analyze_result_eq_ok_iff.mp hfound'
    refine .inr ⟨found, found', rfl, rfl, ?_, ?_⟩
    · exact Group.forall₂_alike hC houtline rfl (sorted_of_groups hgrouped) (sorted_of_groups hgrouped') hgroups
    · rw [Tree.analyze_tables name hp, Tree.analyze_tables name hp']
      refine (hC.walk hroot).visits.imp fun v v' hv => ⟨hv.kind, ?_⟩
      rcases hC.slot?_buildScopes hroot t.tables t'.tables (hC.reads hv.node).label with
        ⟨set, hs, hs'⟩ | ⟨hs, hs'⟩
      · rw [hs, hs']
        exact congrArg (fun set => some (Value.names set)) set.rename_identity
      · rw [hs, hs', hfresh.noTables, hfresh'.noTables]

/-- The program `l: x; ({ k: y })` with any values in the places of `l` and `k`. -/
def labelledProgram (label key : Value) : Tree :=
  .ofStatements
    [Kind.labeledStatement.object [("label", label), ("body", .identifierStatement "x")],
     Kind.expressionStatement.object
      [("expression", Kind.objectExpression.object
        [("properties", .array
          [Kind.property.object [("key", key), ("computed", .bool false), ("value", .identifier "y")]])])]]

theorem unread_places_labelledProgram :
    (labelledProgram (.identifier "l") (.identifier "k")).Fresh ∧
      (labelledProgram .null (.array [.object 0 [], .text "k"])).Fresh ∧
      (labelledProgram .null (.array [.object 0 [], .text "k"])).root.outline =
        (labelledProgram (.identifier "l") (.identifier "k")).root.outline ∧
      ∃ found found', ((labelledProgram (.identifier "l") (.identifier "k")).analyze "s").result = .ok found ∧
        found.map Group.name = [.text "x", .text "y"] ∧
        ((labelledProgram .null (.array [.object 0 [], .text "k"])).analyze "s").result = .ok found' ∧
        List.Forall₂ Group.Alike found found' := by
  have hfresh : ∀ label key, (labelledProgram label key).tables.slots.isEmpty →
      (labelledProgram label key).Fresh :=
    fun label key h => ⟨Tree.wellLabelled_ofValue _, Tables.slot?_eq_none_of_isEmpty h⟩
  have h₁ := hfresh (.identifier "l") (.identifier "k") (by decide +kernel)
  have h₂ := hfresh .null (.array [.object 0 [], .text "k"]) (by decide +kernel)
  have hnames : ((labelledProgram (.identifier "l") (.identifier "k")).analyze "s").result.toOption.map
      (List.map Group.name) = some [.text "x", .text "y"] := by decide +kernel
  obtain ⟨found, hfound, hnames⟩ := Option.map_eq_some_iff.mp hnames
  have h := eq_ok_of_toOption hfound
  have houtline : (labelledProgram .null (.array [.object 0 [], .text "k"])).root.outline =
      (labelledProgram (.identifier "l") (.identifier "k")).root.outline := rfl
  refine ⟨h₁, h₂, houtline, ?_⟩
  rcases unread_places h₁ h₂ houtline "s" with
    ⟨fault, -, hfault, -⟩ | ⟨found₁, found₂, hfound₁, hfound₂, hgroups, -⟩
  · cases h.symm.trans hfault
  · obtain rfl := Except.ok.inj (h.symm.trans hfound₁)
    exact ⟨found, found₂, h, hnames, hfound₂, hgroups⟩

/-- The program `x`, where `x` stands in the given line. -/
def placedProgram (line : Value) : Tree :=
  .ofStatements
    [Kind.expressionStatement.object
      [("expression", Kind.identifier.object
        [("name", .text "x"), ("loc", .object 0 [("start", .object 0 [("line", line), ("column", .int 0)])])])]]

/-- The lines of all that was found, as texts. -/
def Analyzed.lines? (a : Analyzed) : Option (List (List Text)) :=
  a.result.toOption.bind fun found => found.mapM fun g =>
    g.positions.toOption.map fun positions => positions.map fun p => p.line.plain

/-- A `break` to a label, in a place where it is quoted as a value. -/
def quotedBreak (label : String) : Value := Kind.breakStatement.object [("label", .text label)]

theorem outline_quotedProgram (label : String) : (quotedProgram (quotedBreak label)).root.outline =
    (quotedProgram (Kind.breakStatement.object [])).root.outline := rfl

theorem outline_placedProgram (label : String) : (placedProgram (quotedBreak label)).root.outline =
    (placedProgram (Kind.breakStatement.object [])).root.outline := rfl

/-- Kinds of patterns and lines are quoted whole, with what is not read in them. -/
theorem unread_label_quoted :
    (quotedProgram (quotedBreak "a")).root.outline = (quotedProgram (quotedBreak "b")).root.outline ∧
      ((quotedProgram (quotedBreak "a")).analyze "s").message? =
        some ("Unrecognized pattern type: " ++ leftBrace ++ "'type': 'BreakStatement', 'label': 'a'" ++ rightBrace) ∧
      ((quotedProgram (quotedBreak "b")).analyze "s").message? =
        some ("Unrecognized pattern type: " ++ leftBrace ++ "'type': 'BreakStatement', 'label': 'b'" ++ rightBrace) ∧
    (placedProgram (quotedBreak "a")).root.outline = (placedProgram (quotedBreak "b")).root.outline ∧
      ((placedProgram (quotedBreak "a")).analyze "s").lines? =
        some [[(leftBrace ++ "'type': 'BreakStatement', 'label': 'a'" ++ rightBrace : Text)]] ∧
      ((placedProgram (quotedBreak "b")).analyze "s").lines? =
        some [[(leftBrace ++ "'type': 'BreakStatement', 'label': 'b'" ++ rightBrace : Text)]] := by
  refine ⟨?_, ?_, ?_, ?_, ?_, ?_⟩
  · rw [outline_quotedProgram "a", outline_quotedProgram "b"]
  · decide +kernel
  · decide +kernel
  · rw [outline_placedProgram "a", outline_placedProgram "b"]
  · decide +kernel
  · decide +kernel

end FreeNames
