import FreeNames.Proofs.Encapsulation
import FreeNames.Proofs.StatementOrder

/-!
# A parameter shadows inside its function

A function of a program gets one more parameter, an identifier at the end. The program with the longer list is
analysed successfully if the one from before is. The table of the function has the new name, all other tables are
the same, and of the references exactly the identifiers of that name inside the function are gone
(`added_parameter`).

The walks of the two programs are compared visit by visit (`Grown`): they correspond, but for the new
parameter, which the second walk meets besides. It declares nothing, and it is bound where it is met.
-/

namespace FreeNames

/-! ### The function with one more parameter -/

namespace Node

variable {f p : Node} {x : Name}

/-- An identifier that is bound asks for nothing else. -/
theorem acts_bound_identifier (hk : p.kind? = some .identifier) (hx : p.Named x) (label : Nat) :
    (bound p.toValue).acts label = [.bind label x] := by
  rw [bound_toValue, hk, boundAs, require_eq_ok_iff.mpr hx, Bound.ofName_toValue]
  rfl

/-- The node `g` is `f` with the identifier `p` of name `x` as one more parameter. -/
structure Extended (f g p : Node) (x : Name) : Prop where
  params : ∃ params, f.field "params" = .array params ∧ g = f.withItems "params" (params ++ [p.toValue])
  isIdentifier : p.kind? = some .identifier
  named : p.Named x

namespace Extended

variable {g : Node} (h : f.Extended g p x)
include h

theorem altered : f.Altered ["params"] g := by
  obtain ⟨params, -, rfl⟩ := h.params
  exact f.altered_withItems "params" _

theorem field_eq {name : String} (hname : name ≠ "params") : g.field name = f.field name := by
  rw [field, field, h.altered.lookup name (by simpa using hname)]

/-- The function binds the new name after its other parameters. -/
theorem functionActs : ∃ before after, f.functionActs = before ++ after ∧
    g.functionActs = before ++ .bind f.label x :: after := by
  obtain ⟨params, hparams, hg⟩ := h.params
  have hmembers : g.membersOf "params" = .ok (params ++ [p.toValue]) :=
    membersOf_of_field_eq_array (hg ▸ f.field_withItems "params" _)
  have hown : g.bindOwnName = f.bindOwnName := by
    unfold bindOwnName ownName
    rw [h.field_eq (by decide), h.altered.label]
  refine ⟨.create f.label :: params.flatMap fun q => (bound q).acts f.label, f.bindOwnName, ?_, ?_⟩
  · rw [Node.functionActs, membersOf_of_field_eq_array hparams]
    rfl
  · rw [Node.functionActs, hmembers, hown, h.altered.label, Act.after, List.flatMap_append]
    simp only [List.flatMap_cons, List.flatMap_nil, List.append_nil]
    rw [acts_bound_identifier h.isIdentifier h.named]
    simp

end Extended

end Node

/-! ### Walks side by side -/

/-- The reference is of the same node, and the nodes around it are the same, but for `g` that took its place. -/
structure Reference.Kept (g : Node) (r r' : Reference) : Prop where
  node : r'.node = r.node
  around : r'.around.map Node.toValue = r.around.map fun n => n.toValue.replace g

namespace Reference.Kept

variable {f g : Node}

theorem of_visits {v v' : Visit} (h : (refilling f g).Visits v v') (hnode : v'.node = v.node) :
    Kept g v.toReference v'.toReference := by
  refine ⟨hnode, ?_⟩
  have haround := h.around
  unfold Visit.toReference
  generalize v.around = around, v'.around = around' at haround
  induction haround with
  | nil => rfl
  | cons hn _ ih => exact List.cons_eq_cons.mpr ⟨hn.1, ih⟩

theorem sameNode {r r' : Reference} (h : Kept g r r') : r.SameNode r' := h.node.symm

end Reference.Kept

/-- The visits correspond, but for those of the identifier `p` right inside the node `g`. -/
inductive Grown (f g p : Node) : List Visit → List Visit → Prop where
  | nil : Grown f g p [] []
  | both {v v' : Visit} {vs vs' : List Visit} (h : (refilling f g).Visits v v') (hl : Grown f g p vs vs') :
      Grown f g p (v :: vs) (v' :: vs')
  | extra {around : List Node} {vs vs' : List Visit} (hl : Grown f g p vs vs') :
      Grown f g p vs (⟨p, .identifier, g :: around⟩ :: vs')

namespace Grown

variable {f g p : Node} {vs vs' us us' : List Visit}

theorem append (h : Grown f g p vs vs') (h' : Grown f g p us us') : Grown f g p (vs ++ us) (vs' ++ us') := by
  induction h with
  | nil => exact h'
  | both h _ ih => exact .both h ih
  | extra _ ih => exact .extra ih

/-- What walks of values meet has grown if it has done so for each of the values. -/
theorem flatMap {l l' : List Value} (h : List.Forall₂ (refilling f g).values l l') {around around' : List Node}
    (hwalk : ∀ w ∈ l, ∀ w', (refilling f g).values w w' → (visits w' around').fault = none ∧
      Grown f g p (visits w around).visits (visits w' around').visits) :
    (∀ w' ∈ l', (visits w' around').fault = none) ∧
      Grown f g p (l.flatMap fun w => (visits w around).visits)
        (l'.flatMap fun w' => (visits w' around').visits) := by
  induction h with
  | nil => exact ⟨by simp, .nil⟩
  | cons h _ ih =>
    obtain ⟨hfault, hgrown⟩ := hwalk _ List.mem_cons_self _ h
    obtain ⟨hfaults, hrest⟩ := ih fun w hw => hwalk w (List.mem_cons_of_mem _ hw)
    exact ⟨List.forall_mem_cons.mpr ⟨hfault, hfaults⟩, hgrown.append hrest⟩

/-- What is met besides is nothing but the new parameter. -/
theorem forall_right {P : Visit → Prop} (h : Grown f g p vs vs')
    (hboth : ∀ v ∈ vs, ∀ v', (refilling f g).Visits v v' → P v')
    (hextra : ∀ around, P ⟨p, .identifier, g :: around⟩) : ∀ v' ∈ vs', P v' := by
  induction h with
  | nil => simp
  | both h _ ih =>
    refine List.forall_mem_cons.mpr ⟨hboth _ List.mem_cons_self _ h, ?_⟩
    exact ih fun v hv => hboth v (List.mem_cons_of_mem _ hv)
  | extra _ ih => exact List.forall_mem_cons.mpr ⟨hextra _, ih hboth⟩

/-- Choices that agree where visits correspond, and leave out the new parameter, keep the same references. -/
theorem kept (h : Grown f g p vs vs') {chosen chosen' : Visit → Bool}
    (hboth : ∀ v ∈ vs, ∀ v', (refilling f g).Visits v v' →
      chosen' v' = chosen v ∧ (chosen v → v'.node = v.node))
    (hextra : ∀ around, chosen' ⟨p, .identifier, g :: around⟩ = false) :
    List.Forall₂ (Reference.Kept g) ((vs.filter chosen).map Visit.toReference)
      ((vs'.filter chosen').map Visit.toReference) := by
  induction h with
  | nil => exact .nil
  | @both v v' _ _ h _ ih =>
    obtain ⟨hv, hrest⟩ := List.forall_mem_cons.mp hboth
    obtain ⟨hchosen, hnode⟩ := hv v' h
    rw [List.filter_cons, List.filter_cons, hchosen]
    split
    · rename_i hc
      exact .cons (.of_visits h (hnode hc)) (ih hrest)
    · exact ih hrest
  | extra _ ih =>
    rw [List.filter_cons_of_neg (by simp [hextra])]
    exact ih hboth

end Grown

/-- A walk of an identifier meets nothing else. -/
theorem visits_identifier {p : Node} (hp : p.kind? = some .identifier) (around : List Node) :
    (visits p.toValue around).fault = none ∧ (visits p.toValue around).visits = [⟨p, .identifier, around⟩] := by
  have hk := Node.enteredKind_eq_ok_iff.mpr hp
  have hchildren := Node.children_of_reference (n := p) (.inl rfl)
  have hf : (visits p.toValue around).fault = none := by
    rw [visits_toValue_fault_eq_none_iff hk, hchildren]
    simp
  exact ⟨hf, by rw [visits_of_fault_eq_none hk hf, hchildren]; rfl⟩

/-- The second program is the first with the identifier `p` of name `x` as one more parameter of the function that
is met as `v`. -/
structure Extending (root root' : Node) (v : Visit) (g p : Node) (x : Name) : Prop where
  wellLabelled : root.toValue.WellLabelled
  entered : v ∈ root.entered
  isFunction : v.kind.isFunction
  extended : v.node.Extended g p x
  replaced : root'.toValue = root.toValue.replace g

/-- The reference is an identifier of a name, and it has the node of a label around it. -/
def Reference.isCaptured (x : Name) (label : Nat) (r : Reference) : Bool :=
  !r.isThis && r.isNamed x && r.isBelow label

/-- An identifier is captured if it has the name and is below the node. -/
theorem Visit.isCaptured_toReference_iff {u : Visit} (hkind : u.node.kind? = some u.kind)
    (hi : u.kind = .identifier) {x y : Name} (hy : u.node.Named y) {label : Nat} :
    u.toReference.isCaptured x label = false ↔ ¬ (y.key = x.key ∧ u.toReference.isBelow label) := by
  have hthis : u.toReference.isThis = false := by
    rw [← Bool.not_eq_true, isThis_toReference_iff hkind, hi]
    simp
  have hname : u.toReference.name = .ok y := by
    rw [Reference.name, hthis]
    exact Node.name_eq_ok_iff.mpr hy
  have hnamed : u.toReference.isNamed x ↔ y.key = x.key := by
    rw [Reference.isNamed_iff, hname]
    simp
  rw [← Bool.not_eq_true, Reference.isCaptured, hthis, Bool.not_false, Bool.true_and, Bool.and_eq_true, hnamed]

namespace Extending

variable {root root' g p : Node} {v : Visit} {x : Name} (h : Extending root root' v g p x)
include h

theorem wellLabelled_node : v.node.toValue.WellLabelled :=
  (enters_of_mem_visits h.entered).wellLabelled h.wellLabelled

theorem faithful : (refilling v.node g).Faithful :=
  refilling.faithful h.extended.altered (by decide) h.wellLabelled_node
    (Node.kind?_of_enteredKind (enters_of_mem_visits h.entered).enteredKind_eq)

theorem nodes_root : (refilling v.node g).nodes root root' := by
  refine ⟨h.replaced, fun n hn hlabel => ?_⟩
  exact h.wellLabelled.eq_of_label_eq hn (enters_of_mem_visits h.entered).mem_nodes
    (hlabel.trans h.extended.altered.label)

/-- The children of the function, with the new parameter among them. -/
theorem children {k : Kind} (hk : k.isFunction) :
    ∃ before after before' after', v.node.children k = before ++ after ∧
      g.children k = before' ++ p.toValue :: after' ∧
      List.Forall₂ (refilling v.node g).values before before' ∧
      List.Forall₂ (refilling v.node g).values after after' := by
  have hC := h.faithful
  have ha := h.extended.altered
  obtain ⟨params, hparams, hg⟩ := h.extended.params
  have hparams' : g.field "params" = .array (params ++ [p.toValue]) := hg ▸ v.node.field_withItems "params" _
  have hother : ∀ {name : String}, name ≠ "params" →
      List.Forall₂ (refilling v.node g).values (Node.fieldChildren (v.node.field name))
        (Node.fieldChildren (g.field name)) := by
    intro name hname
    refine hC.fieldChildren (hC.field_of_rel (refilling.rel_lookup_self ha h.wellLabelled_node ?_))
    simpa using hname
  have hname : List.Forall₂ (refilling v.node g).values
      ((k.entered.filter (· == "id")).flatMap fun name => Node.fieldChildren (v.node.field name))
      ((k.entered.filter (· == "id")).flatMap fun name => Node.fieldChildren (g.field name)) := by
    refine List.rel_flatMap (R := fun name name' => name = name' ∧ name = "id") ?_ ?_
    · exact List.forall₂_same.mpr fun name hmem => ⟨rfl, by simpa using (List.mem_filter.mp hmem).2⟩
    · rintro name _ ⟨rfl, rfl⟩
      exact hother (by decide)
  -- The old parameters stand in both lists, and the function is not inside them.
  have hold : List.Forall₂ (refilling v.node g).values (Node.fieldChildren (.array params))
      (Node.fieldChildren (.array params)) := by
    have hnot := refilling.not_mem_labels_of_lookup ha h.wellLabelled_node
      (Node.lookup_of_field_eq_array hparams)
    refine List.forall₂_same.mpr fun w hw => refilling.values_self fun hmem => hnot ?_
    exact List.map_subset _ (Value.nodes_subset_of_mem_array (List.mem_filter.mp hw).1) hmem
  have hnew : Node.fieldChildren (.array (params ++ [p.toValue])) =
      Node.fieldChildren (.array params) ++ [p.toValue] := by
    simp [Node.fieldChildren, Node.toValue, Value.isNull]
  refine ⟨_, _, _, _, ?_, ?_, List.rel_append hname hold, hother (show "body" ≠ "params" by decide)⟩
  · rw [Node.children_of_isFunction hk, Node.contents, hparams, List.append_assoc]
  · rw [Node.children_of_isFunction hk, Node.contents, hparams', hnew]
    simp only [List.append_assoc, List.cons_append, List.nil_append]

theorem grown_visits {u w : Value} (huw : (refilling v.node g).values u w) {around around' : List Node}
    (ha : List.Forall₂ (refilling v.node g).nodes around around') (hf : (visits u around).fault = none) :
    (visits w around').fault = none ∧ Grown v.node g p (visits u around).visits (visits w around').visits := by
  have hC := h.faithful
  induction u, around using visits_induction generalizing w around' with
  | plain u around hn =>
    rw [visits_of_node?_eq_none hn] at hf
    cases hf
  | unknown n fault around hk =>
    rw [visits_of_enteredKind_eq_error hk] at hf
    cases hf
  | node n k around hk ih =>
    obtain ⟨n', rfl, hnn⟩ := hC.exists_node huw
    have hk' := hC.enteredKind_eq_ok hnn hk
    have hwalk : ∀ w ∈ n.children k, ∀ w', (refilling v.node g).values w w' →
        (visits w' (n' :: around')).fault = none ∧
          Grown v.node g p (visits w (n :: around)).visits (visits w' (n' :: around')).visits :=
      fun w hw w' hww => ih w hw hww (.cons hnn ha) (visits_child_fault_eq_none hk hf hw)
    -- It is enough to compare what is met below the node.
    suffices hbelow : (∀ w' ∈ n'.children k, (visits w' (n' :: around')).fault = none) ∧
        Grown v.node g p ((n.children k).flatMap fun w => (visits w (n :: around)).visits)
          ((n'.children k).flatMap fun w' => (visits w' (n' :: around')).visits) by
      have hf' := (visits_toValue_fault_eq_none_iff hk').mpr hbelow.1
      rw [visits_of_fault_eq_none hk hf, visits_of_fault_eq_none hk' hf']
      exact ⟨hf', .both ⟨hnn, rfl, ha⟩ hbelow.2⟩
    by_cases hn : n.label = g.label
    · obtain ⟨rfl, rfl⟩ := refilling.nodes_of_label_eq hnn hn
      have hkind : k = v.kind :=
        Except.ok.inj (hk.symm.trans (enters_of_mem_visits h.entered).enteredKind_eq)
      obtain ⟨before, after, before', after', hchildren, hchildren', hbefore, hafter⟩ :=
        h.children (hkind ▸ h.isFunction)
      rw [hchildren] at hwalk
      obtain ⟨hfaults, hgrown⟩ := Grown.flatMap hbefore fun w hw => hwalk w (List.mem_append_left _ hw)
      obtain ⟨hfaults', hgrown'⟩ := Grown.flatMap hafter fun w hw => hwalk w (List.mem_append_right _ hw)
      obtain ⟨hfault, hvisits⟩ := visits_identifier h.extended.isIdentifier (n' :: around')
      rw [hchildren, hchildren', List.flatMap_append, List.flatMap_append, List.flatMap_cons, hvisits]
      refine ⟨fun w hw => ?_, hgrown.append (.extra hgrown')⟩
      rcases List.mem_append.mp hw with hw | hw
      · exact hfaults w hw
      · rcases List.mem_cons.mp hw with rfl | hw
        · exact hfault
        · exact hfaults' w hw
    · exact Grown.flatMap (hC.children hnn fun name _ => refilling.rel_lookup hnn hn name) hwalk

/-- Corresponding visits ask for the same in the table of the function, but for the new name, which the function
asks for. -/
theorem acts {u u' : Visit} (huu : (refilling v.node g).Visits u u') (hclean : Act.Clean (u.acts root)) :
    Act.Clean (u'.acts root') ∧ ∀ y, .bind g.label y ∈ u'.acts root' ↔
      .bind g.label y ∈ u.acts root ∨ y = x ∧ u.kind.isFunction ∧ u.node.label = g.label := by
  have hC := h.faithful
  -- Acts that correspond bind the same names in the same table.
  have hsame : ∀ {as bs : List Act}, (refilling v.node g).Acts as bs → Act.Clean as →
      Act.Clean bs ∧ ∀ y, .bind g.label y ∈ bs ↔ .bind g.label y ∈ as := by
    intro as bs hacts has
    refine ⟨hacts.clean_iff.mp has, fun y => ?_⟩
    rw [← Act.mem_namesFor, ← Act.mem_namesFor, (hC.sameFor rfl rfl hacts has).names]
  by_cases hu : u.kind.isFunction ∧ u.node.label = g.label
  · obtain ⟨hk, hlabel⟩ := hu
    obtain ⟨hnode, hnode'⟩ := refilling.nodes_of_label_eq huu.node hlabel
    have hfunction : Act.Clean u.node.functionActs → Act.Clean u'.node.functionActs ∧
        ∀ y, .bind g.label y ∈ u'.node.functionActs ↔ .bind g.label y ∈ u.node.functionActs ∨ y = x := by
      obtain ⟨before, after, hacts, hacts'⟩ := h.extended.functionActs
      rw [hnode, hnode', hacts, hacts', Act.Clean.append_iff, Act.Clean.append_iff, Act.clean_cons_iff rfl]
      refine fun hf => ⟨hf, fun y => ?_⟩
      simp only [List.mem_append, List.mem_cons, Act.bind.injEq, h.extended.altered.label, true_and]
      rw [or_left_comm, or_comm]
    simp only [hk, hlabel, and_true]
    unfold Visit.acts at hclean ⊢
    rw [huu.kind]
    cases hkind : u.kind <;> rw [hkind] at hk hclean <;> cases hk
    · obtain ⟨hname, hrest⟩ := Act.Clean.append_iff.mp hclean
      obtain ⟨hclean₁, hbind₁⟩ := hsame (hC.declareOwnName huu Kind.isScope) hname
      obtain ⟨hclean₂, hbind₂⟩ := hfunction hrest
      refine ⟨Act.Clean.append_iff.mpr ⟨hclean₁, hclean₂⟩, fun y => ?_⟩
      rw [List.mem_append, List.mem_append, or_assoc]
      exact or_congr (hbind₁ y) (hbind₂ y)
    · exact hfunction hclean
    · exact hfunction hclean
  · have hacts := hC.acts huu h.nodes_root fun hk =>
      refilling.rel_lookup huu.node (fun hlabel => hu ⟨hk, hlabel⟩) "params"
    obtain ⟨hclean', hbind⟩ := hsame hacts hclean
    exact ⟨hclean', fun y => by rw [hbind, or_iff_left fun hy => hu hy.2]⟩

section

variable {vs vs' : List Visit} (hgrown : Grown v.node g p vs vs') (hclean : ∀ u ∈ vs, Act.Clean (u.acts root))
include hgrown hclean

/-- No table but that of the function is affected. -/
theorem sameFor {label : Nat} (hlabel : label ≠ g.label) :
    Act.SameFor label (vs.flatMap (Visit.acts root)) (vs'.flatMap (Visit.acts root')) := by
  induction hgrown with
  | nil => exact ⟨Iff.rfl, rfl⟩
  | both huu _ ih =>
    obtain ⟨hu, hrest⟩ := List.forall_mem_cons.mp hclean
    rw [List.flatMap_cons, List.flatMap_cons]
    exact (refilling.sameFor_acts h.faithful huu h.nodes_root hu (h.acts huu hu).1 hlabel).append (ih hrest)
  | extra _ ih => exact ih hclean

/-- The table of the function has the new name besides. -/
theorem bind_mem_iff {y : Name} :
    .bind g.label y ∈ vs'.flatMap (Visit.acts root') ↔ .bind g.label y ∈ vs.flatMap (Visit.acts root) ∨
      y = x ∧ ∃ u ∈ vs, u.kind.isFunction ∧ u.node.label = g.label := by
  induction hgrown with
  | nil => simp
  | both huu _ ih =>
    obtain ⟨hu, hrest⟩ := List.forall_mem_cons.mp hclean
    rw [List.flatMap_cons, List.flatMap_cons, List.mem_append, List.mem_append, (h.acts huu hu).2, ih hrest,
      List.exists_mem_cons_iff, and_or_left, or_or_or_comm]
  | extra _ ih => exact ih hclean

end

section

variable {tables tables' : Tables} (hf : (buildScopes tables root.toValue).2 = none)
include hf

theorem grown : (visits root'.toValue []).fault = none ∧ Grown v.node g p root.entered root'.entered :=
  h.grown_visits h.nodes_root .nil (buildScopes_fault_eq_none_iff_clean.mp hf).1

/-- The longer list of parameters is built without a fault. -/
theorem buildScopes_fault : (buildScopes tables' root'.toValue).2 = none := by
  obtain ⟨hfault', hgrown⟩ := h.grown hf
  have hclean := (buildScopes_fault_eq_none_iff_clean.mp hf).2
  refine buildScopes_fault_eq_none_iff_clean.mpr ⟨hfault', hgrown.forall_right ?_ ?_⟩
  · exact fun u hu u' huu => (h.acts huu (hclean u hu)).1
  · exact fun _ => Act.clean_nil

theorem declarations_eq : declarations root.toValue = root.entered.flatMap (Visit.acts root) ∧
    declarations root'.toValue = root'.entered.flatMap (Visit.acts root') :=
  ⟨declarations_of_fault_eq_none (buildScopes_fault_eq_none_iff_clean.mp hf).1,
    declarations_of_fault_eq_none (h.grown hf).1⟩

/-- Any other node has the same slot. -/
theorem slot?_of_ne (hsame : ∀ label, tables'.slot? label = tables.slot? label) {label : Nat}
    (hlabel : label ≠ g.label) :
    (buildScopes tables' root'.toValue).1.tables.slot? label =
      (buildScopes tables root.toValue).1.tables.slot? label := by
  have hf' : (buildScopes tables' root'.toValue).2 = none := h.buildScopes_fault hf
  have hacts := h.sameFor (h.grown hf).2 (buildScopes_fault_eq_none_iff_clean.mp hf).2 hlabel
  obtain ⟨hdecl, hdecl'⟩ := h.declarations_eq hf
  rw [← hdecl, ← hdecl'] at hacts
  exact slot?_buildScopes_of_sameFor hf hf' hsame hacts

/-- The function has a table in both programs, and in the second it has the new name besides. -/
theorem exists_slot? : ∃ set set' : NameSet,
    (buildScopes tables root.toValue).1.tables.slot? g.label = some (.names set) ∧
      (buildScopes tables' root'.toValue).1.tables.slot? g.label = some (.names set') ∧
      ∀ y, y ∈ set' ↔ y.key = x.key ∨ y ∈ set := by
  have hf' : (buildScopes tables' root'.toValue).2 = none := h.buildScopes_fault hf
  have hgrown := (h.grown hf).2
  have hclean := (buildScopes_fault_eq_none_iff_clean.mp hf).2
  obtain ⟨hdecl, hdecl'⟩ := h.declarations_eq hf
  have hlabel := h.extended.altered.label
  have hc : .create g.label ∈ declarations root.toValue := by
    rw [hdecl]
    refine List.mem_flatMap.mpr ⟨v, h.entered, Visit.mem_acts_iff.mpr (.ofFunction h.isFunction ?_)⟩
    exact Node.create_mem_functionActs_iff.mpr hlabel
  have hfunction : ∃ u ∈ root.entered, u.kind.isFunction ∧ u.node.label = g.label :=
    ⟨v, h.entered, h.isFunction, hlabel.symm⟩
  have hc' : .create g.label ∈ declarations root'.toValue := by
    -- The new name is bound, which takes a table.
    refine Classical.byContradiction fun hnot => ?_
    have hnone := (guarded_declarations root'.toValue []).namesFor_eq_nil List.not_mem_nil hnot
    have hx : x ∈ Act.namesFor g.label (declarations root'.toValue) := by
      rw [Act.mem_namesFor, hdecl', h.bind_mem_iff hgrown hclean]
      exact .inr ⟨rfl, hfunction⟩
    rw [hnone] at hx
    cases hx
  refine ⟨_, _, slot?_buildScopes_of_create hf hc, slot?_buildScopes_of_create hf' hc', fun y => ?_⟩
  simp only [NameSet.mem_ofList, Act.mem_namesFor, hdecl, hdecl', h.bind_mem_iff hgrown hclean, hfunction,
    and_true]
  constructor
  · rintro ⟨z, hz | rfl, hkey⟩
    · exact .inr ⟨z, hz, hkey⟩
    · exact .inl hkey.symm
  · rintro (hkey | ⟨z, hz, hkey⟩)
    · exact ⟨x, .inr rfl, hkey.symm⟩
    · exact ⟨z, .inl hz, hkey⟩

end

/-! ### References -/

theorem node_eq {u u' : Visit} (hu : u ∈ root.entered) (huu : (refilling v.node g).Visits u u')
    (hk : u.kind = .identifier ∨ u.kind = .thisExpression) : u'.node = u.node :=
  refilling.node_eq_of_isFunction h.wellLabelled h.entered h.isFunction h.extended.altered.label hu huu hk

theorem hasReceiver_iff {u u' : Visit} (huu : (refilling v.node g).Visits u u') :
    u'.HasReceiver ↔ u.HasReceiver := by
  have haround := huu.around
  unfold Visit.HasReceiver
  generalize u.around = around, u'.around = around' at haround
  induction haround with
  | nil => simp
  | cons hn _ ih =>
    simp only [List.mem_cons, exists_eq_or_imp]
    refine or_congr ?_ ih
    rw [Node.bindsReceiver, h.faithful.hasKind hn]
    rfl

section

variable {tables tables' : Tables} (hf : (buildScopes tables root.toValue).2 = none)
  (hsame : ∀ label, tables'.slot? label = tables.slot? label)
include hf hsame

/-- The tables around a reference bind the same, but for the new name in the function. -/
theorem binds_eq_ok_false_iff (label : Nat) (y : Name) :
    (buildScopes tables' root'.toValue).1.tables.binds label y = .ok false ↔
      (buildScopes tables root.toValue).1.tables.binds label y = .ok false ∧
        ¬ (y.key = x.key ∧ label = g.label) := by
  by_cases hlabel : label = g.label
  · obtain ⟨set, set', hset, hset', hmem⟩ := h.exists_slot? hf
    rw [hlabel, Tables.binds_of_slot?_eq_names hset, Tables.binds_of_slot?_eq_names hset']
    simp [hmem, and_comm]
  · rw [Tables.binds, h.slot?_of_ne hf hsame hlabel, ← Tables.binds]
    simp [hlabel]

/-- A name is in no table around a visit if it was in none and the new parameter does not bind it. -/
theorem forall_binds_eq_ok_false_iff {u u' : Visit} (huu : (refilling v.node g).Visits u u') (y : Name) :
    (∀ n ∈ u'.around, (buildScopes tables' root'.toValue).1.tables.binds n.label y = .ok false) ↔
      (∀ n ∈ u.around, (buildScopes tables root.toValue).1.tables.binds n.label y = .ok false) ∧
        ¬ (y.key = x.key ∧ u.toReference.isBelow g.label) := by
  -- The nodes around have the same labels.
  have hlabels : (∀ n ∈ u'.around, (buildScopes tables' root'.toValue).1.tables.binds n.label y = .ok false) ↔
      ∀ n ∈ u.around, (buildScopes tables' root'.toValue).1.tables.binds n.label y = .ok false := by
    rw [← List.forall_mem_map (f := Node.label)
      (P := fun label => (buildScopes tables' root'.toValue).1.tables.binds label y = .ok false),
      refilling.map_label_around h.faithful huu, List.forall_mem_map]
  rw [hlabels]
  simp only [h.binds_eq_ok_false_iff hf hsame, Reference.isBelow, Visit.toReference, List.any_eq_true, beq_iff_eq]
  constructor
  · intro hall
    refine ⟨fun n hn => (hall n hn).1, ?_⟩
    rintro ⟨hkey, n, hn, hlabel⟩
    exact (hall n hn).2 ⟨hkey, hlabel⟩
  · rintro ⟨hall, hnot⟩ n hn
    exact ⟨hall n hn, fun hy => hnot ⟨hy.1, n, hn, hy.2⟩⟩

/-- Of the references exactly the identifiers of the new name inside the function are bound besides. -/
theorem isUnbound_iff {u u' : Visit} (hu : u ∈ root.entered) (huu : (refilling v.node g).Visits u u') :
    u'.IsUnbound (buildScopes tables' root'.toValue).1.tables ↔
      u.IsUnbound (buildScopes tables root.toValue).1.tables ∧
        u.toReference.isCaptured x g.label = false := by
  have hkind : u.node.kind? = some u.kind :=
    Node.kind?_of_enteredKind (enters_of_mem_visits hu).enteredKind_eq
  unfold Visit.IsUnbound
  rw [huu.kind]
  by_cases hi : u.kind = .identifier
  · rw [h.node_eq hu huu (.inl hi)]
    have hcaptured : ∀ {y}, u.node.Named y →
        (u.toReference.isCaptured x g.label = false ↔ ¬ (y.key = x.key ∧ u.toReference.isBelow g.label)) :=
      fun hy => Visit.isCaptured_toReference_iff hkind hi hy
    simp only [hi, true_and, reduceCtorEq, false_and, or_false, h.forall_binds_eq_ok_false_iff hf hsame huu,
      h.hasReceiver_iff huu]
    constructor
    · rintro ⟨y, hy, hundefined, harguments, hall, hnot⟩
      exact ⟨⟨y, hy, hundefined, harguments, hall⟩, (hcaptured hy).mpr hnot⟩
    · rintro ⟨⟨y, hy, hundefined, harguments, hall⟩, hnot⟩
      exact ⟨y, hy, hundefined, harguments, hall, (hcaptured hy).mp hnot⟩
  · by_cases ht : u.kind = .thisExpression
    · have hthis : u.toReference.isCaptured x g.label = false := by
        simp [Reference.isCaptured, (Visit.isThis_toReference_iff hkind).mpr ht]
      simp only [ht, reduceCtorEq, false_and, false_or, hthis, h.hasReceiver_iff huu, and_true]
    · simp only [hi, ht, false_and, or_self]

omit hsame in
/-- The new parameter is bound where it is met. -/
theorem not_isUnbound_extra (around : List Node) :
    ¬ (Visit.mk p .identifier (g :: around)).IsUnbound (buildScopes tables' root'.toValue).1.tables := by
  obtain ⟨set, set', -, hset', hmem⟩ := h.exists_slot? hf
  rintro (⟨-, y, hy, -, -, hall⟩ | ⟨hk, -⟩)
  · obtain rfl := Node.Named.eq hy h.extended.named
    have hfree := hall g List.mem_cons_self
    rw [Tables.binds_of_slot?_eq_names hset'] at hfree
    simp [hmem] at hfree
  · cases hk

variable {refs : List Reference}
  (hrefs : references (buildScopes tables root.toValue).1.tables root.toValue = .ok refs)
include hrefs

/-- All references but those that are captured are kept, in their order. -/
theorem forall₂_references {refs' : List Reference}
    (hrefs' : references (buildScopes tables' root'.toValue).1.tables root'.toValue = .ok refs') :
    List.Forall₂ (Reference.Kept g) (refs.filter fun r => !r.isCaptured x g.label) refs' := by
  classical
  rw [referencesOf_eq_ok (references_eq_ok_iff.mp hrefs).1,
    referencesOf_eq_ok (references_eq_ok_iff.mp hrefs').1, List.filter_map, List.filter_filter]
  refine (h.grown hf).2.kept (fun u hu u' huu => ?_) fun around => ?_
  · have hiff := h.isUnbound_iff hf hsame hu huu
    refine ⟨?_, fun hchosen => h.node_eq hu huu ?_⟩
    · simp only [hiff, Function.comp_apply, Bool.decide_and, Bool.and_comm, Bool.decide_eq_false]
    · simp only [Function.comp_apply, Bool.and_eq_true, decide_eq_true_eq] at hchosen
      exact hchosen.2.kind
  · simp [h.not_isUnbound_extra hf around]

omit hsame in
/-- The program with the longer list can be searched for references too. -/
theorem exists_references (hs : (buildScopes tables root.toValue).1.tables.HoldSets)
    (hs' : (buildScopes tables' root'.toValue).1.tables.HoldSets) :
    ∃ refs', references (buildScopes tables' root'.toValue).1.tables root'.toValue = .ok refs' := by
  have hnamed := ((exists_references_iff hs).mp ⟨refs, hrefs⟩).2
  obtain ⟨hfault', hgrown⟩ := h.grown hf
  refine (exists_references_iff hs').mpr ⟨hfault', hgrown.forall_right ?_ fun _ _ => ⟨x, h.extended.named⟩⟩
  intro u hu u' huu hk
  rw [huu.kind] at hk
  rw [h.node_eq hu huu (.inl hk)]
  exact hnamed u hu hk

end

end Extending

/-- References that are kept can be grouped if all could be before. -/
theorem exists_groups_of_kept {g : Node} {refs refs' : List Reference} {test : Reference → Bool}
    (h : List.Forall₂ (Reference.Kept g) (refs.filter test) refs') (hg : ∃ found, groups refs = .ok found) :
    ∃ found', groups refs' = .ok found' := by
  obtain ⟨sort, hsort⟩ := exists_groups_iff.mp hg
  have hkept : ∃ found, groups (refs.filter test) = .ok found :=
    exists_groups_iff.mpr ⟨sort, fun r hr => hsort r (List.mem_of_mem_filter hr)⟩
  exact (exists_groups_iff_of_rearranged (.of_forall₂ (h.imp fun _ _ => Reference.Kept.sameNode))).mp hkept

/-- A tree with one more parameter in a function that is met: it stays a program if it is one. -/
theorem Tree.exists_extending {t : Tree} {root : Node} (hroot : t.root = root.toValue) (hl : t.WellLabelled)
    {v : Visit} (hv : v ∈ root.entered) (hk : v.kind.isFunction) {params : List Value}
    (hparams : v.node.field "params" = .array params) {p : Node} (hp : p.kind? = some .identifier) {x : Name}
    (hx : p.Named x) :
    (t.withItems v.node "params" (params ++ [p.toValue])).isProgram = t.isProgram ∧
      ∃ root', (t.withItems v.node "params" (params ++ [p.toValue])).root = root'.toValue ∧
        Extending root root' v (v.node.withItems "params" (params ++ [p.toValue])) p x := by
  unfold Tree.WellLabelled at hl
  have hextended : v.node.Extended (v.node.withItems "params" (params ++ [p.toValue])) p x :=
    ⟨⟨params, hparams, rfl⟩, hp, hx⟩
  have hin := enters_of_mem_visits hv
  rw [← hroot] at hin
  have hC := refilling.faithful hextended.altered (by decide) (hin.wellLabelled hl)
    (Node.kind?_of_enteredKind hin.enteredKind_eq)
  have hvalues : (refilling v.node (v.node.withItems "params" (params ++ [p.toValue]))).values t.root
      (t.withItems v.node "params" (params ++ [p.toValue])).root :=
    ⟨rfl, fun n hn heq => hl.eq_of_label_eq hn hin.mem_nodes heq⟩
  refine ⟨hC.isProgram hvalues, ?_⟩
  rw [hroot] at hl hvalues
  obtain ⟨root', hroot', hnodes⟩ := hC.exists_node hvalues
  exact ⟨root', hroot', hl, hv, hk, hextended, hnodes.1⟩

/-- **A parameter shadows exactly inside its function.** In a program without tables that is analysed successfully
let a function get an identifier as one more parameter. Then the analysis succeeds again. The references are those
from before, in the same order, without the identifiers of the new name that have the function around them. The
table of the function has the new name besides, and every other table is the same. -/
theorem added_parameter {t t' : Tree} (hfresh : t.Fresh) {name : Text} {found : List Group}
    (hfound : (t.analyze name).result = .ok found) {v : Visit} (hv : v ∈ (walk t.root).visits)
    (hk : v.kind.isFunction) {params : List Value} (hparams : v.node.field "params" = .array params) {p : Node}
    (hp : p.kind? = some .identifier) {x : Name} (hx : p.Named x)
    (ht : t' = t.withItems v.node "params" (params ++ [p.toValue])) :
    ∃ refs refs', t.Reports refs ∧ t'.Reports refs' ∧
      List.Forall₂ (Reference.Kept (v.node.withItems "params" (params ++ [p.toValue])))
        (refs.filter fun r => !r.isCaptured x v.node.label) refs' ∧
      (∃ set set' : NameSet, (t.analyze name).tree.tables.slot? v.node.label = some (.names set) ∧
        (t'.analyze name).tree.tables.slot? v.node.label = some (.names set') ∧
        ∀ y, y ∈ set' ↔ y.key = x.key ∨ y ∈ set) ∧
      ∀ label ≠ v.node.label,
        (t'.analyze name).tree.tables.slot? label = (t.analyze name).tree.tables.slot? label := by
  obtain ⟨hprogram, hf, refs, hrefs, hgroups⟩ := Tree.analyze_result_eq_ok_iff.mp hfound
  obtain ⟨root, hroot, -, -⟩ := exists_node_of_build hf
  have hs := hfresh.holdSets hf
  have hwalk : walk root.toValue = visits root.toValue [] := walk_eq_visits rfl
  rw [hroot] at hv hf hrefs hs
  rw [hwalk] at hv
  obtain ⟨hsameProgram, root', hroot', h⟩ :=
    Tree.exists_extending hroot hfresh.wellLabelled hv hk hparams hp hx
  rw [← ht] at hsameProgram hroot'
  have hprogram' : t'.isProgram := hsameProgram ▸ hprogram
  have hsame : ∀ label, t'.tables.slot? label = t.tables.slot? label := fun _ => by rw [ht]; rfl
  have hf' : (buildScopes t'.tables root'.toValue).2 = none := h.buildScopes_fault hf
  have hs' := holdSets_buildScopes
    (Tables.holdSets_of_slot?_eq_none fun label => (hsame label).trans (hfresh.noTables label)) hf'
  obtain ⟨refs', hrefs'⟩ := h.exists_references hf hrefs hs hs'
  have hkept := h.forall₂_references hf hsame hrefs hrefs'
  obtain ⟨found', hgroups'⟩ := exists_groups_of_kept hkept ⟨found, hgroups⟩
  refine ⟨refs, refs', Tree.reports_iff.mpr ⟨hprogram, hroot ▸ hf, hroot ▸ hrefs, found, hgroups⟩,
    Tree.reports_iff.mpr ⟨hprogram', hroot' ▸ hf', hroot' ▸ hrefs', found', hgroups'⟩, hkept, ?_⟩
  rw [Tree.analyze_tables name hprogram, Tree.analyze_tables name hprogram', hroot, hroot']
  exact ⟨h.exists_slot? hf, fun label hlabel => h.slot?_of_ne hf hsame hlabel⟩

/-- The parameters of a function of one parameter `y`. -/
def openParams : List Value := [(Kind.identifier.node 7 [("name", .text "y")]).toValue]

/-- The function `f(y) { x; a }`. -/
def openFunction : Node := declaredFunction "y" [namedStatement 9 (.text "x"), namedStatement 11 (.text "a")]

/-- An identifier `x`. -/
def addedIdentifier : Node := Kind.identifier.node 13 [("name", .text "x")]

/-- The program `a; x` with the function `f(y, x) { x; a }` in between. -/
def closedProgram : Tree :=
  (functionProgram openFunction).withItems openFunction "params" (openParams ++ [addedIdentifier.toValue])

theorem added_parameter_closedProgram :
    (functionProgram openFunction).Fresh ∧
      (∃ v ∈ (walk (functionProgram openFunction).root).visits, v.kind.isFunction ∧ v.node = openFunction) ∧
      openFunction.field "params" = .array openParams ∧ addedIdentifier.kind? = some .identifier ∧
      addedIdentifier.Named (.text "x") ∧
      ((functionProgram openFunction).analyze "s").labelsByName? =
        some [(.text "a", [2, 12]), (.text "x", [10, 4])] ∧
      (closedProgram.analyze "s").labelsByName? = some [(.text "a", [2, 12]), (.text "x", [4])] ∧
      ∃ refs refs', (functionProgram openFunction).Reports refs ∧ closedProgram.Reports refs' ∧
        List.Forall₂ (Reference.Kept (openFunction.withItems "params" (openParams ++ [addedIdentifier.toValue])))
          (refs.filter fun r => !r.isCaptured (.text "x") 5) refs' ∧
        (∃ set set' : NameSet,
          ((functionProgram openFunction).analyze "s").tree.tables.slot? 5 = some (.names set) ∧
          (closedProgram.analyze "s").tree.tables.slot? 5 = some (.names set') ∧
          ∀ y, y ∈ set' ↔ y.key = (Name.text "x").key ∨ y ∈ set) ∧
        ∀ label ≠ 5, (closedProgram.analyze "s").tree.tables.slot? label =
          ((functionProgram openFunction).analyze "s").tree.tables.slot? label := by
  have hfresh : (functionProgram openFunction).Fresh := fresh_functionProgram (by decide +kernel)
  obtain ⟨v, hv, hkind, hnode⟩ := exists_visit_functionProgram hfresh (by decide +kernel)
  have hparams : openFunction.field "params" = .array openParams := rfl
  have hp : addedIdentifier.kind? = some .identifier := by decide +kernel
  have hx : addedIdentifier.Named (.text "x") := rfl
  have hbefore : ((functionProgram openFunction).analyze "s").labelsByName? =
      some [(.text "a", [2, 12]), (.text "x", [10, 4])] := by decide +kernel
  have hafter : (closedProgram.analyze "s").labelsByName? = some [(.text "a", [2, 12]), (.text "x", [4])] := by
    decide +kernel
  obtain ⟨found, hfound⟩ := Analyzed.exists_result_of_labelsByName? hbefore
  have hadded : closedProgram =
      (functionProgram openFunction).withItems v.node "params" (openParams ++ [addedIdentifier.toValue]) := by
    rw [hnode]
    rfl
  have hreports := added_parameter hfresh hfound hv hkind (hnode ▸ hparams) hp hx hadded
  rw [hnode] at hreports
  exact ⟨hfresh, ⟨v, hv, hkind, hnode⟩, hparams, hp, hx, hbefore, hafter, hreports⟩

end FreeNames
