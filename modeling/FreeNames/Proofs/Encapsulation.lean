import FreeNames.Proofs.CorrespondingAnalyses
import FreeNames.Proofs.Replacement
import FreeNames.Proofs.Wrapping

/-!
# What a function contains stays inside

The parameters and the body of a function can be replaced by any others. As long as nothing is imported in
these or in those, the tables of all nodes outside the function stay as they are, and so does what is found
outside it (`refilled_function`).

The walks of the two programs are compared visit by visit (`Aligned`). What they meet outside corresponds.
What they meet inside parameters and bodies asks for no table but those inside the function, because the
function is a scope that is around all of it.
-/

namespace FreeNames

/-! ### Inside a function -/

namespace Node

/-- The children of a function that are parameters or its body. -/
def contents (f : Node) : List Value := fieldChildren (f.field "params") ++ fieldChildren (f.field "body")

/-- Whether an import specifier is met inside the parameters or the body. -/
def importsInside (f : Node) : Bool := f.contents.any fun w => (visits w []).visits.any fun v => v.kind.isImport

/-- The children of a function are its name, if it is one that can have one, and its contents. -/
theorem children_of_isFunction {k : Kind} (hk : k.isFunction) (f : Node) :
    f.children k =
      (k.entered.filter (· == "id")).flatMap (fun name => fieldChildren (f.field name)) ++ f.contents := by
  cases k <;> cases hk <;> rw [children_of_computedField rfl] <;> simp [Kind.entered, contents]

end Node

/-- The visit is inside the contents of the function `f`, and it is no import. -/
structure Visit.Inside (f : Node) (v : Visit) : Prop where
  around : ∃ inner outer, v.around = inner ++ f :: outer ∧ ∀ n ∈ inner, n ∈ f.toValue.nodes
  node : v.node ∈ f.toValue.nodes
  imported : v.kind.isImport = false

namespace Visit.Inside

variable {f : Node} {v : Visit}

/-- A scope that is looked for from inside a function is found there, at the latest in the function. -/
theorem mem_nodes_of_nearest (h : v.Inside f) {accepts : Node → Bool} (hf : accepts f) {scope : Node}
    (hs : v.Nearest accepts scope) : scope ∈ f.toValue.nodes := by
  obtain ⟨inner, outer, haround, hinner⟩ := h.around
  rw [Visit.Nearest, haround, List.find?_append, List.find?_cons_of_pos hf] at hs
  cases hfind : inner.find? accepts with
  | none =>
    rw [hfind] at hs
    obtain rfl := Option.some.inj hs
    exact Value.mem_nodes_toValue f
  | some s =>
    rw [hfind] at hs
    obtain rfl := Option.some.inj hs
    exact hinner s (List.mem_of_find?_eq_some hfind)

/-- Whatever is declared inside a function is declared in a node inside the function. -/
theorem mem_nodes_of_targets (h : v.Inside f) (hf : f.isScope) {root scope : Node}
    (ht : v.Targets root scope) : scope ∈ f.toValue.nodes := by
  have hblock := Node.isBlockScope_of_isScope hf
  cases ht with
  | own _ => exact h.node
  | handler _ hh =>
    refine Value.nodes_subset h.node (List.mem_cons_of_mem _ ?_)
    exact Node.mem_nodesOfFields_of_field hh (Value.mem_nodes_toValue scope)
  | var _ _ hs => exact h.mem_nodes_of_nearest hf hs
  | lexical _ _ hs => exact h.mem_nodes_of_nearest hblock hs
  | functionName _ _ hs => exact h.mem_nodes_of_nearest hf hs
  | className _ _ hs => exact h.mem_nodes_of_nearest hblock hs
  | importName hk =>
    rw [h.imported] at hk
    cases hk

end Visit.Inside

/-! ### Acts inside a function -/

theorem Node.sameFor_functionActs {n : Node} (h : Act.Clean n.functionActs) {label : Nat}
    (hlabel : label ≠ n.label) : Act.SameFor label n.functionActs [] := by
  refine .nil_of_forall ?_ fun x => ?_
  · rw [Node.create_mem_functionActs_iff]
    exact hlabel
  · rw [Node.bind_mem_functionActs_iff h]
    exact fun hb => hlabel hb.1

/-- Inside a function nothing is done to a table outside. -/
theorem Visit.Inside.sameFor {f root : Node} {v : Visit} (h : v.Inside f) (hf : f.isScope)
    (hclean : Act.Clean (v.acts root)) {label : Nat} (hlabel : label ∉ f.toValue.labels) :
    Act.SameFor label (v.acts root) [] := by
  have hout : ∀ scope, v.Targets root scope → label ≠ scope.label := by
    rintro scope ht rfl
    exact hlabel (List.mem_map_of_mem (h.mem_nodes_of_targets hf ht))
  refine .nil_of_forall ?_ fun x => ?_
  · rw [Visit.create_mem_acts_iff hclean]
    exact fun ⟨scope, ht, hs⟩ => hout scope ht hs
  · rw [Visit.bind_mem_acts_iff hclean]
    exact fun ⟨scope, hb, hs⟩ => hout scope hb.targets hs

/-- Builds that do the same to a table leave the same slot, where there was the same slot before. -/
theorem slot?_buildScopes_of_sameFor {tables tables' : Tables} {root root' : Value}
    (hf : (buildScopes tables root).2 = none) (hf' : (buildScopes tables' root').2 = none)
    (hsame : ∀ label, tables'.slot? label = tables.slot? label) {label : Nat}
    (h : Act.SameFor label (declarations root) (declarations root')) :
    (buildScopes tables' root').1.tables.slot? label = (buildScopes tables root).1.tables.slot? label := by
  by_cases hc : .create label ∈ declarations root
  · rw [slot?_buildScopes_of_create hf hc, slot?_buildScopes_of_create hf' (h.create.mp hc), h.names]
  · rw [slot?_buildScopes_of_not_create hf hc, slot?_buildScopes_of_not_create hf' (mt h.create.mpr hc), hsame]

namespace refilling

/-- An identifier or a `this` is the same node where the contents of a function are exchanged. -/
theorem node_eq_of_isFunction {root g : Node} {v : Visit} (hl : root.toValue.WellLabelled)
    (hv : v ∈ root.entered) (hfunction : v.kind.isFunction) (hlabel : g.label = v.node.label) {u u' : Visit}
    (hu : u ∈ root.entered) (huu : (refilling v.node g).Visits u u')
    (hk : u.kind = .identifier ∨ u.kind = .thisExpression) : u'.node = u.node := by
  have hne : u ≠ v := by
    rintro rfl
    rcases hk with hk | hk <;> rw [hk] at hfunction <;> cases hfunction
  exact node_eq hl (enters_of_mem_visits hu) (enters_of_mem_visits hv) hlabel huu
    (Node.children_of_reference hk) hne

variable {f g : Node} (hC : (refilling f g).Faithful) {label : Nat}
include hC

theorem map_label_around {u u' : Visit} (huu : (refilling f g).Visits u u') :
    u'.around.map Node.label = u.around.map Node.label := by
  have haround := huu.around
  generalize u.around = around, u'.around = around' at haround
  induction haround with
  | nil => rfl
  | cons hn _ ih => rw [List.map_cons, List.map_cons, ih, (hC.reads hn).label]

/-- Corresponding visits do the same to any table but that of the function. -/
theorem sameFor_acts {v v' : Visit} (h : (refilling f g).Visits v v') {root root' : Node}
    (hroot : (refilling f g).nodes root root') (hclean : Act.Clean (v.acts root))
    (hclean' : Act.Clean (v'.acts root')) (hlabel : label ≠ g.label) :
    Act.SameFor label (v.acts root) (v'.acts root') := by
  by_cases hv : v.kind.isFunction ∧ v.node.label = g.label
  · obtain ⟨hk, hnode⟩ := hv
    have hnode' : v'.node.label = g.label := by rw [(nodes_of_label_eq h.node hnode).2]
    -- The parameters of the function differ, but they are bound in its own table.
    have hfunction : Act.SameFor label v.node.functionActs v'.node.functionActs := by
      have hasks : Act.Clean v.node.functionActs := Visit.clean_of_asks hclean fun _ => .ofFunction hk
      have hasks' : Act.Clean v'.node.functionActs :=
        Visit.clean_of_asks hclean' fun _ => .ofFunction (h.kind ▸ hk)
      exact (Node.sameFor_functionActs hasks (hnode ▸ hlabel)).trans
        (Node.sameFor_functionActs hasks' (hnode' ▸ hlabel)).symm
    unfold Visit.acts at hclean ⊢
    rw [h.kind]
    cases hkind : v.kind <;> rw [hkind] at hk hclean <;> cases hk
    · have hname := hC.declareOwnName h Kind.isScope
      exact (hC.sameFor rfl rfl hname (Act.Clean.append_iff.mp hclean).1).append hfunction
    · exact hfunction
    · exact hfunction
  · refine hC.sameFor rfl rfl (hC.acts h hroot fun hk => ?_) hclean
    exact rel_lookup h.node (fun hlabel => hv ⟨hk, hlabel⟩) "params"

end refilling

/-! ### Walks side by side -/

/-- The visits correspond, but for those that are inside the contents of a function. -/
inductive Aligned (f g : Node) : List Visit → List Visit → Prop where
  | nil : Aligned f g [] []
  | both {v v' : Visit} {vs vs' : List Visit} (h : (refilling f g).Visits v v') (hl : Aligned f g vs vs') :
      Aligned f g (v :: vs) (v' :: vs')
  | left {v : Visit} {vs vs' : List Visit} (h : v.Inside f) (hl : Aligned f g vs vs') :
      Aligned f g (v :: vs) vs'
  | right {v' : Visit} {vs vs' : List Visit} (h : v'.Inside g) (hl : Aligned f g vs vs') :
      Aligned f g vs (v' :: vs')

namespace Aligned

variable {f g : Node} {vs vs' us us' : List Visit}

theorem append (h : Aligned f g vs vs') (h' : Aligned f g us us') : Aligned f g (vs ++ us) (vs' ++ us') := by
  induction h with
  | nil => exact h'
  | both h _ ih => exact .both h ih
  | left h _ ih => exact .left h ih
  | right h _ ih => exact .right h ih

theorem of_inside (h : ∀ v ∈ vs, v.Inside f) (h' : ∀ v ∈ vs', v.Inside g) : Aligned f g vs vs' := by
  induction vs with
  | nil =>
    induction vs' with
    | nil => exact .nil
    | cons v' rest ih =>
      obtain ⟨hv, hrest⟩ := List.forall_mem_cons.mp h'
      exact .right hv (ih hrest)
  | cons v rest ih =>
    obtain ⟨hv, hrest⟩ := List.forall_mem_cons.mp h
    exact .left hv (ih hrest)

/-- What walks of values meet is aligned if it is so for each of the values. -/
theorem flatMap {l l' : List Value} (h : List.Forall₂ (refilling f g).values l l')
    {walk walk' : Value → List Visit}
    (hwalk : ∀ w ∈ l, ∀ w' ∈ l', (refilling f g).values w w' → Aligned f g (walk w) (walk' w')) :
    Aligned f g (l.flatMap walk) (l'.flatMap walk') := by
  induction h with
  | nil => exact .nil
  | cons h _ ih =>
    refine (hwalk _ List.mem_cons_self _ List.mem_cons_self h).append (ih fun w hw w' hw' => ?_)
    exact hwalk w (List.mem_cons_of_mem _ hw) w' (List.mem_cons_of_mem _ hw')

/-- Aligned visits do the same to a table outside the function. -/
theorem sameFor (h : Aligned f g vs vs') (hC : (refilling f g).Faithful) (hf : f.isScope) (hg : g.isScope)
    {root root' : Node} (hroot : (refilling f g).nodes root root')
    (hclean : Act.Clean (vs.flatMap (Visit.acts root))) (hclean' : Act.Clean (vs'.flatMap (Visit.acts root')))
    {label : Nat} (hlabel : label ∉ f.toValue.labels) (hlabel' : label ∉ g.toValue.labels) :
    Act.SameFor label (vs.flatMap (Visit.acts root)) (vs'.flatMap (Visit.acts root')) := by
  induction h with
  | nil => exact ⟨Iff.rfl, rfl⟩
  | both h _ ih =>
    rw [List.flatMap_cons] at hclean hclean' ⊢
    rw [List.flatMap_cons]
    obtain ⟨hv, hrest⟩ := Act.Clean.append_iff.mp hclean
    obtain ⟨hv', hrest'⟩ := Act.Clean.append_iff.mp hclean'
    refine (refilling.sameFor_acts hC h hroot hv hv' ?_).append (ih hrest hrest')
    exact fun heq => hlabel' (heq ▸ List.mem_map_of_mem (Value.mem_nodes_toValue g))
  | left h _ ih =>
    rw [List.flatMap_cons] at hclean ⊢
    obtain ⟨hv, hrest⟩ := Act.Clean.append_iff.mp hclean
    exact (h.sameFor hf hv hlabel).append (ih hrest hclean')
  | right h _ ih =>
    rw [List.flatMap_cons] at hclean' ⊢
    obtain ⟨hv', hrest'⟩ := Act.Clean.append_iff.mp hclean'
    exact (h.sameFor hg hv' hlabel').symm.append (ih hclean hrest')

/-- Aligned visits give the same nodes, if a choice among them leaves out all that is inside the function and
is the same where they correspond. -/
theorem map_node (h : Aligned f g vs vs') (chosen chosen' : Visit → Bool)
    (hin : ∀ v, v.Inside f → chosen v = false) (hin' : ∀ v, v.Inside g → chosen' v = false)
    (hboth : ∀ v ∈ vs, ∀ v' ∈ vs', (refilling f g).Visits v v' →
      chosen' v' = chosen v ∧ (chosen v → v'.node = v.node)) :
    (vs'.filter chosen').map Visit.node = (vs.filter chosen).map Visit.node := by
  induction h with
  | nil => rfl
  | @both v v' _ _ h _ ih =>
    have ih := ih fun u hu u' hu' => hboth u (List.mem_cons_of_mem _ hu) u' (List.mem_cons_of_mem _ hu')
    obtain ⟨hchosen, hnode⟩ := hboth v List.mem_cons_self v' List.mem_cons_self h
    rw [List.filter_cons, List.filter_cons, hchosen]
    split
    · rename_i hv
      rw [List.map_cons, List.map_cons, ih, hnode hv]
    · exact ih
  | @left v _ _ h _ ih =>
    rw [List.filter_cons_of_neg (by simp [hin v h])]
    exact ih fun u hu => hboth u (List.mem_cons_of_mem _ hu)
  | @right v' _ _ h _ ih =>
    rw [List.filter_cons_of_neg (by simp [hin' v' h])]
    exact ih fun u hu u' hu' => hboth u hu u' (List.mem_cons_of_mem _ hu')

end Aligned

/-- What a walk meets in the contents of a function is inside it. -/
theorem Node.inside_of_mem_contents {f : Node} {k : Kind} (hk : k.isFunction)
    (himports : f.importsInside = false) {w : Value} (hw : w ∈ f.contents) {around : List Node} {v : Visit}
    (hv : v ∈ (visits w (f :: around)).visits) : v.Inside f := by
  have hnodes : w.nodes ⊆ f.toValue.nodes := by
    have hchild : w ∈ f.children k := by
      rw [children_of_isFunction hk]
      exact List.mem_append_right _ hw
    exact fun n hn => List.mem_cons_of_mem _ (nodes_child_subset hchild hn)
  have hwalk : visits w (f :: around) = _ := visits_append_around w [] (f :: around)
  rw [hwalk] at hv
  obtain ⟨u, hu, rfl⟩ := List.mem_map.mp hv
  have hin := enters_of_mem_visits hu
  refine ⟨⟨u.around, around, rfl, fun n hn => ?_⟩, hnodes hin.mem_nodes, ?_⟩
  · exact hnodes ((hin.mem_nodes_of_mem_around hn).resolve_left List.not_mem_nil)
  · have hnone := List.any_eq_false.mp himports w hw
    rw [Bool.not_eq_true, List.any_eq_false] at hnone
    exact Bool.not_eq_true _ ▸ hnone u hu

/-- The reference has the node of a label around it. -/
def Reference.isBelow (label : Nat) (r : Reference) : Bool := r.around.any fun n => n.label == label

theorem Visit.Inside.isBelow {f : Node} {v : Visit} (h : v.Inside f) : v.toReference.isBelow f.label := by
  obtain ⟨inner, outer, haround, -⟩ := h.around
  rw [Reference.isBelow, Visit.toReference, haround]
  simp

/-- The second program is the first with other contents in the function that is met as `v`. Neither the old
contents nor the new ones import anything. -/
structure Refilling (root root' : Node) (v : Visit) (g : Node) : Prop where
  wellLabelled : root.toValue.WellLabelled
  wellLabelled' : root'.toValue.WellLabelled
  entered : v ∈ root.entered
  isFunction : v.kind.isFunction
  refilled : v.node.Refilled g
  replaced : root'.toValue = root.toValue.replace g
  importsNothing : v.node.importsInside = false
  importsNothing' : g.importsInside = false

namespace Refilling

variable {root root' g : Node} {v : Visit} (h : Refilling root root' v g)
include h

theorem faithful : (refilling v.node g).Faithful := by
  have hin := enters_of_mem_visits h.entered
  exact refilling.faithful h.refilled.altered (by decide) (hin.wellLabelled h.wellLabelled)
    (Node.kind?_of_enteredKind hin.enteredKind_eq)

theorem nodes_root : (refilling v.node g).nodes root root' := by
  refine ⟨h.replaced, fun n hn hlabel => ?_⟩
  exact h.wellLabelled.eq_of_label_eq hn (enters_of_mem_visits h.entered).mem_nodes
    (hlabel.trans h.refilled.label)

theorem aligned_visits {u w : Value} (huw : (refilling v.node g).values u w) {around around' : List Node}
    (ha : List.Forall₂ (refilling v.node g).nodes around around') (hf : (visits u around).fault = none)
    (hf' : (visits w around').fault = none) :
    Aligned v.node g (visits u around).visits (visits w around').visits := by
  have hC := h.faithful
  induction u, around using visits_induction generalizing w around' with
  | plain u around hn =>
    rw [visits_of_node?_eq_none hn] at hf
    cases hf
  | unknown n fault around hk =>
    rw [visits_of_enteredKind_eq_error hk] at hf
    cases hf
  | node n k around hk ih =>
    obtain ⟨n', rfl, hnn⟩ := hC.exists_node huw
    have hk' := hC.enteredKind_eq_ok hnn hk
    have hchildren : ∀ w ∈ n.children k, ∀ w' ∈ n'.children k, (refilling v.node g).values w w' →
        Aligned v.node g (visits w (n :: around)).visits (visits w' (n' :: around')).visits :=
      fun w hw w' hw' hww => ih w hw hww (.cons hnn ha) (visits_child_fault_eq_none hk hf hw)
        (visits_child_fault_eq_none hk' hf' hw')
    rw [visits_of_fault_eq_none hk hf, visits_of_fault_eq_none hk' hf']
    refine .both ⟨hnn, rfl, ha⟩ ?_
    by_cases hn : n.label = g.label
    · -- The function itself: its name is the same, its contents are inside.
      obtain ⟨rfl, rfl⟩ := refilling.nodes_of_label_eq hnn hn
      have hkind : k = v.kind :=
        Except.ok.inj (hk.symm.trans (enters_of_mem_visits h.entered).enteredKind_eq)
      have hfunction : k.isFunction := hkind ▸ h.isFunction
      rw [Node.children_of_isFunction hfunction, Node.children_of_isFunction hfunction] at hchildren ⊢
      rw [List.flatMap_append, List.flatMap_append]
      refine .append (.flatMap ?_ fun w hw w' hw' => ?_) (.of_inside ?_ ?_)
      · refine List.rel_flatMap (R := fun name name' => name = name' ∧ name = "id") ?_ ?_
        · exact List.forall₂_same.mpr fun name hname => ⟨rfl, by simpa using (List.mem_filter.mp hname).2⟩
        · rintro name _ ⟨rfl, rfl⟩
          exact hC.fieldChildren (hC.field hnn "id" (by decide))
      · exact hchildren w (List.mem_append_left _ hw) w' (List.mem_append_left _ hw')
      · intro u hu
        obtain ⟨w, hw, hu⟩ := List.mem_flatMap.mp hu
        exact Node.inside_of_mem_contents hfunction h.importsNothing hw hu
      · intro u hu
        obtain ⟨w, hw, hu⟩ := List.mem_flatMap.mp hu
        exact Node.inside_of_mem_contents hfunction h.importsNothing' hw hu
    · exact .flatMap (hC.children hnn fun name _ => refilling.rel_lookup hnn hn name) hchildren

theorem isScope : v.node.isScope ∧ g.isScope := by
  have hC := h.faithful
  have hin := enters_of_mem_visits h.entered
  have hf : v.node.isScope := by
    have hk := h.isFunction
    rw [Node.isScope, Node.hasKind, Node.kind?_of_enteredKind hin.enteredKind_eq]
    cases hkind : v.kind <;> rw [hkind] at hk <;> cases hk <;> rfl
  refine ⟨hf, ?_⟩
  rw [Node.isScope, hC.hasKind (refilling.nodes_self h.refilled.altered (hin.wellLabelled h.wellLabelled))]
  exact hf

/-- What is outside the function has no label that is inside it, before or after. -/
theorem not_mem_labels {m : Node} (hm : m ∈ root.toValue.nodes) (hout : m ∉ v.node.toValue.nodes) :
    m.label ∉ v.node.toValue.labels ∧ m.label ∉ g.toValue.labels := by
  have hin := (enters_of_mem_visits h.entered).mem_nodes
  have hnot : m.label ∉ v.node.toValue.labels := by
    intro hmem
    obtain ⟨m', hm', hlabel⟩ := List.mem_map.mp hmem
    exact hout (h.wellLabelled.eq_of_label_eq (Value.nodes_subset hin hm') hm hlabel ▸ hm')
  refine ⟨hnot, ?_⟩
  have hexchanged := Value.labels_replace h.refilled.label h.wellLabelled hin
  rw [← h.replaced] at hexchanged
  exact hexchanged.not_mem h.wellLabelled' (List.mem_map_of_mem hm) hnot

section

variable {tables tables' : Tables} (hf : (buildScopes tables root.toValue).2 = none)
  (hf' : (buildScopes tables' root'.toValue).2 = none)
include hf hf'

theorem aligned : Aligned v.node g root.entered root'.entered := by
  obtain ⟨-, -, hfault, -⟩ := exists_node_of_build hf
  obtain ⟨-, -, hfault', -⟩ := exists_node_of_build hf'
  exact h.aligned_visits h.nodes_root .nil hfault hfault'

/-- A node outside the function has the same slot. -/
theorem slot?_buildScopes (hsame : ∀ label, tables'.slot? label = tables.slot? label) {m : Node}
    (hm : m ∈ root.toValue.nodes) (hout : m ∉ v.node.toValue.nodes) :
    (buildScopes tables' root'.toValue).1.tables.slot? m.label =
      (buildScopes tables root.toValue).1.tables.slot? m.label := by
  obtain ⟨n, hn, hfault, hclean⟩ := exists_node_of_build hf
  obtain ⟨n', hn', hfault', hclean'⟩ := exists_node_of_build hf'
  obtain rfl := Node.toValue_injective hn
  obtain rfl := Node.toValue_injective hn'
  obtain ⟨hlabel, hlabel'⟩ := h.not_mem_labels hm hout
  have hacts := (h.aligned hf hf').sameFor h.faithful h.isScope.1 h.isScope.2 h.nodes_root hclean hclean' hlabel
    hlabel'
  rw [← declarations_of_fault_eq_none hfault, ← declarations_of_fault_eq_none hfault'] at hacts
  exact slot?_buildScopes_of_sameFor hf hf' hsame hacts

end

/-- The nodes around a place outside the function are outside it. -/
theorem not_mem_nodes_of_mem_around {u : Visit} (hu : u ∈ root.entered) (hout : v.node ∉ u.around) {n : Node}
    (hn : n ∈ u.around) : n ∉ v.node.toValue.nodes := by
  intro hmem
  obtain ⟨y, hy, rfl, hsuffix, -⟩ := ((enters_of_mem_visits hu).exists_suffix_of_mem_around hn).resolve_left
    List.not_mem_nil
  rcases (enters_of_mem_visits h.entered).suffix_of_mem_nodes h.wellLabelled hy hmem with rfl | hs
  · exact hout hn
  · exact hout (hsuffix.subset (List.mem_cons_of_mem _ (hs.subset List.mem_cons_self)))

theorem node_eq {u u' : Visit} (hu : u ∈ root.entered) (huu : (refilling v.node g).Visits u u')
    (hk : u.kind = .identifier ∨ u.kind = .thisExpression) : u'.node = u.node :=
  refilling.node_eq_of_isFunction h.wellLabelled h.entered h.isFunction h.refilled.label hu huu hk

theorem isBelow_eq {u u' : Visit} (huu : (refilling v.node g).Visits u u') (label : Nat) :
    u'.toReference.isBelow label = u.toReference.isBelow label := by
  have hany : ∀ u : Visit, u.toReference.isBelow label = (u.around.map Node.label).any (· == label) :=
    fun u => by rw [List.any_map]; rfl
  rw [hany, hany, refilling.map_label_around h.faithful huu]

section

variable {tables tables' : Tables} (hf : (buildScopes tables root.toValue).2 = none)
  (hf' : (buildScopes tables' root'.toValue).2 = none)
  (hsame : ∀ label, tables'.slot? label = tables.slot? label)
include hf hf' hsame

/-- Outside the function the tables bind the same. -/
theorem isUnbound_iff {u u' : Visit} (hu : u ∈ root.entered) (huu : (refilling v.node g).Visits u u')
    (hout : u.toReference.isBelow g.label = false) :
    u.IsUnbound (buildScopes tables root.toValue).1.tables ↔
      u'.IsUnbound (buildScopes tables' root'.toValue).1.tables := by
  refine h.faithful.isUnbound_iff ?_ huu
  rintro n hn _ rfl x
  have hv : v.node ∉ u.around := fun hmem => by
    refine absurd (List.any_eq_true.mpr ⟨v.node, hmem, ?_⟩) (Bool.not_eq_true _ ▸ hout)
    exact beq_iff_eq.mpr h.refilled.label.symm
  rw [Tables.binds, Tables.binds, h.slot?_buildScopes hf hf' hsame (Node.mem_nodes_of_mem_around hu hn)
    (h.not_mem_nodes_of_mem_around hu hv hn)]
  exact congrArg _ x.rename_identity

/-- Outside the function the same references are found. -/
theorem map_node_references {refs refs' : List Reference}
    (hrefs : references (buildScopes tables root.toValue).1.tables root.toValue = .ok refs)
    (hrefs' : references (buildScopes tables' root'.toValue).1.tables root'.toValue = .ok refs') :
    (refs'.filter fun r => !r.isBelow g.label).map Reference.node =
      (refs.filter fun r => !r.isBelow g.label).map Reference.node := by
  classical
  rw [referencesOf_eq_ok (references_eq_ok_iff.mp hrefs).1,
    referencesOf_eq_ok (references_eq_ok_iff.mp hrefs').1, List.filter_map, List.filter_map, List.map_map,
    List.map_map, List.filter_filter, List.filter_filter]
  refine (h.aligned hf hf').map_node _ _ ?_ ?_ fun u hu u' _ huu => ?_
  · intro u hin
    simp [h.refilled.label, hin.isBelow]
  · intro u hin
    simp [hin.isBelow]
  · simp only [Function.comp_apply, h.isBelow_eq huu]
    cases hout : u.toReference.isBelow g.label with
    | true => simp
    | false =>
      refine ⟨?_, fun hchosen => h.node_eq hu huu ?_⟩
      · simp only [h.isUnbound_iff hf hf' hsame hu huu hout]
      · simp only [Bool.not_false, Bool.true_and, decide_eq_true_eq] at hchosen
        exact hchosen.imp And.left And.left

end

end Refilling

/-- **Functions are encapsulated.** In a program without tables let a function get other parameters and
another body, and let no import be met in these, before or after. If both programs are analysed successfully,
then the same references are found outside the function, in the same order, and every node outside the function
has the same table. -/
theorem refilled_function {t t' : Tree} (hfresh : t.Fresh) (hfresh' : t'.Fresh) {v : Visit}
    (hv : v ∈ (walk t.root).visits) (hk : v.kind.isFunction) {g : Node} (hr : v.node.Refilled g)
    (hroot : t'.root = t.root.replace g) (himports : v.node.importsInside = false)
    (himports' : g.importsInside = false) {name : Text} {found found' : List Group}
    (hfound : (t.analyze name).result = .ok found) (hfound' : (t'.analyze name).result = .ok found') :
    ∃ refs refs', t.Reports refs ∧ t'.Reports refs' ∧
      (refs'.filter fun r => !r.isBelow g.label).map Reference.node =
        (refs.filter fun r => !r.isBelow g.label).map Reference.node ∧
      ∀ m ∈ t.root.nodes, m ∉ v.node.toValue.nodes →
        (t'.analyze name).tree.tables.slot? m.label = (t.analyze name).tree.tables.slot? m.label := by
  obtain ⟨hp, hf, refs, hrefs, hgroups⟩ := Tree.analyze_result_eq_ok_iff.mp hfound
  obtain ⟨hp', hf', refs', hrefs', hgroups'⟩ := Tree.analyze_result_eq_ok_iff.mp hfound'
  refine ⟨refs, refs', Tree.reports_iff.mpr ⟨hp, hf, hrefs, found, hgroups⟩,
    Tree.reports_iff.mpr ⟨hp', hf', hrefs', found', hgroups'⟩, ?_⟩
  rw [Tree.analyze_tables name hp, Tree.analyze_tables name hp']
  obtain ⟨n, hn, -, -⟩ := exists_node_of_build hf
  obtain ⟨n', hn', -, -⟩ := exists_node_of_build hf'
  have hsame : ∀ label, t'.tables.slot? label = t.tables.slot? label := fun label => by
    rw [hfresh.noTables, hfresh'.noTables]
  have hl := hfresh.wellLabelled
  have hl' := hfresh'.wellLabelled
  unfold Tree.WellLabelled at hl hl'
  rw [hn] at hl hv hf hrefs hroot ⊢
  rw [hn'] at hl' hf' hrefs' hroot ⊢
  have hwalk : walk n.toValue = visits n.toValue [] := walk_eq_visits rfl
  rw [hwalk] at hv
  have h : Refilling n n' v g := ⟨hl, hl', hv, hk, hr, hroot, himports, himports'⟩
  refine ⟨h.map_node_references hf hf' hsame hrefs hrefs', fun m hm hout => ?_⟩
  exact h.slot?_buildScopes hf hf' hsame hm hout

/-- The declaration of a function `f` with a parameter and a body. -/
def declaredFunction (param : Text) (body : List Value) : Node :=
  Kind.functionDeclaration.node 5
    [("id", (Kind.identifier.node 6 [("name", .text "f")]).toValue),
     ("params", .array [(Kind.identifier.node 7 [("name", .text param)]).toValue]),
     ("body", (Kind.blockStatement.node 8 [("body", .array body)]).toValue)]

/-- The program `a; x` with a function in between. -/
def functionProgram (f : Node) : Tree :=
  .programOf [namedStatement 1 (.text "a"), f.toValue, namedStatement 3 (.text "x")]

theorem mem_nodes_functionProgram (f : Node) : f ∈ (functionProgram f).root.nodes := by
  simp [functionProgram, Tree.programOf, Kind.node, Node.toValue, Value.nodes, Value.nodesOfItems,
    Value.nodesOfFields]

/-- The program has no tables, so it is fresh if its labels are different. -/
theorem fresh_functionProgram {f : Node} (h : (functionProgram f).root.labels.Nodup) : (functionProgram f).Fresh :=
  ⟨h, fun _ => rfl⟩

/-- A walk of the program that meets a function of the label of `f` meets `f` itself. -/
theorem exists_visit_functionProgram {f : Node} (hfresh : (functionProgram f).Fresh)
    (hwalk : (walk (functionProgram f).root).visits.any fun v => v.kind.isFunction && v.node.label == f.label) :
    ∃ v ∈ (walk (functionProgram f).root).visits, v.kind.isFunction ∧ v.node = f := by
  obtain ⟨v, hv, hkind⟩ := List.any_eq_true.mp hwalk
  rw [Bool.and_eq_true, beq_iff_eq] at hkind
  have hin : v.node ∈ (functionProgram f).root.nodes := by
    rw [walk_eq_visits rfl] at hv
    exact (enters_of_mem_visits hv).mem_nodes
  have hnode := hfresh.wellLabelled.eq_of_label_eq hin (mem_nodes_functionProgram f) hkind.2
  exact ⟨v, hv, hkind.1, hnode⟩

/-- The function `f(x) { x; b }`. -/
def plainFunction : Node := declaredFunction "x" [namedStatement 9 (.text "x"), namedStatement 11 (.text "b")]

/-- The function `f(a) { var x; x; c }`. -/
def shadowingFunction : Node :=
  declaredFunction "a"
    [declaringStatement 9 "var" "x", namedStatement 12 (.text "x"), namedStatement 14 (.text "c")]

theorem refilled_function_shadowingFunction :
    (functionProgram plainFunction).Fresh ∧ (functionProgram shadowingFunction).Fresh ∧
      (∃ v ∈ (walk (functionProgram plainFunction).root).visits, v.kind.isFunction ∧ v.node = plainFunction) ∧
      plainFunction.Refilled shadowingFunction ∧
      (functionProgram shadowingFunction).root =
        (functionProgram plainFunction).root.replace shadowingFunction ∧
      plainFunction.importsInside = false ∧ shadowingFunction.importsInside = false ∧
      ((functionProgram plainFunction).analyze "s").result.toOption.map (List.map Group.name) =
        some [.text "a", .text "b", .text "x"] ∧
      ((functionProgram shadowingFunction).analyze "s").result.toOption.map (List.map Group.name) =
        some [.text "a", .text "c", .text "x"] ∧
      ∃ refs refs', (functionProgram plainFunction).Reports refs ∧
        (functionProgram shadowingFunction).Reports refs' ∧
        (refs'.filter fun r => !r.isBelow 5).map Reference.node =
          (refs.filter fun r => !r.isBelow 5).map Reference.node ∧
        ∀ m ∈ (functionProgram plainFunction).root.nodes, m ∉ plainFunction.toValue.nodes →
          ((functionProgram shadowingFunction).analyze "s").tree.tables.slot? m.label =
            ((functionProgram plainFunction).analyze "s").tree.tables.slot? m.label := by
  have hfresh₁ : (functionProgram plainFunction).Fresh := fresh_functionProgram (by decide +kernel)
  have hfresh₂ : (functionProgram shadowingFunction).Fresh := fresh_functionProgram (by decide +kernel)
  obtain ⟨v, hv, hkind, hnode⟩ := exists_visit_functionProgram hfresh₁ (by decide +kernel)
  have hrefilled : plainFunction.Refilled shadowingFunction := by
    refine ⟨rfl, fun name hp hb => ?_⟩
    simp [plainFunction, shadowingFunction, declaredFunction, Kind.node, List.lookup_cons, beq_false_of_ne hp,
      beq_false_of_ne hb]
  have himports : plainFunction.importsInside = false := by decide +kernel
  have himports' : shadowingFunction.importsInside = false := by decide +kernel
  have hnames₁ : ((functionProgram plainFunction).analyze "s").result.toOption.map (List.map Group.name) =
      some [.text "a", .text "b", .text "x"] := by decide +kernel
  have hnames₂ : ((functionProgram shadowingFunction).analyze "s").result.toOption.map (List.map Group.name) =
      some [.text "a", .text "c", .text "x"] := by decide +kernel
  obtain ⟨found₁, hfound₁, -⟩ := Option.map_eq_some_iff.mp hnames₁
  obtain ⟨found₂, hfound₂, -⟩ := Option.map_eq_some_iff.mp hnames₂
  have hreports := refilled_function hfresh₁ hfresh₂ hv hkind (hnode ▸ hrefilled) rfl (hnode ▸ himports)
    himports' (eq_ok_of_toOption hfound₁) (eq_ok_of_toOption hfound₂)
  rw [hnode] at hreports
  exact ⟨hfresh₁, hfresh₂, ⟨v, hv, hkind, hnode⟩, hrefilled, rfl, himports, himports', hnames₁, hnames₂,
    hreports⟩

end FreeNames
