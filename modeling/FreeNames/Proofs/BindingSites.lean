import FreeNames.Proofs.FreeReferences
import FreeNames.Proofs.Grouping
import FreeNames.Proofs.NodeKind

/-!
# Where names are bound

A walk meets the identifiers at which names are bound just as it meets those that use them, and the
analysis treats both alike. Still no such *site* is ever reported: the table that its name is bound in
belongs to a node around the site, so that the name is found there. This holds whatever tables the
program comes with. One sort of identifier is not a site although it looks like one: the `id` of a
function or class whose name is null, which declares nothing.
-/

namespace FreeNames

namespace Visit

/-- `v.HasSite m`: what is met as `v` binds a name at the identifier `m`. -/
inductive HasSite (v : Visit) : Node → Prop where
  /-- The leaves of the patterns of a variable declaration. -/
  | declarator {d m : Node} (hk : v.kind = .variableDeclaration)
      (hd : v.node.Lists "declarations" d.toValue) (hm : Leaf (d.field "id") m) : HasSite v m
  /-- The leaves of the parameters of a function. -/
  | parameter {p : Value} {m : Node} (hk : v.kind.isFunction) (hp : v.node.Lists "params" p)
      (hm : Leaf p m) : HasSite v m
  /-- The leaves of a catch parameter. -/
  | catchParameter {handler m : Node} (hk : v.kind = .tryStatement)
      (hh : v.node.field "handler" = handler.toValue) (hm : Leaf (handler.field "param") m) :
      HasSite v m
  /-- The name of a function or class, unless it is null. -/
  | ownName {m : Node} (hk : v.kind.isFunction ∨ v.kind.isClass)
      (hid : v.node.field "id" = m.toValue) (hi : m.kind? = some .identifier)
      (hm : ¬ m.Named .null) : HasSite v m

end Visit

theorem Node.Lists.nodes_subset {n : Node} {name : String} {v : Value} (h : n.Lists name v) :
    v.nodes ⊆ Value.nodesOfFields n.fields := by
  obtain ⟨items, hitems, hv⟩ := h
  have hsub := Value.nodes_field_subset n name
  rw [hitems] at hsub
  exact fun m hm => hsub (Value.nodes_subset_of_mem_array hv hm)

namespace Visit.HasSite

variable {v : Visit} {m : Node}

/-- A site lies inside the node that it belongs to. -/
theorem mem_nodesOfFields (h : v.HasSite m) : m ∈ Value.nodesOfFields v.node.fields := by
  cases h with
  | declarator _ hd hm =>
    exact hd.nodes_subset (List.mem_cons_of_mem _ (Value.nodes_field_subset _ _ hm.mem_nodes))
  | parameter _ hp hm => exact hp.nodes_subset hm.mem_nodes
  | catchParameter _ hh hm =>
    refine Node.mem_nodesOfFields_of_field hh (List.mem_cons_of_mem _ ?_)
    exact Value.nodes_field_subset _ _ hm.mem_nodes
  | ownName _ hid _ _ => exact Node.mem_nodesOfFields_of_field hid (Value.mem_nodes_toValue m)

theorem kind?_eq (h : v.HasSite m) : m.kind? = some .identifier := by
  cases h with
  | declarator _ _ hm => exact hm.kind?_eq
  | parameter _ _ hm => exact hm.kind?_eq
  | catchParameter _ _ hm => exact hm.kind?_eq
  | ownName _ _ hi _ => exact hi

end Visit.HasSite

/-! ### The scope of a site is around it -/

theorem Node.handler_mem_children {n handler : Node} (h : n.field "handler" = handler.toValue) :
    handler.toValue ∈ n.children .tryStatement := by
  refine List.mem_flatMap.mpr ⟨"handler", ?_, ?_⟩
  · simp [enteredFields, Kind.entered, Kind.computedField]
  · rw [h]
    simp [fieldChildren, toValue]

section

variable {root : Node} {v b : Visit} (hl : root.toValue.WellLabelled)
include hl

/-- What is met inside an entered node has this node around it. -/
theorem Visit.suffix_of_mem_nodesOfFields (hv : v ∈ root.entered) (hb : b ∈ root.entered)
    (h : b.node ∈ Value.nodesOfFields v.node.fields) : (v.node :: v.around) <:+ b.around := by
  have hin := enters_of_mem_visits hv
  rcases hin.suffix_of_mem_nodes hl (enters_of_mem_visits hb) (List.mem_cons_of_mem _ h) with rfl | hs
  · exact absurd h (hin.wellLabelled hl).not_mem_nodesOfFields
  · exact hs

/-- The name at a site is bound in a node around the site. -/
theorem Visit.HasSite.exists_binds (hfault : (visits root.toValue []).fault = none)
    (hclean : Act.Clean (v.acts root)) (hv : v ∈ root.entered) (hb : b ∈ root.entered)
    (h : v.HasSite b.node) {x : Name} (hx : b.node.Named x) :
    ∃ scope ∈ b.around, v.Binds root scope x := by
  have hsuffix := Visit.suffix_of_mem_nodesOfFields hl hv hb h.mem_nodesOfFields
  have hown : v.node ∈ b.around := hsuffix.subset List.mem_cons_self
  cases h with
  | declarator hk hd hm =>
    obtain ⟨scope, hs⟩ := exists_variableScope (clean_of_asks hclean fun _ => Asks.ofVariables hk)
    refine ⟨scope, hsuffix.subset (List.mem_cons_of_mem _ hs.mem_around), b.node, ?_, hx⟩
    exact declares_of_variableScope hk hs hd hm
  | parameter hk hp hm => exact ⟨v.node, hown, b.node, .parameter hk hp hm, hx⟩
  | @catchParameter handler _ hk hh hm =>
    -- The handler is entered as a child, so it too has to be around what lies inside it.
    obtain ⟨n, k, hn, hin⟩ := (enters_of_mem_visits hv).child hfault (hk ▸ Node.handler_mem_children hh)
    obtain rfl := Node.toValue_injective hn
    have hsuffix := Visit.suffix_of_mem_nodesOfFields hl (mem_visits_of_enters hin hfault) hb
      (Value.nodes_field_subset _ _ hm.mem_nodes)
    exact ⟨handler, hsuffix.subset List.mem_cons_self, b.node, .catchParameter hk hh hm, hx⟩
  | ownName hk hid _ hm => exact ⟨v.node, hown, b.node, .ownName hk hid hm, hx⟩

end

/-- **No site is reported.** Whatever tables a program comes with, an analysis that succeeds reports no
identifier at which a declaration of the program binds a name. -/
theorem site_not_reported {t : Tree} {name : Text} {found : List Group} (hl : t.WellLabelled)
    (h : (t.analyze name).result = .ok found) {v : Visit} (hv : v ∈ (visits t.root []).visits)
    {m : Node} (hm : v.HasSite m) {g : Group} (hg : g ∈ found) {r : Reference}
    (hr : r ∈ g.references) : r.node.label ≠ m.label := by
  obtain ⟨-, hf, refs, hrefs, hgroups⟩ := Tree.analyze_result_eq_ok_iff.mp h
  obtain ⟨n, hn, hfault, hclean⟩ := exists_node_of_build hf
  unfold Tree.WellLabelled at hl
  rw [hn] at hl hf hrefs hv hfault
  -- The reference is a visit that the tables do not bind.
  obtain ⟨b, hb, hun, rfl⟩ := (mem_of_referencesOf (references_eq_ok_iff.mp hrefs).1).mp
    (mem_of_mem_groups hgroups hg hr)
  intro hlabel
  have hin := enters_of_mem_visits hv
  have hnode : b.node = m := hl.eq_of_label_eq (enters_of_mem_visits hb).mem_nodes
    (Value.nodes_subset hin.mem_nodes (List.mem_cons_of_mem _ hm.mem_nodesOfFields)) hlabel
  subst hnode
  have hkind : b.kind = .identifier := by
    have hk := Node.kind?_of_enteredKind (enters_of_mem_visits hb).enteredKind_eq
    exact Option.some.inj (hk.symm.trans hm.kind?_eq)
  rcases hun with ⟨-, x, hx, -, -, hall⟩ | ⟨hthis, -⟩
  · obtain ⟨scope, hscope, hbinds⟩ :=
      hm.exists_binds hl hfault (hclean.of_mem_flatMap hv) hv hb hx
    have hdeclared : n.Declared scope x := ⟨v, hv, x, hbinds, rfl⟩
    exact (binds_buildScopes_of_isTarget hl hf hdeclared.isTarget).mp (hall scope hscope) hdeclared
  · rw [hkind] at hthis
    cases hthis

/-- In `f(x); function f(a) { g(a) } this`, what is reported is not where `f` is bound. -/
theorem site_not_reported_hoistedProgram :
    ∃ (found : List Group) (v : Visit) (m : Node) (g : Group) (r : Reference),
      hoistedProgram.WellLabelled ∧ (hoistedProgram.analyze "s").result = .ok found ∧
        v ∈ (visits hoistedProgram.root []).visits ∧ v.HasSite m ∧ g ∈ found ∧ r ∈ g.references ∧
        r.node.label ≠ m.label := by
  have hl : hoistedProgram.WellLabelled := Tree.wellLabelled_ofValue _
  have hfound : ((hoistedProgram.analyze "s").result.toOption.any fun found =>
      found.any fun g => g.references.any fun _ => true) = true := by decide +kernel
  have hsite : ((walk hoistedProgram.root).visits.any fun v =>
      v.kind.isFunction && (v.node.field "id").node?.any fun m =>
        m.kind? == some .identifier && (m.fields.lookup "name").any fun x => !x.isNull) = true := by
    decide +kernel
  simp only [Option.any_eq_true, List.any_eq_true, Bool.and_eq_true, beq_iff_eq] at hfound hsite
  obtain ⟨found, hok, g, hg, r, hr, -⟩ := hfound
  obtain ⟨v, hv, hk, m, hid, hi, w, hw, hnull⟩ := hsite
  have hm : v.HasSite m := by
    refine .ownName (.inl hk) (Value.node?_eq_some_iff.mp hid) hi fun h => ?_
    rw [Node.Named, hw] at h
    cases h
    cases hnull
  rw [walk_eq_visits rfl] at hv
  have hok := eq_ok_of_toOption hok
  exact ⟨found, v, m, g, r, hl, hok, hv, hm, hg, hr, site_not_reported hl hok hv hm hg hr⟩

/-- The program `function () { }`, where an identifier without a name stands for the name. -/
def nullNamedProgram : Tree :=
  .ofValue (Kind.program.object
    [("body", .array
      [Kind.functionDeclaration.object
        [("id", Kind.identifier.object [("name", .null)]), ("params", .array []),
         ("body", Kind.blockStatement.object [("body", .array [])])]])])

/-- The identifier of a function is reported if its name is null. -/
theorem nullNamed_reported :
    ∃ (found : List Group) (v : Visit) (m : Node) (g : Group) (r : Reference),
      nullNamedProgram.WellLabelled ∧ (nullNamedProgram.analyze "s").result = .ok found ∧
        v ∈ (visits nullNamedProgram.root []).visits ∧ v.kind.isFunction ∧
        v.node.field "id" = m.toValue ∧ m.kind? = some .identifier ∧ g ∈ found ∧ r ∈ g.references ∧
        r.node.label = m.label := by
  have hl : nullNamedProgram.WellLabelled := Tree.wellLabelled_ofValue _
  have hreported : ((nullNamedProgram.analyze "s").result.toOption.any fun found =>
      found.any fun g => g.references.any fun r => (walk nullNamedProgram.root).visits.any fun v =>
        v.kind.isFunction && (v.node.field "id").node?.any fun m =>
          m.kind? == some .identifier && r.node.label == m.label) = true := by
    decide +kernel
  simp only [Option.any_eq_true, List.any_eq_true, Bool.and_eq_true, beq_iff_eq] at hreported
  obtain ⟨found, hok, g, hg, r, hr, v, hv, hk, m, hid, hi, hlabel⟩ := hreported
  rw [walk_eq_visits rfl] at hv
  exact ⟨found, v, m, g, r, hl, eq_ok_of_toOption hok, hv, hk, Value.node?_eq_some_iff.mp hid, hi, hg, hr, hlabel⟩

end FreeNames
