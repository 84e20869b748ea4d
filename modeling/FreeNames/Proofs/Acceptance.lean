import FreeNames.Proofs.BindingSites
import FreeNames.Proofs.Scoped

/-!
# Which programs are accepted

A tree is plain data, and an analysis refuses most of it. Among trees of a regular shape, in which the
fields that an analysis reads hold at least values of the right sort (`Node.Regular`), it accepts exactly
those programs in which all that a walk comes to is of a known kind, all that is bound to is a pattern, and
all that needs a name has one (`Visit.Acceptable`). A declaration never wants for a scope in them.
-/

namespace FreeNames

/-! ### Regular shapes -/

namespace Value

/-- An object, or nothing. -/
def isOptional : Value → Bool
  | null | object .. => true
  | _ => false

/-- What the field of a child holds: an object, nothing, or an array of objects and gaps. -/
def holdsChildren : Value → Bool
  | array items => items.all isOptional
  | v => v.isOptional

/-- Whether a value is a text of any sort. -/
def isAnyText : Value → Bool
  | text _ => true
  | _ => false

theorem isOptional_iff {v : Value} : v.isOptional ↔ v = .null ∨ ∃ n : Node, v = n.toValue := by
  constructor
  · intro h
    cases v with
    | null => exact .inl rfl
    | object label fields => exact .inr ⟨⟨label, fields⟩, rfl⟩
    | _ => cases h
  · rintro (rfl | ⟨n, rfl⟩) <;> rfl

end Value

/-- The fields that an analysis reads of the node hold values of the right sort. -/
structure Node.Regular (n : Node) : Prop where
  children : ∀ k ∈ n.kind?, ∀ name ∈ k.entered, (n.field name).holdsChildren
  lists : ∀ name ∈ ["params", "declarations", "properties", "elements"], n.HoldsList name
  optional : ∀ name ∈ ["handler", "id", "local", "param"], (n.field name).isOptional
  name : ∀ v ∈ n.fields.lookup "name", v.isAnyText

instance (n : Node) : Decidable n.Regular :=
  decidable_of_iff
    ((∀ k ∈ n.kind?, ∀ name ∈ k.entered, (n.field name).holdsChildren) ∧
      (∀ name ∈ ["params", "declarations", "properties", "elements"], n.HoldsList name) ∧
      (∀ name ∈ ["handler", "id", "local", "param"], (n.field name).isOptional) ∧
      ∀ v ∈ n.fields.lookup "name", v.isAnyText)
    ⟨fun ⟨hchildren, hlists, hoptional, hname⟩ => ⟨hchildren, hlists, hoptional, hname⟩,
      fun h => ⟨h.children, h.lists, h.optional, h.name⟩⟩

/-! ### Acceptable visits -/

/-- What a node of a kind declares is well-formed: what is bound to are patterns, and what needs a name
has one. -/
structure Node.WellDeclared (n : Node) (k : Kind) : Prop where
  /-- Variables are declared by objects with patterns. -/
  declarators : k = .variableDeclaration → ∀ d, n.Lists "declarations" d →
    ∃ m : Node, d = m.toValue ∧ BindingPattern (m.field "id")
  /-- Parameters are patterns. -/
  parameters : k.isFunction → ∀ p, n.Lists "params" p → BindingPattern p
  /-- So is a catch parameter, if there is one. -/
  catchParameter : k = .tryStatement → ∀ handler : Node, n.field "handler" = handler.toValue →
    (handler.field "param").isNull = false → BindingPattern (handler.field "param")
  /-- The identifiers of functions and classes have names. -/
  ownName : k.isFunction ∨ k.isClass → ∀ m : Node, n.field "id" = m.toValue → ∃ x, m.Named x
  /-- Imports have a local object with a name. -/
  imported : k.isImport → ∃ (m : Node) (x : Name), n.field "local" = m.toValue ∧ m.Named x

/-- What is met can be used by an analysis. -/
structure Visit.Acceptable (v : Visit) : Prop extends v.node.WellDeclared v.kind where
  /-- The objects that the walk goes on to are of known kinds. -/
  children : ∀ m : Node, m.toValue ∈ v.node.children v.kind → ∃ k, m.kind? = some k
  /-- An identifier has a name. -/
  identifier : v.kind = .identifier → ∃ x, v.node.Named x

namespace Node.Regular

variable {n : Node}

/-- The children of a regular node are objects. -/
theorem exists_eq_toValue (h : n.Regular) {k : Kind} (hk : n.kind? = some k) {w : Value}
    (hw : w ∈ n.children k) : ∃ m : Node, w = m.toValue := by
  obtain ⟨name, hname, hw⟩ := List.mem_flatMap.mp hw
  have hentered : name ∈ k.entered := by
    unfold enteredFields at hname
    split at hname
    · exact hname
    · exact (List.mem_filter.mp hname).1
  have hholds := h.children k hk name hentered
  unfold fieldChildren at hw
  split at hw
  · simp at hw
  · rename_i items hf
    obtain ⟨hmem, hnull⟩ := List.mem_filter.mp hw
    rw [hf] at hholds
    rcases Value.isOptional_iff.mp (List.all_eq_true.mp hholds w hmem) with rfl | hw
    · cases hnull
    · exact hw
  · rename_i hnull harray
    obtain rfl := List.mem_singleton.mp hw
    unfold Value.holdsChildren at hholds
    split at hholds
    · rename_i items hf
      exact absurd hf (harray items)
    · rcases Value.isOptional_iff.mp hholds with hf | hf
      · exact absurd hf hnull
      · exact hf

/-- A regular node has a name of its own that can be read if its identifier has a name. -/
theorem exists_ownName_iff (h : n.Regular) :
    (∃ x : Name, n.ownName = .ok x.toValue) ↔ ∀ m : Node, n.field "id" = m.toValue → ∃ x, m.Named x := by
  unfold ownName
  rcases Value.isOptional_iff.mp (h.optional "id" (by simp)) with hid | ⟨m, hid⟩
  · simp only [hid, Value.isNull, if_true]
    refine iff_of_true ⟨.null, rfl⟩ fun m hm => ?_
    cases hm
  · have hnull : m.toValue.isNull = false := rfl
    simp only [hid, hnull, Bool.false_eq_true, if_false]
    constructor
    · rintro ⟨x, hx⟩ m' hm'
      obtain rfl := toValue_injective hm'
      exact ⟨x, member_toValue_eq_ok_iff.mp hx⟩
    · intro hnamed
      obtain ⟨x, hx⟩ := hnamed m rfl
      exact ⟨x, member_toValue_eq_ok_iff.mpr hx⟩

end Node.Regular

/-- A declarator is read if it is an object with a pattern. -/
theorem exists_member_id_iff {d : Value}
    (h : ∀ m ∈ d.nodes, m.HoldsList "properties" ∧ m.HoldsList "elements") :
    (∃ p, d.member "id" = .ok p ∧ (bound p).fault = none) ↔
      ∃ m : Node, d = m.toValue ∧ BindingPattern (m.field "id") := by
  have hfield : ∀ m : Node, d = m.toValue →
      ((bound (m.field "id")).fault = none ↔ BindingPattern (m.field "id")) := by
    rintro m rfl
    exact bound_fault_eq_none_iff fun q hq =>
      h q (List.mem_cons_of_mem _ (Value.nodes_field_subset m "id" hq))
  constructor
  · rintro ⟨p, hp, hbound⟩
    obtain ⟨m, rfl, rfl⟩ := Value.exists_of_member_eq_ok hp
    exact ⟨m, rfl, (hfield m rfl).mp hbound⟩
  · rintro ⟨m, rfl, hpattern⟩
    have hbound := (hfield m rfl).mpr hpattern
    obtain ⟨q, hq⟩ := hpattern.exists_eq_toValue
    refine ⟨m.field "id", ?_, hbound⟩
    unfold Value.member
    rw [Node.node?_toValue]
    cases hl : m.fields.lookup "id" with
    | none => simp [Node.field, hl, Node.toValue] at hq
    | some w => simp [Node.require, Node.field, hl]

/-- The declarations of a regular node can be read if they are well-formed. -/
theorem Node.readable_iff {n : Node} (hr : ∀ m ∈ n.toValue.nodes, m.Regular) (k : Kind) :
    n.Readable k ↔ n.WellDeclared k := by
  have hn := hr n (Value.mem_nodes_toValue n)
  have hlists : ∀ {v : Value}, v.nodes ⊆ Value.nodesOfFields n.fields →
      ∀ m ∈ v.nodes, m.HoldsList "properties" ∧ m.HoldsList "elements" := by
    intro v hv m hm
    have hm := hr m (List.mem_cons_of_mem _ (hv hm))
    exact ⟨hm.lists _ (by simp), hm.lists _ (by simp)⟩
  have hdeclarators : (∃ ds, n.membersOf "declarations" = .ok ds ∧
        ∀ d ∈ ds, ∃ p, d.member "id" = .ok p ∧ (bound p).fault = none) ↔
      ∀ d, n.Lists "declarations" d → ∃ m : Node, d = m.toValue ∧ BindingPattern (m.field "id") := by
    rw [(hn.lists "declarations" (by simp)).exists_membersOf_iff]
    exact forall₂_congr fun d hd => exists_member_id_iff (hlists hd.nodes_subset)
  have hparameters : (∃ params, n.membersOf "params" = .ok params ∧ ∀ p ∈ params, (bound p).fault = none) ↔
      ∀ p, n.Lists "params" p → BindingPattern p := by
    rw [(hn.lists "params" (by simp)).exists_membersOf_iff]
    exact forall₂_congr fun p hp => bound_fault_eq_none_iff (hlists hp.nodes_subset)
  have hparameter : ∀ handler : Node, n.field "handler" = handler.toValue →
      ((bound (handler.field "param")).fault = none ↔ BindingPattern (handler.field "param")) := by
    intro handler hh
    refine bound_fault_eq_none_iff (hlists fun m hm => ?_)
    exact mem_nodesOfFields_of_field hh (List.mem_cons_of_mem _ (Value.nodes_field_subset handler "param" hm))
  constructor
  · intro h
    exact
      { declarators := fun hk => hdeclarators.mp (h.declarators hk)
        parameters := fun hk => hparameters.mp (h.parameters hk)
        catchParameter := by
          intro hk handler hh hparam
          rcases h.handler hk with hnull | ⟨other, hother, hread⟩
          · cases hnull.symm.trans hh
          · obtain rfl := toValue_injective (hother.symm.trans hh)
            exact (hparameter other hh).mp (hread hparam)
        ownName := fun hk => hn.exists_ownName_iff.mp (h.ownName hk)
        imported := h.imported }
  · intro h
    exact
      { declarators := fun hk => hdeclarators.mpr (h.declarators hk)
        parameters := fun hk => hparameters.mpr (h.parameters hk)
        handler := by
          intro hk
          refine (Value.isOptional_iff.mp (hn.optional "handler" (by simp))).imp_right ?_
          rintro ⟨handler, hh⟩
          refine ⟨handler, hh, fun hparam => ?_⟩
          exact (hparameter handler hh).mpr (h.catchParameter hk handler hh hparam)
        ownName := fun hk => hn.exists_ownName_iff.mpr (h.ownName hk)
        imported := h.imported }

/-! ### Names are texts -/

/-- The name of a reference is `this`, or the name of its node. -/
theorem Reference.named_of_name {r : Reference} {x : Name} (h : r.name = .ok x) :
    x = .text "this" ∨ r.node.Named x := by
  unfold name at h
  split at h
  · exact .inl (Except.ok.inj h).symm
  · exact .inr (Node.name_eq_ok_iff.mp h)

theorem Node.Regular.sort_eq {n : Node} (h : n.Regular) {x : Name} (hx : n.Named x) : x.sort = .text := by
  have htext := h.name _ hx
  cases x with
  | text t => rfl
  | _ => cases htext

/-- What is found in a regular tree can be grouped. -/
theorem exists_groups_of_regular {tables : Tables} {n : Node} (hr : ∀ m ∈ n.toValue.nodes, m.Regular)
    {refs : List Reference} (h : references tables n.toValue = .ok refs) :
    ∃ found, groups refs = .ok found := by
  refine exists_groups_iff.mpr ⟨.text, fun r hmem => ?_⟩
  obtain ⟨v, hv, hun, rfl⟩ := (mem_of_referencesOf (references_eq_ok_iff.mp h).1).mp hmem
  obtain ⟨x, hx⟩ := hun.exists_name hv
  refine ⟨x, hx, ?_⟩
  rcases Reference.named_of_name hx with rfl | hnamed
  · rfl
  · exact (hr _ (enters_of_mem_visits hv).mem_nodes).sort_eq hnamed

/-! ### Accepted programs -/

/-- A walk of a regular tree is without a fault if the objects it goes on to are of known kinds. -/
theorem visits_fault_eq_none_iff_of_regular {n : Node} {k : Kind} (hk : n.kind? = some k)
    (hr : ∀ m ∈ n.toValue.nodes, m.Regular) :
    (visits n.toValue []).fault = none ↔ ∀ v, Enters n.toValue [] v →
      ∀ m : Node, m.toValue ∈ v.node.children v.kind → ∃ j, m.kind? = some j := by
  rw [visits_fault_eq_none_iff]
  constructor
  · rintro ⟨-, h⟩ v hv m hm
    obtain ⟨m', j, hm', hj⟩ := h v hv _ hm
    obtain rfl := Node.toValue_injective hm'
    exact ⟨j, Node.enteredKind_eq_ok_iff.mp hj⟩
  · intro h
    refine ⟨⟨n, k, rfl, Node.enteredKind_eq_ok_iff.mpr hk⟩, fun v hv w hw => ?_⟩
    obtain ⟨m, rfl⟩ := (hr _ hv.mem_nodes).exists_eq_toValue (Node.kind?_of_enteredKind hv.enteredKind_eq) hw
    obtain ⟨j, hj⟩ := h v hv m hw
    exact ⟨m, j, rfl, Node.enteredKind_eq_ok_iff.mpr hj⟩

/-- **Which programs are accepted.** An analysis of a regular program succeeds if and only if all that the
walk meets is acceptable. If it fails, then not because a declaration has no scope. -/
theorem succeeds_iff_acceptable {t : Tree} (hp : t.isProgram) (hr : ∀ m ∈ t.root.nodes, m.Regular)
    (hs : t.tables.HoldSets) (name : Text) :
    ((∃ found, (t.analyze name).result = .ok found) ↔ ∀ v, Enters t.root [] v → v.Acceptable) ∧
      ∀ fault, (t.analyze name).result = .error fault → fault.isUnscoped = false := by
  refine ⟨?_, Tree.scoped_analyze hp name⟩
  obtain ⟨n, hroot, hk⟩ := Tree.isProgram_iff.mp hp
  rw [hroot] at hr ⊢
  have hregular : ∀ v, Enters n.toValue [] v → ∀ m ∈ v.node.toValue.nodes, m.Regular :=
    fun v hv m hm => hr m (Value.nodes_subset hv.mem_nodes hm)
  have hwalk := visits_fault_eq_none_iff_of_regular hk hr
  constructor
  · rintro ⟨found, h⟩
    obtain ⟨-, hf, refs, hrefs, -⟩ := Tree.analyze_result_eq_ok_iff.mp h
    rw [hroot] at hf hrefs
    obtain ⟨hfault, hread⟩ := (buildScopes_fault_eq_none_iff hk).mp hf
    obtain ⟨-, hnamed⟩ := (exists_references_iff (holdSets_buildScopes hs hf)).mp ⟨refs, hrefs⟩
    intro v hv
    have hmem := mem_visits_of_enters hv hfault
    exact
      { toWellDeclared := (Node.readable_iff (hregular v hv) v.kind).mp (hread v hmem)
        children := hwalk.mp hfault v hv
        identifier := hnamed v hmem }
  · intro h
    have hfault := hwalk.mpr fun v hv => (h v hv).children
    have hf : (buildScopes t.tables n.toValue).2 = none := by
      refine (buildScopes_fault_eq_none_iff hk).mpr ⟨hfault, fun v hv => ?_⟩
      have hv := enters_of_mem_visits hv
      exact (Node.readable_iff (hregular v hv) v.kind).mpr (h v hv).toWellDeclared
    obtain ⟨refs, hrefs⟩ := (exists_references_iff (holdSets_buildScopes hs hf)).mpr
      ⟨hfault, fun v hv => (h v (enters_of_mem_visits hv)).identifier⟩
    obtain ⟨found, hfound⟩ := exists_groups_of_regular hr hrefs
    refine ⟨found, Tree.analyze_result_eq_ok_iff.mpr ⟨hp, ?_⟩⟩
    rw [hroot]
    exact ⟨hf, refs, hrefs, hfound⟩

/-- The program `try { f() } catch (…) { x }` with a given catch parameter. -/
def caughtProgram (param : Value) : Tree :=
  .ofValue (Kind.program.object
    [("body", .array
      [Kind.tryStatement.object
        [("block", Kind.blockStatement.object
          [("body", .array [Kind.expressionStatement.object
            [("expression", Kind.callExpression.object
              [("callee", .identifier "f"), ("arguments", .array [])])]])]),
         ("handler", Kind.catchClause.object
          [("param", param),
           ("body", Kind.blockStatement.object
            [("body", .array [Kind.expressionStatement.object [("expression", .identifier "x")]])])])]])])

/-- The pattern `{ a: [ , x = y], ...z }`. -/
def nestedPattern : Value :=
  Kind.objectPattern.object
    [("properties", .array
      [Kind.property.object
        [("key", .identifier "a"),
         ("value", Kind.arrayPattern.object
          [("elements", .array
            [.null,
             Kind.assignmentPattern.object [("left", .identifier "x"), ("right", .identifier "y")]])])],
       Kind.restElement.object [("argument", .identifier "z")]])]

/-- The expression `this.x`. -/
def memberOfThis : Value :=
  Kind.memberExpression.object [("object", Kind.thisExpression.object []), ("property", .identifier "x")]

/-- A nested pattern is accepted as a catch parameter, a member of `this` is not. -/
theorem succeeds_iff_acceptable_caughtProgram :
    (caughtProgram nestedPattern).isProgram ∧
      (∀ m ∈ (caughtProgram nestedPattern).root.nodes, m.Regular) ∧
      (caughtProgram nestedPattern).tables.HoldSets ∧
      (∀ v, Enters (caughtProgram nestedPattern).root [] v → v.Acceptable) ∧
    (caughtProgram memberOfThis).isProgram ∧
      (∀ m ∈ (caughtProgram memberOfThis).root.nodes, m.Regular) ∧
      (caughtProgram memberOfThis).tables.HoldSets ∧
      ¬ ∀ v, Enters (caughtProgram memberOfThis).root [] v → v.Acceptable := by
  have hgood : (caughtProgram nestedPattern).isProgram := by decide +kernel
  have hregular : ∀ m ∈ (caughtProgram nestedPattern).root.nodes, m.Regular := by decide +kernel
  have hnone : (caughtProgram nestedPattern).tables.slots.isEmpty := by decide +kernel
  have hsets := Tables.holdSets_of_slot?_eq_none (Tables.slot?_eq_none_of_isEmpty hnone)
  have hfound : ((caughtProgram nestedPattern).analyze "s").result.toOption.isSome := by decide +kernel
  have hbad : (caughtProgram memberOfThis).isProgram := by decide +kernel
  have hregular' : ∀ m ∈ (caughtProgram memberOfThis).root.nodes, m.Regular := by decide +kernel
  have hnone' : (caughtProgram memberOfThis).tables.slots.isEmpty := by decide +kernel
  have hsets' := Tables.holdSets_of_slot?_eq_none (Tables.slot?_eq_none_of_isEmpty hnone')
  have hfails : ((caughtProgram memberOfThis).analyze "s").result.toOption.isSome = false := by decide +kernel
  refine ⟨hgood, hregular, hsets, ?_, hbad, hregular', hsets', fun h => ?_⟩
  · obtain ⟨found, hfound⟩ := Option.isSome_iff_exists.mp hfound
    exact (succeeds_iff_acceptable hgood hregular hsets "s").1.mp ⟨found, eq_ok_of_toOption hfound⟩
  · obtain ⟨found, hfound⟩ := (succeeds_iff_acceptable hbad hregular' hsets' "s").1.mpr h
    rw [hfound] at hfails
    cases hfails

end FreeNames
