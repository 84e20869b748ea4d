import FreeNames.Proofs.Declaration

/-!
# The grammar of binding patterns

`BindingPattern` says which values are patterns, construct by construct and without a word on names,
faults or the order in which the parts are read. Where the lists that patterns are made of are lists,
a pattern is read without a fault if and only if it is in the grammar (`bound_fault_eq_none_iff`).
-/

namespace FreeNames

/-- Whether a value is an array. -/
def Value.isArray : Value → Bool
  | array _ => true
  | _ => false

namespace Node

/-- What a property of an object pattern hands its binding on to: its value, or else the target of a
rest property. -/
def target (q : Node) : Value :=
  if (q.field "value").isTrue then q.field "value" else q.field "argument"

/-- A field is absent or a list. -/
def HoldsList (n : Node) (name : String) : Prop := ∀ v ∈ n.fields.lookup name, v.isArray

instance (n : Node) (name : String) : Decidable (n.HoldsList name) :=
  inferInstanceAs (Decidable (∀ v ∈ n.fields.lookup name, v.isArray))

end Node

/-- The values that can be bound to. -/
inductive BindingPattern : Value → Prop where
  /-- An identifier with a name. -/
  | identifier {n : Node} {x : Name} (hk : n.kind? = some .identifier) (hx : n.Named x) :
      BindingPattern n.toValue
  /-- An object pattern, each of whose properties is an object with a pattern as its target. -/
  | object {n : Node} (hk : n.kind? = some .objectPattern)
      (hp : ∀ p, n.Lists "properties" p → ∃ q : Node, p = q.toValue)
      (ht : ∀ q : Node, n.Lists "properties" q.toValue → BindingPattern q.target) :
      BindingPattern n.toValue
  /-- An array pattern, each of whose elements is missing or a pattern. -/
  | array {n : Node} (hk : n.kind? = some .arrayPattern)
      (he : ∀ e, n.Lists "elements" e → e.isNull = false → BindingPattern e) : BindingPattern n.toValue
  /-- A rest element with a pattern as its target. -/
  | rest {n : Node} (hk : n.kind? = some .restElement) (ht : BindingPattern (n.field "argument")) :
      BindingPattern n.toValue
  /-- A pattern with a default. -/
  | defaulted {n : Node} (hk : n.kind? = some .assignmentPattern) (ht : BindingPattern (n.field "left")) :
      BindingPattern n.toValue

theorem BindingPattern.exists_eq_toValue {p : Value} (h : BindingPattern p) : ∃ n : Node, p = n.toValue := by
  cases h <;> exact ⟨_, rfl⟩

theorem Value.isArray_iff {v : Value} : v.isArray ↔ ∃ items, v = .array items := by
  cases v <;> simp [isArray]

/-! ### Parts are smaller -/

namespace Node

variable {n q : Node} {name : String}

theorem size_field_lt (h : (n.field name).isNull = false) : (n.field name).size < n.toValue.size := by
  unfold field at h ⊢
  cases hl : n.fields.lookup name with
  | none => simp [hl, Value.isNull] at h
  | some v =>
    have := Value.size_le_sizeFields hl
    simp only [Option.getD_some, toValue, Value.size]
    omega

theorem Lists.size_lt {v : Value} (h : n.Lists name v) : v.size < n.toValue.size := by
  obtain ⟨items, hf, hv⟩ := h
  exact size_lt_of_mem_membersOf (membersOf_of_field_eq_array hf) hv

/-- The target of a property is a part of the pattern. -/
theorem part_target (hk : n.kind? = some .objectPattern) (hq : n.Lists "properties" q.toValue) :
    Part n q.target := by
  obtain ⟨properties, hp, hq⟩ := hq
  unfold target
  split
  · rename_i ht
    exact .property hk hp hq ht
  · rename_i ht
    exact .restProperty hk hp hq (by simpa using ht)

/-- The members of a list are what it lists. -/
theorem HoldsList.exists_membersOf (h : n.HoldsList name) :
    ∃ l, n.membersOf name = .ok l ∧ ∀ v, v ∈ l ↔ n.Lists name v := by
  cases hl : n.fields.lookup name with
  | none =>
    refine ⟨[], by simp [membersOf, hl], fun v => ⟨fun hv => absurd hv List.not_mem_nil, ?_⟩⟩
    rintro ⟨items, hf, -⟩
    simp [field, hl] at hf
  | some v =>
    obtain ⟨items, rfl⟩ := Value.isArray_iff.mp (h v hl)
    have hf : n.field name = .array items := by simp [field, hl]
    refine ⟨items, membersOf_of_field_eq_array hf, fun w => ⟨fun hw => ⟨items, hf, hw⟩, ?_⟩⟩
    rintro ⟨others, hf', hw⟩
    rw [hf] at hf'
    cases hf'
    exact hw

theorem HoldsList.exists_membersOf_iff (h : n.HoldsList name) {p : Value → Prop} :
    (∃ l, n.membersOf name = .ok l ∧ ∀ v ∈ l, p v) ↔ ∀ v, n.Lists name v → p v := by
  obtain ⟨l, hl, hmem⟩ := h.exists_membersOf
  simp only [hl, Except.ok.injEq, exists_eq_left', hmem]

end Node

theorem Part.size_lt {n : Node} {v : Value} (h : Part n v) (hv : v.isNull = false) :
    v.size < n.toValue.size := by
  cases h with
  | property hk hp hq ht =>
    exact Nat.lt_trans (Node.size_lt_of_isTrue ht) (Node.Lists.size_lt ⟨_, hp, hq⟩)
  | restProperty hk hp hq ht =>
    exact Nat.lt_trans (Node.size_field_lt hv) (Node.Lists.size_lt ⟨_, hp, hq⟩)
  | element hk he hmem => exact Node.Lists.size_lt ⟨_, he, hmem⟩
  | target hk => exact Node.size_field_lt hv
  | defaulted hk => exact Node.size_field_lt hv

/-! ### Reading without a fault -/

theorem bound_fault_ne_none_of_isNull {v : Value} (h : v.isNull) : (bound v).fault ≠ none := by
  have hn : v.node? = none := by
    cases v <;> simp [Value.isNull] at h
    rfl
  rw [bound_of_node?_eq_none hn]
  simp [Bound.failed]

/-- A value is read as a name if it is one. -/
theorem Bound.ofName_fault_eq_none_iff {r : Except Fault Value} :
    (ofName r).fault = none ↔ ∃ x : Name, r = .ok x.toValue := by
  constructor
  · intro h
    cases r with
    | error fault => simp [ofName, bind, Except.bind] at h
    | ok v =>
      cases hv : v.name? with
      | none => simp [ofName, bind, Except.bind, Value.asName, hv] at h
      | some x => exact ⟨x, by rw [Value.name?_eq_some_iff.mp hv]⟩
  · rintro ⟨x, rfl⟩
    simp

/-- A field that has to hold a pattern is read as what it holds. -/
theorem boundField_fault_eq_none_iff {n : Node} {name : String} :
    (boundField n name).fault = none ↔ (bound (n.field name)).fault = none := by
  constructor
  · intro h
    rwa [boundField_of_fault_eq_none h] at h
  · intro h
    unfold boundField
    split
    · rename_i fault hr
      have hnull : (n.field name).isNull := by
        cases hl : n.fields.lookup name with
        | none => simp [Node.field, hl, Value.isNull]
        | some v => simp [Node.require, hl] at hr
      exact absurd h (bound_fault_ne_none_of_isNull hnull)
    · rename_i v hr
      rwa [Node.field_of_require hr] at h

theorem boundProperty_fault_eq_none_iff {p : Value} :
    (boundProperty p).fault = none ↔ ∃ q : Node, p = q.toValue ∧ (bound q.target).fault = none := by
  have hnode : ∀ q : Node,
      (boundProperty q.toValue).fault = none ↔ (bound q.target).fault = none := by
    intro q
    rw [boundProperty, Node.node?_toValue, Node.target]
    simp only
    split
    · exact Iff.rfl
    · exact boundField_fault_eq_none_iff
  cases hn : p.node? with
  | none =>
    simp only [boundProperty, hn, Bound.failed, reduceCtorEq, false_iff, not_exists, not_and]
    rintro q rfl
    simp at hn
  | some q =>
    obtain rfl := Value.node?_eq_some_iff.mp hn
    rw [hnode]
    refine ⟨fun h => ⟨q, rfl, h⟩, ?_⟩
    rintro ⟨r, hr, h⟩
    rwa [Node.toValue_injective hr]

theorem boundElement_fault_eq_none_iff {e : Value} :
    (boundElement e).fault = none ↔ (e.isNull = false → (bound e).fault = none) := by
  unfold boundElement
  split
  · rename_i h
    simp [h, Bound.empty]
  · rename_i h
    simp [h]

/-- One step of the grammar: a node is read without a fault if its parts are. -/
theorem bound_toValue_fault_eq_none_iff {n : Node} (hp : n.HoldsList "properties")
    (he : n.HoldsList "elements") (hparts : ∀ v, Part n v → ((bound v).fault = none ↔ BindingPattern v)) :
    (bound n.toValue).fault = none ↔ BindingPattern n.toValue := by
  rw [bound_toValue]
  constructor
  · intro h
    rw [boundAs.eq_def] at h
    split at h <;> rename_i hk
    · obtain ⟨x, hx⟩ := Bound.ofName_fault_eq_none_iff.mp h
      exact .identifier hk (Node.require_eq_ok_iff.mp hx)
    · obtain ⟨properties, hm, hlists⟩ := hp.exists_membersOf
      simp only [hm, Bound.concat_fault_eq_none_iff, List.forall_mem_map] at h
      have hproperty : ∀ p, n.Lists "properties" p →
          ∃ q : Node, p = q.toValue ∧ (bound q.target).fault = none :=
        fun p hp => boundProperty_fault_eq_none_iff.mp (h p ((hlists p).mpr hp))
      refine .object hk (fun p hp => ?_) fun q hq => ?_
      · obtain ⟨q, hq, -⟩ := hproperty p hp
        exact ⟨q, hq⟩
      · obtain ⟨r, hr, hbound⟩ := hproperty _ hq
        obtain rfl := Node.toValue_injective hr
        exact (hparts _ (Node.part_target hk hq)).mp hbound
    · obtain ⟨elements, hm, hlists⟩ := he.exists_membersOf
      simp only [hm, Bound.concat_fault_eq_none_iff, List.forall_mem_map] at h
      refine .array hk fun e hlisted hnull => ?_
      have hbound := boundElement_fault_eq_none_iff.mp (h e ((hlists e).mpr hlisted)) hnull
      obtain ⟨items, hf, hmem⟩ := hlisted
      exact (hparts e (.element hk hf hmem)).mp hbound
    · exact .rest hk ((hparts _ (.target hk)).mp (boundField_fault_eq_none_iff.mp h))
    · exact .defaulted hk ((hparts _ (.defaulted hk)).mp (boundField_fault_eq_none_iff.mp h))
    · simp [Bound.failed] at h
  · intro h
    generalize hv : n.toValue = v at h
    cases h with
    | identifier hk hx =>
      obtain rfl := Node.toValue_injective hv
      rw [hk, boundAs, Node.require_eq_ok_iff.mpr hx]
      simp
    | object hk hobjects ht =>
      obtain rfl := Node.toValue_injective hv
      obtain ⟨properties, hm, hlists⟩ := hp.exists_membersOf
      simp only [hk, boundAs, hm, Bound.concat_fault_eq_none_iff, List.forall_mem_map]
      intro p hmem
      have hlisted := (hlists p).mp hmem
      obtain ⟨q, rfl⟩ := hobjects p hlisted
      exact boundProperty_fault_eq_none_iff.mpr
        ⟨q, rfl, (hparts _ (Node.part_target hk hlisted)).mpr (ht q hlisted)⟩
    | array hk helements =>
      obtain rfl := Node.toValue_injective hv
      obtain ⟨elements, hm, hlists⟩ := he.exists_membersOf
      simp only [hk, boundAs, hm, Bound.concat_fault_eq_none_iff, List.forall_mem_map]
      intro e hmem
      have hlisted := (hlists e).mp hmem
      refine boundElement_fault_eq_none_iff.mpr fun hnull => ?_
      obtain ⟨items, hf, hin⟩ := hlisted
      exact (hparts e (.element hk hf hin)).mpr (helements e ⟨items, hf, hin⟩ hnull)
    | rest hk ht =>
      obtain rfl := Node.toValue_injective hv
      rw [hk, boundAs]
      exact boundField_fault_eq_none_iff.mpr ((hparts _ (.target hk)).mpr ht)
    | defaulted hk ht =>
      obtain rfl := Node.toValue_injective hv
      rw [hk, boundAs]
      exact boundField_fault_eq_none_iff.mpr ((hparts _ (.defaulted hk)).mpr ht)

/-- A pattern is read without a fault if and only if it is in the grammar. -/
theorem bound_fault_eq_none_iff {p : Value}
    (hlists : ∀ m ∈ p.nodes, m.HoldsList "properties" ∧ m.HoldsList "elements") :
    (bound p).fault = none ↔ BindingPattern p := by
  induction hs : p.size using Nat.strongRecOn generalizing p with
  | ind size ih =>
    cases hn : p.node? with
    | none =>
      rw [bound_of_node?_eq_none hn]
      simp only [Bound.failed, reduceCtorEq, false_iff]
      intro h
      obtain ⟨n, rfl⟩ := h.exists_eq_toValue
      simp at hn
    | some n =>
      obtain rfl := Value.node?_eq_some_iff.mp hn
      obtain ⟨hp, he⟩ := hlists n (Value.mem_nodes_toValue n)
      refine bound_toValue_fault_eq_none_iff hp he fun v hv => ?_
      cases hnull : v.isNull with
      | true =>
        -- A part that is missing is neither read nor in the grammar.
        refine ⟨fun h => absurd h (bound_fault_ne_none_of_isNull hnull), fun h => ?_⟩
        obtain ⟨m, rfl⟩ := h.exists_eq_toValue
        cases hnull
      | false =>
        have hsub : v.nodes ⊆ n.toValue.nodes := fun m hm => List.mem_cons_of_mem _ (hv.nodes_subset hm)
        exact ih v.size (hs ▸ hv.size_lt hnull) (fun m hm => hlists m (hsub hm)) rfl

end FreeNames
