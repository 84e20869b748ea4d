import FreeNames.Proofs.Labels
import FreeNames.Scope.Pattern

/-!
# What a pattern binds

A pattern hands its binding on to its parts until it comes to identifiers, its leaves. `Part` says
what the parts of a pattern are and `Leaf` which identifiers they lead to, without a word on order,
faults or tables. The result is that a pattern which is read without a fault binds exactly the names
of its leaves (`mem_names_bound_iff`).
-/

namespace FreeNames

/-- The node has a field `name` that holds a given name. -/
def Node.Named (n : Node) (x : Name) : Prop := n.fields.lookup "name" = some x.toValue

/-- The parts that a pattern hands its binding on to. Keys and defaults are none of them. -/
inductive Part : Node → Value → Prop where
  /-- The value of a property of an object pattern. -/
  | property {n q : Node} {properties : List Value} (hk : n.kind? = some .objectPattern)
      (hp : n.field "properties" = .array properties) (hq : q.toValue ∈ properties)
      (ht : (q.field "value").isTrue) : Part n (q.field "value")
  /-- The target of a property without a value. -/
  | restProperty {n q : Node} {properties : List Value} (hk : n.kind? = some .objectPattern)
      (hp : n.field "properties" = .array properties) (hq : q.toValue ∈ properties)
      (ht : (q.field "value").isTrue = false) : Part n (q.field "argument")
  /-- An element of an array pattern. -/
  | element {n : Node} {v : Value} {elements : List Value} (hk : n.kind? = some .arrayPattern)
      (he : n.field "elements" = .array elements) (hv : v ∈ elements) : Part n v
  /-- The target of a rest element. -/
  | target {n : Node} (hk : n.kind? = some .restElement) : Part n (n.field "argument")
  /-- The pattern in front of a default. -/
  | defaulted {n : Node} (hk : n.kind? = some .assignmentPattern) : Part n (n.field "left")

/-- `Leaf p m`: the identifier `m` is where the pattern `p` leads. -/
inductive Leaf : Value → Node → Prop where
  /-- An identifier is its own leaf. -/
  | identifier {n : Node} (hk : n.kind? = some .identifier) : Leaf n.toValue n
  /-- The leaves of a part are leaves of the pattern. -/
  | part {n m : Node} {v : Value} (hp : Part n v) (hm : Leaf v m) : Leaf n.toValue m

/-! ### Leaves lie inside their pattern -/

theorem Part.nodes_subset {n : Node} {v : Value} (h : Part n v) :
    v.nodes ⊆ Value.nodesOfFields n.fields := by
  have hitem : ∀ {name : String} {items : List Value} {w : Value}, n.field name = .array items →
      w ∈ items → w.nodes ⊆ Value.nodesOfFields n.fields := by
    intro name items w hf hw m hm
    have hin := Value.nodes_field_subset n name
    rw [hf] at hin
    exact hin (Value.nodes_subset_of_mem_array hw hm)
  cases h with
  | property _ hp hq _ =>
    exact fun m hm => hitem hp hq (List.mem_cons_of_mem _ (Value.nodes_field_subset _ _ hm))
  | restProperty _ hp hq _ =>
    exact fun m hm => hitem hp hq (List.mem_cons_of_mem _ (Value.nodes_field_subset _ _ hm))
  | element _ he hv => exact hitem he hv
  | target _ => exact Value.nodes_field_subset _ _
  | defaulted _ => exact Value.nodes_field_subset _ _

theorem Leaf.mem_nodes {p : Value} {m : Node} (h : Leaf p m) : m ∈ p.nodes := by
  induction h with
  | identifier _ => exact Value.mem_nodes_toValue _
  | part hp _ ih => exact List.mem_cons_of_mem _ (hp.nodes_subset ih)

theorem Leaf.kind?_eq {p : Value} {m : Node} (h : Leaf p m) : m.kind? = some .identifier := by
  induction h with
  | identifier hk => exact hk
  | part _ _ ih => exact ih

/-! ### Readings one after another -/

namespace Bound

@[simp] theorem concat_nil : concat [] = empty := rfl

@[simp] theorem concat_cons (b : Bound) (bs : List Bound) : concat (b :: bs) = b ++ concat bs := rfl

theorem append_of_fault_eq_none {a : Bound} (b : Bound) (h : a.fault = none) :
    a ++ b = { b with names := a.names ++ b.names } := by
  show append a b = _
  rw [append, h]

theorem append_of_fault_eq_some {a : Bound} {fault : Fault} (b : Bound) (h : a.fault = some fault) :
    a ++ b = a := by
  show append a b = _
  rw [append, h]

theorem concat_fault_eq_none_iff {bs : List Bound} :
    (concat bs).fault = none ↔ ∀ b ∈ bs, b.fault = none := by
  induction bs with
  | nil => simp [empty]
  | cons b bs ih =>
    rw [concat_cons, List.forall_mem_cons]
    cases hb : b.fault with
    | none => rw [append_of_fault_eq_none _ hb, ← ih]; simp
    | some fault => rw [append_of_fault_eq_some _ hb]; simp [hb]

/-- Nothing is bound that is not bound by one of the readings. -/
theorem mem_of_mem_names_concat {bs : List Bound} {x : Name} (h : x ∈ (concat bs).names) :
    ∃ b ∈ bs, x ∈ b.names := by
  induction bs with
  | nil => simp [empty] at h
  | cons b bs ih =>
    rw [concat_cons] at h
    cases hb : b.fault with
    | some fault =>
      rw [append_of_fault_eq_some _ hb] at h
      exact ⟨b, List.mem_cons_self, h⟩
    | none =>
      rw [append_of_fault_eq_none _ hb] at h
      rcases List.mem_append.mp h with h | h
      · exact ⟨b, List.mem_cons_self, h⟩
      · obtain ⟨c, hc, hx⟩ := ih h
        exact ⟨c, List.mem_cons_of_mem _ hc, hx⟩

/-- Readings without a fault bind what each of them binds. -/
theorem names_concat {bs : List Bound} (h : ∀ b ∈ bs, b.fault = none) :
    (concat bs).names = bs.flatMap names := by
  induction bs with
  | nil => rfl
  | cons b bs ih =>
    obtain ⟨hb, hbs⟩ := List.forall_mem_cons.mp h
    rw [concat_cons, append_of_fault_eq_none _ hb, List.flatMap_cons, ih hbs]

end Bound

/-! ### Reading fields -/

namespace Node

variable {n : Node} {name : String} {v : Value}

theorem field_of_require (h : n.require name = .ok v) : n.field name = v := by
  unfold require at h
  unfold field
  split at h
  · rename_i w hw
    cases h
    rw [hw, Option.getD_some]
  · cases h

theorem require_eq_ok_iff : n.require name = .ok v ↔ n.fields.lookup name = some v := by
  unfold require
  split
  · rename_i w hw
    rw [hw, Except.ok.injEq, Option.some.injEq]
  · rename_i hn
    simp [hn]

theorem membersOf_of_field_eq_array {items : List Value} (h : n.field name = .array items) :
    n.membersOf name = .ok items := by
  unfold field at h
  unfold membersOf
  cases hl : n.fields.lookup name with
  | none => rw [hl] at h; cases h
  | some w => rw [hl, Option.getD_some] at h; rw [h]; rfl

/-- Members that hold an object are the items of an array: all other members are names. -/
theorem field_eq_array_of_membersOf {l : List Value} (h : n.membersOf name = .ok l) {m : Node}
    (hm : m.toValue ∈ l) : n.field name = .array l := by
  unfold membersOf at h
  unfold field
  split at h
  · rename_i w hw
    rw [hw, Option.getD_some]
    unfold Value.members at h
    split at h <;> cases h
    · rfl
    · obtain ⟨p, -, hp⟩ := List.mem_map.mp hm
      cases hp
    · obtain ⟨x, -, hx⟩ := List.mem_map.mp hm
      cases x <;> cases hx
    · obtain ⟨f, -, hf⟩ := List.mem_map.mp hm
      cases hf
  · cases h
    simp at hm

end Node

theorem Leaf.exists_eq_toValue {p : Value} {m : Node} (h : Leaf p m) : ∃ n : Node, p = n.toValue := by
  cases h with
  | @identifier n _ => exact ⟨_, rfl⟩
  | @part n _ _ _ _ => exact ⟨n, rfl⟩

/-! ### The reading of a pattern, kind by kind -/

/-- What a field that has to hold a pattern binds. -/
def boundField (n : Node) (name : String) : Bound :=
  match n.require name with
  | .error fault => .failed fault
  | .ok target => bound target

/-- What one property of an object pattern binds. -/
def boundProperty (p : Value) : Bound :=
  match p.node? with
  | none => .failed .notAnObject
  | some q => if (q.field "value").isTrue then bound (q.field "value") else boundField q "argument"

/-- What one element of an array pattern binds. -/
def boundElement (e : Value) : Bound := if e.isNull then .empty else bound e

theorem bound_of_node?_eq_none {v : Value} (h : v.node? = none) : bound v = .failed .notAnObject := by
  rw [bound]
  split
  · rfl
  · rename_i n hn; rw [h] at hn; cases hn

/-- What a node binds that is read as a pattern of a kind. -/
def boundAs (n : Node) : Option Kind → Bound
  | some .identifier => .ofName (n.require "name")
  | some .objectPattern =>
    match n.membersOf "properties" with
    | .error fault => .failed fault
    | .ok properties => .concat (properties.map boundProperty)
  | some .arrayPattern =>
    match n.membersOf "elements" with
    | .error fault => .failed fault
    | .ok elements => .concat (elements.map boundElement)
  | some .restElement => boundField n "argument"
  | some .assignmentPattern => boundField n "left"
  | _ => .failed (n.breach (.unrecognizedPattern n.type))

/-- The reading of a pattern, without the bookkeeping that shows it to end. -/
theorem bound_toValue (n : Node) : bound n.toValue = boundAs n n.kind? := by
  rw [bound]
  split
  · rename_i hn; simp at hn
  · rename_i m hm
    rw [Node.node?_toValue] at hm
    cases hm
    split
    · rename_i hk; rw [hk, boundAs]
    · rename_i hk
      rw [hk, boundAs]
      split
      · rename_i hm; simp only [hm]
      · rename_i properties hm
        simp only [hm, List.map_attach_eq_pmap, List.pmap_eq_map]
        refine congrArg Bound.concat (List.map_congr_left fun p _ => ?_)
        unfold boundProperty
        split
        · rename_i hq; simp only [hq]
        · rename_i q hq
          simp only [hq]
          unfold boundField
          split
          · rfl
          · split <;> rename_i hr <;> simp only [hr]
    · rename_i hk
      rw [hk, boundAs]
      split
      · rename_i hm; simp only [hm]
      · rename_i elements hm
        simp only [hm, List.map_attach_eq_pmap, List.pmap_eq_map]
        rfl
    · rename_i hk
      rw [hk, boundAs, boundField]
      split <;> rename_i hr <;> simp only [hr]
    · rename_i hk
      rw [hk, boundAs, boundField]
      split <;> rename_i hr <;> simp only [hr]
    · unfold boundAs
      split <;> simp_all

/-! ### The names of a pattern -/

@[simp] theorem Bound.ofName_toValue (x : Name) :
    ofName (.ok x.toValue) = { names := [x], fault := none } := by
  simp [ofName, bind, Except.bind, Value.asName]

/-- The name that is read from a value is that value. -/
theorem Bound.mem_names_ofName_iff {r : Except Fault Value} {x : Name} :
    x ∈ (ofName r).names ↔ r = .ok x.toValue := by
  constructor
  · intro h
    unfold ofName at h
    cases r with
    | error fault => simp [bind, Except.bind] at h
    | ok v =>
      cases hv : v.name? with
      | none => simp [bind, Except.bind, Value.asName, hv] at h
      | some y =>
        obtain rfl := Value.name?_eq_some_iff.mp hv
        simp only [bind, Except.bind, Value.asName, hv, List.mem_singleton] at h
        rw [h]
  · rintro rfl
    simp

theorem mem_names_boundField {n : Node} {name : String} {x : Name}
    (h : x ∈ (boundField n name).names) :
    (n.field name).size < n.toValue.size ∧ x ∈ (bound (n.field name)).names := by
  unfold boundField at h
  split at h
  · simp [Bound.failed] at h
  · rename_i target hr
    rw [Node.field_of_require hr]
    exact ⟨Node.size_lt_of_require hr, h⟩

theorem mem_names_boundProperty {p : Value} {x : Name} (h : x ∈ (boundProperty p).names) :
    ∃ q : Node, p = q.toValue ∧
      ((q.field "value").isTrue ∧ x ∈ (bound (q.field "value")).names ∨
        (q.field "value").isTrue = false ∧ x ∈ (boundField q "argument").names) := by
  unfold boundProperty at h
  split at h
  · simp [Bound.failed] at h
  · rename_i q hq
    refine ⟨q, Value.node?_eq_some_iff.mp hq, ?_⟩
    by_cases ht : (q.field "value").isTrue
    · rw [if_pos ht] at h
      exact .inl ⟨ht, h⟩
    · rw [if_neg ht] at h
      exact .inr ⟨by simpa using ht, h⟩

/-- A name that a pattern binds is the pattern's own, or one that a smaller part of it binds. -/
theorem mem_names_bound_cases {n : Node} {x : Name} (h : x ∈ (bound n.toValue).names) :
    (n.kind? = some .identifier ∧ n.Named x) ∨
      ∃ v, Part n v ∧ v.size < n.toValue.size ∧ x ∈ (bound v).names := by
  rw [bound_toValue, boundAs.eq_def] at h
  split at h
  · rename_i hk
    exact .inl ⟨hk, Node.require_eq_ok_iff.mp (Bound.mem_names_ofName_iff.mp h)⟩
  · rename_i hk
    right
    split at h
    · simp [Bound.failed] at h
    · rename_i properties hm
      obtain ⟨b, hb, hx⟩ := Bound.mem_of_mem_names_concat h
      obtain ⟨p, hp, rfl⟩ := List.mem_map.mp hb
      obtain ⟨q, rfl, hq⟩ := mem_names_boundProperty hx
      have hf := Node.field_eq_array_of_membersOf hm hp
      have hlt := Node.size_lt_of_mem_membersOf hm hp
      rcases hq with ⟨ht, hx⟩ | ⟨ht, hx⟩
      · exact ⟨_, .property hk hf hp ht, Nat.lt_trans (Node.size_lt_of_isTrue ht) hlt, hx⟩
      · obtain ⟨hsize, hx⟩ := mem_names_boundField hx
        exact ⟨_, .restProperty hk hf hp ht, Nat.lt_trans hsize hlt, hx⟩
  · rename_i hk
    right
    split at h
    · simp [Bound.failed] at h
    · rename_i elements hm
      obtain ⟨b, hb, hx⟩ := Bound.mem_of_mem_names_concat h
      obtain ⟨e, he, rfl⟩ := List.mem_map.mp hb
      unfold boundElement at hx
      split at hx
      · simp [Bound.empty] at hx
      · have hlt := Node.size_lt_of_mem_membersOf hm he
        cases hn : e.node? with
        | none => rw [bound_of_node?_eq_none hn] at hx; simp [Bound.failed] at hx
        | some q =>
          obtain rfl := Value.node?_eq_some_iff.mp hn
          exact ⟨_, .element hk (Node.field_eq_array_of_membersOf hm he) he, hlt, hx⟩
  · rename_i hk
    obtain ⟨hsize, hx⟩ := mem_names_boundField h
    exact .inr ⟨_, .target hk, hsize, hx⟩
  · rename_i hk
    obtain ⟨hsize, hx⟩ := mem_names_boundField h
    exact .inr ⟨_, .defaulted hk, hsize, hx⟩
  · simp [Bound.failed] at h

/-- Whatever a pattern binds, up to a fault or not, is the name of a leaf. -/
theorem exists_leaf_of_mem_names_bound {x : Name} :
    ∀ {p : Value}, x ∈ (bound p).names → ∃ m, Leaf p m ∧ m.Named x := by
  intro p
  induction hs : p.size using Nat.strongRecOn generalizing p with
  | ind size ih =>
    intro h
    cases hn : p.node? with
    | none => rw [bound_of_node?_eq_none hn] at h; simp [Bound.failed] at h
    | some n =>
      obtain rfl := Value.node?_eq_some_iff.mp hn
      rcases mem_names_bound_cases h with ⟨hk, hx⟩ | ⟨v, hp, hlt, hx⟩
      · exact ⟨n, .identifier hk, hx⟩
      · obtain ⟨m, hm, hx⟩ := ih v.size (hs ▸ hlt) rfl hx
        exact ⟨m, .part hp hm, hx⟩

theorem boundField_of_fault_eq_none {n : Node} {name : String} (h : (boundField n name).fault = none) :
    boundField n name = bound (n.field name) := by
  unfold boundField at h ⊢
  split at h
  · simp [Bound.failed] at h
  · rename_i target hr
    rw [Node.field_of_require hr]

/-- A pattern without a fault has none in its parts, and binds what they bind. -/
theorem bound_part {n : Node} {v : Value} (hf : (bound n.toValue).fault = none) (hp : Part n v)
    (hv : v.isNull = false) :
    (bound v).fault = none ∧ (bound v).names ⊆ (bound n.toValue).names := by
  -- In a reading of several parts, each part is without a fault and its names count.
  have hconcat : ∀ {bs : List Bound} {b : Bound}, (Bound.concat bs).fault = none → b ∈ bs →
      b.fault = none ∧ b.names ⊆ (Bound.concat bs).names := by
    intro bs b hf hb
    have hall := Bound.concat_fault_eq_none_iff.mp hf
    refine ⟨hall b hb, fun x hx => ?_⟩
    rw [Bound.names_concat hall]
    exact List.mem_flatMap.mpr ⟨b, hb, hx⟩
  rw [bound_toValue] at hf ⊢
  cases hp with
  | @property q properties hk hp hq ht =>
    simp only [hk, boundAs, Node.membersOf_of_field_eq_array hp] at hf ⊢
    have h := hconcat hf (List.mem_map_of_mem (f := boundProperty) hq)
    simpa [boundProperty, ht] using h
  | @restProperty q properties hk hp hq ht =>
    simp only [hk, boundAs, Node.membersOf_of_field_eq_array hp] at hf ⊢
    have h := hconcat hf (List.mem_map_of_mem (f := boundProperty) hq)
    have hq : boundProperty q.toValue = boundField q "argument" := by simp [boundProperty, ht]
    rw [hq] at h
    rwa [boundField_of_fault_eq_none h.1] at h
  | element hk he hmem =>
    simp only [hk, boundAs, Node.membersOf_of_field_eq_array he] at hf ⊢
    have h := hconcat hf (List.mem_map_of_mem (f := boundElement) hmem)
    simpa [boundElement, hv] using h
  | target hk =>
    simp only [hk, boundAs] at hf ⊢
    have hb := boundField_of_fault_eq_none hf
    rw [hb] at hf ⊢
    exact ⟨hf, fun _ hx => hx⟩
  | defaulted hk =>
    simp only [hk, boundAs] at hf ⊢
    have hb := boundField_of_fault_eq_none hf
    rw [hb] at hf ⊢
    exact ⟨hf, fun _ hx => hx⟩

theorem mem_names_bound_of_leaf {p : Value} {m : Node} (h : Leaf p m) {x : Name} (hx : m.Named x) :
    (bound p).fault = none → x ∈ (bound p).names := by
  induction h with
  | identifier hk =>
    intro _
    rw [bound_toValue, hk, boundAs, Node.require_eq_ok_iff.mpr hx]
    simp
  | part hp hm ih =>
    intro hf
    obtain ⟨q, rfl⟩ := hm.exists_eq_toValue
    obtain ⟨hfault, hsub⟩ := bound_part hf hp rfl
    exact hsub (ih hx hfault)

/-- A pattern that is read without a fault binds the names of its leaves, and no other names. -/
theorem mem_names_bound_iff {p : Value} (hf : (bound p).fault = none) {x : Name} :
    x ∈ (bound p).names ↔ ∃ m, Leaf p m ∧ m.Named x := by
  constructor
  · exact exists_leaf_of_mem_names_bound
  · rintro ⟨m, hm, hx⟩
    exact mem_names_bound_of_leaf hm hx hf

end FreeNames
