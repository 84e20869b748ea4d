import FreeNames.Proofs.Declaration
import FreeNames.Proofs.NodeKind
import FreeNames.Proofs.Renaming
import Mathlib.Data.List.Forall2

/-!
# Corresponding trees

A `Correspondence` says which values of two trees belong together, which labels do, and how names are
renamed on the way. It is faithful if values that belong together look alike to the analysis as far as it
reads them: they are the same, or arrays of items that belong together, or objects whose fields do. What the
analysis does not read may differ.

The steps of an analysis are then shown to keep a correspondence, one after the other: reading a node,
reading a pattern, walking a tree, and writing down what its declarations ask for.
-/

namespace FreeNames

/-- A value that is neither an array nor an object. -/
def Value.isAtom : Value → Bool
  | array _ | object .. => false
  | _ => true

/-- The fault is reported with a place. -/
def Fault.isBreach : Fault → Bool
  | breach .. => true
  | _ => false

/-- The values that a breach quotes. -/
def Breach.quoted : Breach → List Value
  | unrecognizedNode kind | unrecognizedPattern kind | noEnclosingScope kind => [kind]
  | stated _ => []

/-- The breach with the values that it quotes changed. -/
def Breach.map (change : Value → Value) : Breach → Breach
  | unrecognizedNode kind => unrecognizedNode (change kind)
  | unrecognizedPattern kind => unrecognizedPattern (change kind)
  | noEnclosingScope kind => noEnclosingScope (change kind)
  | stated message => stated message

/-- The position with both parts changed. -/
def Position.map (change : Value → Value) (p : Position) : Position := ⟨change p.line, change p.column⟩

/-- The values that a fault quotes: kinds, lines and columns as the tree has them. -/
def Fault.quoted : Fault → List Value
  | breach cause position => cause.quoted ++ position.toList.flatMap fun p => [p.line, p.column]
  | _ => []

/-- The fault with the values that it quotes changed. -/
def Fault.map (change : Value → Value) : Fault → Fault
  | breach cause position => breach (cause.map change) (position.map (Position.map change))
  | fault => fault

/-- The fields that the analysis reads of a node, apart from its `name`, its parameters and what it enters. -/
def readFields : List String :=
  ["type", "computed", "kind", "id", "declarations", "handler", "param", "local", "properties", "elements",
    "value", "argument", "left", "loc", "start", "line", "column"]

/-- Which values and labels of two trees belong together, and how names are renamed. -/
structure Correspondence where
  names : Renaming
  labels : Nat → Nat → Prop
  values : Value → Value → Prop

namespace Correspondence

variable (C : Correspondence)

/-- The nodes belong together. -/
def nodes (n n' : Node) : Prop := C.values n.toValue n'.toValue

/-- A value in the place of a name is renamed. -/
def nameValues (v w : Value) : Prop := w.name? = v.name?.map (Name.rename C.names)

/-- The analysis reads the same of both nodes. -/
structure Reads (n n' : Node) : Prop where
  label : C.labels n.label n'.label
  isEmpty : n'.fields.isEmpty = n.fields.isEmpty
  name : Option.Rel C.nameValues (n.fields.lookup "name") (n'.fields.lookup "name")
  field : ∀ name ∈ readFields, Option.Rel C.values (n.fields.lookup name) (n'.fields.lookup name)

/-- The values look alike from outside. -/
inductive Shape : Value → Value → Prop where
  | atom {v : Value} (h : v.isAtom) : Shape v v
  | array {items items' : List Value} (h : List.Forall₂ C.values items items') :
      Shape (.array items) (.array items')
  | node {n n' : Node} (h : C.Reads n n') : Shape n.toValue n'.toValue

/-- What belongs together looks alike. -/
structure Faithful : Prop where
  null : C.values .null .null
  shape : ∀ {v w : Value}, C.values v w → C.Shape v w
  unique : ∀ {a b a' b' : Nat}, C.labels a b → C.labels a' b' → (a = a' ↔ b = b')

/-- The values that a fault quotes belong together. -/
inductive Breaches : Breach → Breach → Prop where
  | unrecognizedNode {v w : Value} (h : C.values v w) : Breaches (.unrecognizedNode v) (.unrecognizedNode w)
  | unrecognizedPattern {v w : Value} (h : C.values v w) :
      Breaches (.unrecognizedPattern v) (.unrecognizedPattern w)
  | noEnclosingScope {v w : Value} (h : C.values v w) : Breaches (.noEnclosingScope v) (.noEnclosingScope w)

/-- The parts of two positions belong together. -/
structure Positions (p p' : Position) : Prop where
  line : C.values p.line p'.line
  column : C.values p.column p'.column

/-- The same fault, up to the values that it quotes. -/
inductive Faults : Fault → Fault → Prop where
  | breach {cause cause' : Breach} {p p' : Position} (hc : C.Breaches cause cause') (hp : C.Positions p p') :
      Faults (.breach cause (some p)) (.breach cause' (some p'))
  | same {fault : Fault} (h : fault.isBreach = false) : Faults fault fault

/-- Both results are faults, the same up to what they quote, or both are there and related. -/
inductive Results {α β : Type} (R : α → β → Prop) : Except Fault α → Except Fault β → Prop where
  | ok {a : α} {b : β} (h : R a b) : Results R (.ok a) (.ok b)
  | error {fault fault' : Fault} (h : C.Faults fault fault') : Results R (.error fault) (.error fault')

/-- The items belong together, up to one that is no object and not null: nothing is read behind it. -/
inductive Lists : List Value → List Value → Prop where
  | nil : Lists [] []
  | cons {v w : Value} {l l' : List Value} (h : C.values v w) (hl : Lists l l') : Lists (v :: l) (w :: l')
  | bar {v w : Value} {l l' : List Value} (hv : v.node? = none ∧ v.isNull = false)
      (hw : w.node? = none ∧ w.isNull = false) : Lists (v :: l) (w :: l')

variable {C}

/-- Corresponding faults are the same after a change that makes corresponding values the same. -/
theorem Faults.map_eq {fault fault' : Fault} (h : C.Faults fault fault') {change change' : Value → Value}
    (hchange : ∀ v w, C.values v w → change' w = change v) : fault'.map change' = fault.map change := by
  cases h with
  | breach hc hp =>
    have hpos : Position.map change' _ = Position.map change _ :=
      congrArg₂ Position.mk (hchange _ _ hp.line) (hchange _ _ hp.column)
    cases hc with
    | _ h => simp only [Fault.map, Breach.map, Option.map_some, hpos, hchange _ _ h]
  | same h =>
    cases fault with
    | breach => cases h
    | _ => rfl

/-- Corresponding faults are the same if the values that they quote are. -/
theorem Faults.eq {fault fault' : Fault} (h : C.Faults fault fault')
    (hquoted : ∀ v ∈ fault.quoted, ∀ w, C.values v w → w = v) : fault' = fault := by
  cases h with
  | @breach cause cause' p p' hc hp =>
    have hpos : p' = p := by
      have hline := hquoted p.line (by simp [Fault.quoted]) _ hp.line
      have hcolumn := hquoted p.column (by simp [Fault.quoted]) _ hp.column
      cases p
      cases p'
      cases hline
      cases hcolumn
      rfl
    subst hpos
    cases hc with
    | _ h => rw [hquoted _ (by simp [Fault.quoted, Breach.quoted]) _ h]
  | same => rfl

theorem Results.bind {α β γ δ : Type} {R : α → β → Prop} {S : γ → δ → Prop} {a : Except Fault α}
    {b : Except Fault β} {f : α → Except Fault γ} {g : β → Except Fault δ} (h : C.Results R a b)
    (hfg : ∀ a b, R a b → C.Results S (f a) (g b)) : C.Results S (a >>= f) (b >>= g) := by
  cases h with
  | ok h => exact hfg _ _ h
  | error h => exact .error h

/-- Without a renaming, what belongs together is renamed if it is the same name or none. -/
theorem rel_nameValues (hnames : C.names = .identity)
    (hvalues : ∀ v w, C.values v w → w.name? = v.name?) {o o' : Option Value} (h : Option.Rel C.values o o') :
    Option.Rel C.nameValues o o' := by
  cases h with
  | none => exact .none
  | @some v w h =>
    refine .some ?_
    rw [nameValues, hvalues v w h, hnames]
    cases v.name? with
    | none => rfl
    | some x => exact congrArg some x.rename_identity.symm

/-! ### Reading a value -/

namespace Faithful

variable (hC : C.Faithful) {v w : Value} {n n' : Node}
include hC

theorem reads (h : C.nodes n n') : C.Reads n n' := by
  obtain ⟨l, fs⟩ := n
  obtain ⟨l', fs'⟩ := n'
  cases hC.shape h with
  | atom ha => cases ha
  | node hr => exact hr

theorem isNull (h : C.values v w) : w.isNull = v.isNull := by
  cases hC.shape h <;> rfl

theorem isText (h : C.values v w) (s : String) : w.isText s = v.isText s := by
  cases hC.shape h <;> rfl

theorem name? (h : C.values v w) : w.name? = v.name? := by
  cases hC.shape h <;> rfl

theorem isTrue (h : C.values v w) : w.isTrue = v.isTrue := by
  cases hC.shape h with
  | atom => rfl
  | array hi => cases hi <;> rfl
  | node hr => exact congrArg not hr.isEmpty

theorem node? (h : C.values v w) : Option.Rel C.nodes v.node? w.node? := by
  cases hC.shape h with
  | atom ha => cases v <;> first | exact .none | cases ha
  | array => exact .none
  | node => exact .some h

/-- A value that is no node belongs to one that is none. -/
theorem node?_eq_none (h : C.values v w) (hv : v.node? = none) : w.node? = none := by
  have hnode := hC.node? h
  rw [hv] at hnode
  generalize w.node? = o at hnode ⊢
  cases hnode
  rfl

/-- A node belongs to a node. -/
theorem exists_node (h : C.values n.toValue w) : ∃ n', w = n'.toValue ∧ C.nodes n n' := by
  have := hC.node? h
  rw [Node.node?_toValue] at this
  generalize hw : w.node? = o at this
  cases this with
  | some hn => exact ⟨_, Value.node?_eq_some_iff.mp hw, hn⟩

theorem field_of_rel {name : String} (h : Option.Rel C.values (n.fields.lookup name) (n'.fields.lookup name)) :
    C.values (n.field name) (n'.field name) := by
  unfold Node.field
  generalize n.fields.lookup name = o, n'.fields.lookup name = o' at h
  cases h with
  | some h => exact h
  | none => exact hC.null

theorem field (h : C.nodes n n') (name : String) (hname : name ∈ readFields) :
    C.values (n.field name) (n'.field name) := hC.field_of_rel ((hC.reads h).field name hname)

theorem type (h : C.nodes n n') : C.values n.type n'.type := hC.field h "type" (by decide)

theorem kind? (h : C.nodes n n') : n'.kind? = n.kind? := by
  have hshape := hC.shape (hC.type h)
  unfold Node.kind?
  generalize n.type = v, n'.type = w at hshape ⊢
  cases hshape <;> rfl

theorem hasKind (h : C.nodes n n') (test : Kind → Bool) : n'.hasKind test = n.hasKind test := by
  rw [Node.hasKind, Node.hasKind, hC.kind? h]

theorem require (h : C.nodes n n') (name : String) (hname : name ∈ readFields) :
    C.Results C.values (n.require name) (n'.require name) := by
  have := (hC.reads h).field name hname
  unfold Node.require
  generalize n.fields.lookup name = o, n'.fields.lookup name = o' at this
  cases this with
  | some h => exact .ok h
  | none => exact .error (.same rfl)

theorem require_name (h : C.nodes n n') : C.Results C.nameValues (n.require "name") (n'.require "name") := by
  have := (hC.reads h).name
  unfold Node.require
  generalize n.fields.lookup "name" = o, n'.fields.lookup "name" = o' at this
  cases this with
  | some h => exact .ok h
  | none => exact .error (.same rfl)

theorem member_name (h : C.values v w) : C.Results C.nameValues (v.member "name") (w.member "name") := by
  have := hC.node? h
  unfold Value.member
  generalize v.node? = o, w.node? = o' at this
  cases this with
  | some h => exact hC.require_name h
  | none => exact .error (.same rfl)

theorem position (h : C.nodes n n') : C.Results C.Positions n.position n'.position := by
  have hnull : C.Positions ⟨.null, .null⟩ ⟨.null, .null⟩ := ⟨hC.null, hC.null⟩
  have hloc := hC.field h "loc" (by decide)
  unfold Node.position
  simp only [hC.isTrue hloc]
  split
  · exact .ok hnull
  · have hnode := hC.node? hloc
    generalize (n.field "loc").node? = o, (n'.field "loc").node? = o' at hnode
    cases hnode with
    | none => exact .error (.same rfl)
    | some hnode =>
      have hstart := hC.field hnode "start" (by decide)
      simp only [hC.isTrue hstart]
      split
      · exact .ok hnull
      · have hnode := hC.node? hstart
        generalize hv : Value.node? _ = o at hnode ⊢
        generalize hw : Value.node? _ = o' at hnode ⊢
        cases hnode with
        | none => exact .error (.same rfl)
        | some hnode => exact .ok ⟨hC.field hnode "line" (by decide), hC.field hnode "column" (by decide)⟩

theorem breach (h : C.nodes n n') {cause cause' : Breach} (hc : C.Breaches cause cause') :
    C.Faults (n.breach cause) (n'.breach cause') := by
  have hp := hC.position h
  unfold Node.breach
  generalize n.position = r, n'.position = r' at hp
  cases hp with
  | ok hp => exact .breach hc hp
  | error hf => exact hf

theorem enteredKind (h : C.nodes n n') : C.Results Eq n.enteredKind n'.enteredKind := by
  have htype := hC.type h
  unfold Node.enteredKind
  rw [hC.name? htype, hC.kind? h]
  cases n.type.name? with
  | none => exact .error (.same rfl)
  | some x =>
    cases n.kind? with
    | none => exact .error (hC.breach h (.unrecognizedNode htype))
    | some k => exact .ok rfl

omit hC in
theorem lists_of_forall₂ {l l' : List Value} (h : List.Forall₂ C.values l l') : C.Lists l l' := by
  induction h with
  | nil => exact .nil
  | cons h _ ih => exact .cons h ih

/-- Names in a list belong to themselves as far as they are read. -/
theorem lists_map_toValue (l : List Name) : C.Lists (l.map Name.toValue) (l.map Name.toValue) := by
  induction l with
  | nil => exact .nil
  | cons x l ih =>
    cases x with
    | null => exact .cons hC.null ih
    | _ => exact .bar ⟨rfl, rfl⟩ ⟨rfl, rfl⟩

theorem members (h : C.values v w) : C.Results C.Lists v.members w.members := by
  cases hC.shape h with
  | atom ha =>
    cases v with
    | text t =>
      obtain ⟨points⟩ := t
      cases points with
      | nil => exact .ok .nil
      | cons => exact .ok (.bar ⟨rfl, rfl⟩ ⟨rfl, rfl⟩)
    | names set => exact .ok (hC.lists_map_toValue set.toList)
    | array => cases ha
    | object => cases ha
    | _ => exact .error (.same rfl)
  | array hi => exact .ok (lists_of_forall₂ hi)
  | @node n n' hr =>
    have hempty := hr.isEmpty
    obtain ⟨l, fs⟩ := n
    obtain ⟨l', fs'⟩ := n'
    cases fs <;> cases fs'
    · exact .ok .nil
    · cases hempty
    · cases hempty
    · exact .ok (.bar ⟨rfl, rfl⟩ ⟨rfl, rfl⟩)

theorem membersOf {name : String} (h : Option.Rel C.values (n.fields.lookup name) (n'.fields.lookup name)) :
    C.Results C.Lists (n.membersOf name) (n'.membersOf name) := by
  unfold Node.membersOf
  generalize n.fields.lookup name = o, n'.fields.lookup name = o' at h
  cases h with
  | some h => exact hC.members h
  | none => exact .ok .nil

omit hC in
theorem asName (h : C.nameValues v w) :
    C.Results (fun x y => y = x.rename C.names) v.asName w.asName := by
  unfold nameValues at h
  unfold Value.asName
  rw [h]
  cases v.name? with
  | none => exact .error (.same rfl)
  | some x => exact .ok rfl

end Faithful

/-! ### Reading a pattern -/

/-- The same was read from two patterns, with the names renamed. -/
structure Bounds (C : Correspondence) (b b' : Bound) : Prop where
  names : b'.names = b.names.map (Name.rename C.names)
  fault : Option.Rel C.Faults b.fault b'.fault
  atName : b'.atName = b.atName

namespace Bounds

theorem empty : C.Bounds .empty .empty := ⟨rfl, .none, rfl⟩

theorem failed {fault fault' : Fault} (h : C.Faults fault fault') :
    C.Bounds (.failed fault) (.failed fault') := ⟨rfl, .some h, rfl⟩

theorem ofName {r r' : Except Fault Value} (h : C.Results C.nameValues r r') :
    C.Bounds (.ofName r) (.ofName r') := by
  have hname := h.bind fun v w hvw => Faithful.asName hvw
  unfold Bound.ofName
  generalize r >>= Value.asName = a, r' >>= Value.asName = b at hname
  cases hname with
  | ok h => exact ⟨by rw [h]; rfl, .none, rfl⟩
  | error h => exact ⟨rfl, .some h, rfl⟩

theorem append {a a' b b' : Bound} (ha : C.Bounds a a') (hb : C.Bounds b b') :
    C.Bounds (a ++ b) (a' ++ b') := by
  have hfault := ha.fault
  cases hf : a.fault with
  | none =>
    rw [hf] at hfault
    generalize hf' : a'.fault = o at hfault
    cases hfault
    rw [Bound.append_of_fault_eq_none b hf, Bound.append_of_fault_eq_none b' hf']
    exact ⟨by rw [List.map_append, ha.names, hb.names], hb.fault, hb.atName⟩
  | some fault =>
    rw [hf] at hfault
    generalize hf' : a'.fault = o at hfault
    cases hfault
    rw [Bound.append_of_fault_eq_some b hf, Bound.append_of_fault_eq_some b' hf']
    exact ha

/-- Readings of lists are the same if those of the items are, and fail where the items are no longer
compared. -/
theorem concat_map {l l' : List Value} (hl : C.Lists l l') {read : Value → Bound}
    (hread : ∀ v ∈ l, ∀ w, C.values v w → C.Bounds (read v) (read w))
    (hbar : ∀ v : Value, v.node? = none ∧ v.isNull = false → read v = .failed .notAnObject) :
    C.Bounds (.concat (l.map read)) (.concat (l'.map read)) := by
  induction hl with
  | nil => exact empty
  | cons h _ ih =>
    obtain ⟨hhead, hrest⟩ := List.forall_mem_cons.mp hread
    exact (hhead _ h).append (ih hrest)
  | bar hv hw =>
    rw [List.map_cons, List.map_cons, Bound.concat_cons, Bound.concat_cons, hbar _ hv, hbar _ hw]
    exact failed (.same rfl)

end Bounds

namespace Faithful

variable (hC : C.Faithful)
include hC

section

variable {n n' : Node}
  (ih : ∀ v w, v.size < n.toValue.size → C.values v w → C.Bounds (bound v) (bound w))
include ih

theorem boundField (h : C.nodes n n') {name : String} (hname : name ∈ readFields) :
    C.Bounds (boundField n name) (FreeNames.boundField n' name) := by
  have hr := hC.require h name hname
  unfold FreeNames.boundField
  generalize hv : n.require name = r at hr
  generalize n'.require name = r' at hr
  cases hr with
  | ok hvw => exact ih _ _ (Node.size_lt_of_require hv) hvw
  | error hf => exact .failed hf

theorem boundProperty_of_mem {l : List Value} (hm : n.membersOf "properties" = .ok l) {v w : Value}
    (hv : v ∈ l) (hvw : C.values v w) : C.Bounds (boundProperty v) (boundProperty w) := by
  have hsize := Node.size_lt_of_mem_membersOf hm hv
  have hnode := hC.node? hvw
  unfold boundProperty
  generalize hq : v.node? = o at hnode
  generalize w.node? = o' at hnode
  cases hnode with
  | none => exact .failed (.same rfl)
  | @some q q' hqq =>
    rw [Value.node?_eq_some_iff.mp hq] at hsize
    have hvalue := hC.field hqq "value" (by decide)
    simp only [hC.isTrue hvalue]
    split
    · rename_i ht
      exact ih _ _ (Nat.lt_trans (Node.size_lt_of_isTrue ht) hsize) hvalue
    · exact hC.boundField (fun a b hab => ih a b (Nat.lt_trans hab hsize)) hqq (by decide)

theorem boundElement_of_mem {l : List Value} (hm : n.membersOf "elements" = .ok l) {v w : Value}
    (hv : v ∈ l) (hvw : C.values v w) : C.Bounds (boundElement v) (boundElement w) := by
  unfold boundElement
  rw [hC.isNull hvw]
  split
  · exact .empty
  · exact ih _ _ (Node.size_lt_of_mem_membersOf hm hv) hvw

theorem boundAs (h : C.nodes n n') (k : Option Kind) : C.Bounds (boundAs n k) (FreeNames.boundAs n' k) := by
  unfold FreeNames.boundAs
  split
  · exact .ofName (hC.require_name h)
  · have hm := hC.membersOf ((hC.reads h).field "properties" (by decide))
    generalize hl : n.membersOf "properties" = r at hm
    generalize n'.membersOf "properties" = r' at hm
    cases hm with
    | error hf => exact .failed hf
    | ok hlists =>
      refine .concat_map hlists (fun v hv w hvw => hC.boundProperty_of_mem ih hl hv hvw) fun v hv => ?_
      simp only [boundProperty, hv.1]
  · have hm := hC.membersOf ((hC.reads h).field "elements" (by decide))
    generalize hl : n.membersOf "elements" = r at hm
    generalize n'.membersOf "elements" = r' at hm
    cases hm with
    | error hf => exact .failed hf
    | ok hlists =>
      refine .concat_map hlists (fun v hv w hvw => hC.boundElement_of_mem ih hl hv hvw) fun v hv => ?_
      rw [boundElement, hv.2, if_neg Bool.false_ne_true, bound_of_node?_eq_none hv.1]
  · exact hC.boundField ih h (by decide)
  · exact hC.boundField ih h (by decide)
  · exact .failed (hC.breach h (.unrecognizedPattern (hC.type h)))

end

/-- Patterns that belong together bind the same names, up to the renaming. -/
theorem bound : ∀ {v w : Value}, C.values v w → C.Bounds (bound v) (FreeNames.bound w) := by
  intro v
  induction hs : v.size using Nat.strong_induction_on generalizing v with
  | _ size ih =>
    intro w h
    cases hn : v.node? with
    | none =>
      rw [bound_of_node?_eq_none hn, bound_of_node?_eq_none (hC.node?_eq_none h hn)]
      exact .failed (.same rfl)
    | some n =>
      obtain rfl := Value.node?_eq_some_iff.mp hn
      obtain ⟨n', rfl, hnn⟩ := hC.exists_node h
      rw [bound_toValue, bound_toValue, hC.kind? hnn]
      exact hC.boundAs (fun a b hab => ih a.size (hs ▸ hab) rfl) hnn _

end Faithful

/-! ### Walking a tree -/

/-- Corresponding visits: the same kind of node, with corresponding nodes around. -/
structure Visits (C : Correspondence) (v v' : Visit) : Prop where
  node : C.nodes v.node v'.node
  kind : v'.kind = v.kind
  around : List.Forall₂ C.nodes v.around v'.around

/-- Corresponding traces. -/
structure Traces (C : Correspondence) (a b : Trace) : Prop where
  visits : List.Forall₂ C.Visits a.visits b.visits
  fault : Option.Rel C.Faults a.fault b.fault

/-- What a node enters corresponds too, and so do parameters. -/
structure Complete (C : Correspondence) : Prop extends C.Faithful where
  params : ∀ {n n' : Node}, C.nodes n n' →
    Option.Rel C.values (n.fields.lookup "params") (n'.fields.lookup "params")
  entered : ∀ {n n' : Node} {k : Kind}, C.nodes n n' → n.kind? = some k → ∀ name ∈ n.enteredFields k,
    Option.Rel C.values (n.fields.lookup name) (n'.fields.lookup name)

namespace Traces

theorem failed {fault fault' : Fault} (h : C.Faults fault fault') :
    C.Traces (.failed fault) (.failed fault') := ⟨.nil, .some h⟩

theorem append {a a' b b' : Trace} (ha : C.Traces a a') (hb : C.Traces b b') :
    C.Traces (a ++ b) (a' ++ b') := by
  have hfault := ha.fault
  cases hf : a.fault with
  | none =>
    rw [hf] at hfault
    generalize hf' : a'.fault = o at hfault
    cases hfault
    rw [Trace.append_of_fault_eq_none b hf, Trace.append_of_fault_eq_none b' hf']
    exact ⟨List.rel_append ha.visits hb.visits, hb.fault⟩
  | some fault =>
    rw [hf] at hfault
    generalize hf' : a'.fault = o at hfault
    cases hfault
    rw [Trace.append_of_fault_eq_some b hf, Trace.append_of_fault_eq_some b' hf']
    exact ha

theorem concat {as bs : List Trace} (h : List.Forall₂ C.Traces as bs) :
    C.Traces (.concat as) (.concat bs) := by
  induction h with
  | nil => exact ⟨.nil, .none⟩
  | cons h _ ih => exact h.append ih

end Traces

namespace Faithful

variable (hC : C.Faithful) {n n' : Node} {k : Kind}
include hC

theorem fieldChildren {v w : Value} (h : C.values v w) :
    List.Forall₂ C.values (Node.fieldChildren v) (Node.fieldChildren w) := by
  cases hC.shape h with
  | atom ha =>
    cases v with
    | null => exact .nil
    | array => cases ha
    | object => cases ha
    | _ => exact .cons h .nil
  | array hi => exact List.rel_filter (fun v w hvw => by simp [hC.isNull hvw]) hi
  | node => exact .cons h .nil

theorem enteredFields (h : C.nodes n n') : n'.enteredFields k = n.enteredFields k := by
  unfold Node.enteredFields
  rw [hC.isTrue (hC.field h "computed" (by decide))]

/-- Children belong together if the fields do that they are in. -/
theorem children (h : C.nodes n n')
    (hfields : ∀ name ∈ n.enteredFields k, Option.Rel C.values (n.fields.lookup name) (n'.fields.lookup name)) :
    List.Forall₂ C.values (n.children k) (n'.children k) := by
  unfold Node.children
  rw [hC.enteredFields h]
  generalize n.enteredFields k = fields at hfields
  induction fields with
  | nil => exact .nil
  | cons name rest ih =>
    obtain ⟨hname, hrest⟩ := List.forall_mem_cons.mp hfields
    exact List.rel_append (hC.fieldChildren (hC.field_of_rel hname)) (ih hrest)

/-- What is entered as a kind belongs to what is entered as the same kind. -/
theorem enteredKind_eq_ok (h : C.nodes n n') (hk : n.enteredKind = .ok k) : n'.enteredKind = .ok k := by
  have hkind := hC.enteredKind h
  rw [hk] at hkind
  generalize n'.enteredKind = r at hkind
  cases hkind with
  | ok hkk => rw [hkk]

end Faithful

namespace Complete

variable (hC : C.Complete)
include hC

/-- Walks of what belongs together meet what belongs together. -/
theorem visits {v w : Value} (h : C.values v w) {around around' : List Node}
    (ha : List.Forall₂ C.nodes around around') : C.Traces (visits v around) (FreeNames.visits w around') := by
  induction v, around using visits_induction generalizing w around' with
  | plain v around hn =>
    rw [visits_of_node?_eq_none hn, visits_of_node?_eq_none (hC.node?_eq_none h hn)]
    exact .failed (.same rfl)
  | unknown n fault around hk =>
    obtain ⟨n', rfl, hnn⟩ := hC.exists_node h
    have hkind := hC.enteredKind hnn
    rw [hk] at hkind
    generalize hk' : n'.enteredKind = r at hkind
    cases hkind with
    | error hf =>
      rw [visits_of_enteredKind_eq_error hk, visits_of_enteredKind_eq_error hk']
      exact .failed hf
  | node n k around hk ih =>
    obtain ⟨n', rfl, hnn⟩ := hC.exists_node h
    rw [visits_of_enteredKind_eq_ok hk, visits_of_enteredKind_eq_ok (hC.enteredKind_eq_ok hnn hk)]
    refine .append ⟨.cons ⟨hnn, rfl, ha⟩ .nil, .none⟩ (.concat ?_)
    rw [List.forall₂_map_left_iff, List.forall₂_map_right_iff]
    have hchildren := hC.children hnn (hC.entered hnn (Node.kind?_of_enteredKind hk))
    refine ((List.forall₂_and_left _ _).mpr ⟨fun w hw => hw, hchildren⟩).imp ?_
    exact fun w w' hw => ih w hw.1 hw.2 (.cons hnn ha)

end Complete

end Correspondence

end FreeNames
