import FreeNames.Tree.Node

/-!
# Binding patterns

The names that a pattern binds, in source order: an identifier binds its name, an object pattern
what the values of its properties bind, an array pattern what its elements bind, a rest element and
a pattern with a default what their target binds. Keys and defaults bind nothing. Reading a pattern
ends at the first part of it that is no pattern; the names up to there count.

## What is formalized

The pattern declarator of the specification (its section 4). There the names go into a table one by one
as they are found. Here a reading gives them as a list, together with the fault that ended it (`Bound`), and
`Bound.addTo` adds them to a table afterwards. The two come to the same because reading never looks at the
table. Where the table cannot take names, the first name fails for this reason even if it cannot be read
itself; so a reading that ends at such a name says so (`Bound.atName`).

A pattern may be of any shape the data can have, and every fault of reading it is kept, also those that the
specification does not speak of. What is *not* formalized is a limit on the depth of a pattern.
-/

namespace FreeNames

/-- The names that were read from a pattern, and the fault that ended the reading, if one did. -/
structure Bound where
  names : List Name
  fault : Option Fault
  /-- Whether the fault is about a name. A name is read only once there is a table to bind it in. -/
  atName : Bool := false

namespace Bound

/-- Nothing is bound. -/
def empty : Bound := { names := [], fault := none }

/-- Reading ends at once. -/
def failed (fault : Fault) : Bound := { names := [], fault := some fault }

/-- One reading after another: nothing follows a fault. -/
def append (a b : Bound) : Bound :=
  match a.fault with
  | some _ => a
  | none => { b with names := a.names ++ b.names }

instance : Append Bound := ⟨append⟩

/-- Readings one after another. -/
def concat (parts : List Bound) : Bound := parts.foldr (· ++ ·) empty

/-- The name that a value has to be, bound. -/
def ofName (v : Except Fault Value) : Bound :=
  match v >>= Value.asName with
  | .ok name => { names := [name], fault := none }
  | .error fault => { names := [], fault := some fault, atName := true }

/-- A set of names with the names that were read added to it. -/
def addTo (b : Bound) (set : NameSet) : NameSet := b.names.foldl NameSet.insert set

end Bound

/-! ### Parts of a pattern are smaller -/

theorem Node.size_lt_of_require {n : Node} {name : String} {w : Value}
    (h : n.require name = .ok w) : w.size < n.toValue.size := by
  unfold Node.require at h
  split at h
  · rename_i v hv
    cases h
    have := Value.size_le_sizeFields hv
    simp only [Node.toValue, Value.size]; omega
  · simp at h

theorem Node.size_lt_of_isTrue {n : Node} {name : String} (h : (n.field name).isTrue) :
    (n.field name).size < n.toValue.size := by
  unfold Node.field at h ⊢
  cases hl : n.fields.lookup name with
  | none => simp [hl, Value.isTrue] at h
  | some v =>
    have := Value.size_le_sizeFields hl
    simp only [Option.getD_some, Node.toValue, Value.size]; omega

theorem Value.size_le_of_mem_members {v w : Value} {l : List Value} (h : v.members = .ok l)
    (hw : w ∈ l) : w.size ≤ v.size := by
  unfold Value.members at h
  split at h <;> cases h
  · have := Value.size_le_sizeItems hw
    simp only [Value.size]; omega
  · obtain ⟨p, -, rfl⟩ := List.mem_map.mp hw
    simp [Value.size]
  · obtain ⟨name, -, rfl⟩ := List.mem_map.mp hw
    cases name <;> simp [Value.size, Name.toValue]
  · obtain ⟨f, -, rfl⟩ := List.mem_map.mp hw
    simp [Value.size]

theorem Node.size_lt_of_mem_membersOf {n : Node} {name : String} {w : Value} {l : List Value}
    (h : n.membersOf name = .ok l) (hw : w ∈ l) : w.size < n.toValue.size := by
  unfold Node.membersOf at h
  split at h
  · rename_i v hv
    have h1 := Value.size_le_of_mem_members h hw
    have h2 := Value.size_le_sizeFields hv
    simp only [Node.toValue, Value.size]; omega
  · cases h; simp at hw

/-! ### Reading a pattern -/

/-- The names that a pattern binds. -/
def bound (v : Value) : Bound :=
  match _hn : v.node? with
  | none => .failed .notAnObject
  | some n =>
    match n.kind? with
    | some .identifier => .ofName (n.require "name")
    | some .objectPattern =>
      match _hm : n.membersOf "properties" with
      | .error fault => .failed fault
      | .ok properties =>
        .concat (properties.attach.map fun ⟨p, _⟩ =>
          -- A rest property has its target in `argument` and no value.
          match _hq : p.node? with
          | none => .failed .notAnObject
          | some q =>
            if _ht : (q.field "value").isTrue then bound (q.field "value")
            else
              match _hr : q.require "argument" with
              | .error fault => .failed fault
              | .ok target => bound target)
    | some .arrayPattern =>
      match _hm : n.membersOf "elements" with
      | .error fault => .failed fault
      | .ok elements =>
        .concat (elements.attach.map fun ⟨e, _⟩ => if e.isNull then .empty else bound e)
    | some .restElement =>
      match _hr : n.require "argument" with
      | .error fault => .failed fault
      | .ok target => bound target
    | some .assignmentPattern =>
      match _hr : n.require "left" with
      | .error fault => .failed fault
      | .ok target => bound target
    | _ => .failed (n.breach (.unrecognizedPattern n.type))
termination_by v.size
decreasing_by
  all_goals
    have hv := Value.node?_eq_some_iff.mp _hn
    subst hv
  · have hp := Value.node?_eq_some_iff.mp _hq
    subst hp
    exact Nat.lt_trans (Node.size_lt_of_isTrue _ht) (Node.size_lt_of_mem_membersOf _hm ‹_›)
  · have hp := Value.node?_eq_some_iff.mp _hq
    subst hp
    exact Nat.lt_trans (Node.size_lt_of_require _hr) (Node.size_lt_of_mem_membersOf _hm ‹_›)
  · exact Node.size_lt_of_mem_membersOf _hm ‹_›
  · exact Node.size_lt_of_require _hr
  · exact Node.size_lt_of_require _hr

end FreeNames
