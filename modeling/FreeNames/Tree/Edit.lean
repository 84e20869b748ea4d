import FreeNames.Tree.Labelled

/-!
# Looking into a tree and editing it

A path leads from the root to a value, by field names and indices; an index below zero counts from
the end. At the end of a path a value can be set, inserted before an array item, or deleted. A value
that is put in is labelled anew; all other nodes keep their labels. The field `locals` of a node is
its table.
-/

namespace FreeNames

/-- A change at the end of a path. -/
inductive Edit where
  | set (v : Value)
  | insert (v : Value)
  | delete

namespace Value

/-! ### Steps -/

/-- The whole number that a step of a path is. -/
def asIndex : Value → Except Fault Int
  | int i => .ok i
  | bool b => .ok (if b then 1 else 0)
  | _ => .error .wrongSort

/-- The place that an index means among a number of items. -/
def placeIn (length : Nat) (step : Value) : Except Fault Nat := do
  let i ← step.asIndex
  let i := if i < 0 then i + length else i
  if 0 ≤ i ∧ i < length then return i.toNat else throw .outOfRange

/-- The field that a step of a path names, among those that there are. -/
def fieldNamed (fields : List (String × Value)) (step : Value) : Except Fault (String × Value) :=
  match step with
  | array _ | object .. | names _ => .error .wrongSort
  | _ =>
    match fields.find? fun field => step.isText field.1 with
    | some field => .ok field
    | none => .error (.missingField step)

/-- The value one step down. -/
def child (v : Value) (step : Value) : Except Fault Value :=
  match v with
  | object _ fields => do return (← fieldNamed fields step).2
  | array items => do return items.getD (← step.placeIn items.length) null
  | text t => do
    let i ← step.placeIn t.points.length
    return text ⟨(t.points.drop i).take 1⟩
  | _ => .error .wrongSort

/-- The value at the end of a path. -/
def follow (v : Value) : List Value → Except Fault Value
  | [] => .ok v
  | step :: rest => do (← v.child step).follow rest

/-! ### Changes -/

/-- The value with one child replaced, or with one more field. Only texts name fields. -/
def setChild (v : Value) (step : Value) (new : Value) : Except Fault Value :=
  match v with
  | object label fields =>
    match step with
    | array _ | object .. | names _ => .error .wrongSort
    | text t =>
      let name := t.shown
      .ok (object label (setField name (if name = tableField then new.asTable else new) fields))
    | _ => .ok v
  | array items => do return array (items.set (← step.placeIn items.length) new)
  | _ => .error .wrongSort

/-- The value with one more item in front of one of its items, or at its end. -/
def insertChild (v : Value) (step : Value) (new : Value) : Except Fault Value :=
  match v with
  | array items => do
    let i ← step.asIndex
    let i := (if i < 0 then i + items.length else i).toNat
    return array (items.take i ++ new :: items.drop i)
  | _ => .error .notAnObject

/-- The value without one of its children. -/
def deleteChild (v : Value) (step : Value) : Except Fault Value :=
  match v with
  | object label fields => do return object label (dropField (← fieldNamed fields step).1 fields)
  | array items => do return array (items.eraseIdx (← step.placeIn items.length))
  | _ => .error .wrongSort

/-- The value changed at one child. -/
def editChild (v : Value) (step : Value) : Edit → Except Fault Value
  | .set new => v.setChild step new
  | .insert new => v.insertChild step new
  | .delete => v.deleteChild step

/-- The value changed at the end of a path, which has to have one. -/
def edit (v : Value) (change : Edit) : List Value → Except Fault Value
  | [] => .error .outOfRange
  | [last] => v.editChild last change
  | step :: rest => do
    let child ← v.child step
    v.setChild step (← child.edit change rest)

end Value

/-- A change with the objects of its value labelled, from a free label on. -/
def Edit.labelled (next : Nat) : Edit → Except Fault (Edit × Nat)
  | set v => do
    if !v.isReadable then throw .wrongSort
    let (v, next) := v.labelled next
    return (set v, next)
  | insert v => do
    if !v.isReadable then throw .wrongSort
    let (v, next) := v.labelled next
    return (insert v, next)
  | delete => .ok (delete, next)

namespace Tree

/-- The value at the end of a path, with its tables in their fields. -/
def follow (t : Tree) (path : List Value) : Except Fault Value :=
  (t.root.withTables t.tables).follow path

/-- The node at the end of a path. -/
def nodeAt (t : Tree) (path : List Value) : Except Fault Node := do (← t.follow path).asNode

/-- The tree changed at the end of a path. -/
def edit (t : Tree) (change : Edit) (path : List Value) : Except Fault Tree := do
  let (change, next) ← change.labelled t.next
  let root ← (t.root.withTables t.tables).edit change path
  return ⟨root, .ofValue root, next⟩

end Tree

end FreeNames
