import FreeNames.Scope.Tables
import FreeNames.Walk

/-!
# Free references

A reference is an identifier or a `this` that a walk meets. An identifier is bound if a table of a
node around it has its name, if it is `undefined`, or if it is `arguments` inside a plain function;
`this` is bound inside a plain function. `references` lists those that nothing binds, in the order of
the walk.

## What is formalized

The reference classifier of the specification (its section 6). It works on whatever tables there are, also on
values that came with a tree in the place of tables, and fails where these cannot be searched. The
references in front of a fault are lost with it, so `references` gives a list or a fault and never both.

A reference keeps its node and the nodes around it as they were when it was found, and its name and position
are read from there. In the specification they are read from the living tree; `Reference.refresh` does so in
sessions, which alone can change a tree after the analysis.
-/

namespace FreeNames

/-- A use of a name that nothing binds, with the nodes around it, innermost first. -/
structure Reference where
  node : Node
  around : List Node

namespace Reference

/-- Whether the reference is a `this`. -/
def isThis (r : Reference) : Bool := r.node.type.isText Kind.thisExpression.name

/-- The name that is referred to. -/
def name (r : Reference) : Except Fault Name :=
  if r.isThis then .ok (.text "this") else r.node.require "name" >>= Value.asName

/-- Where the reference stands. -/
def position (r : Reference) : Except Fault Position := r.node.position

end Reference

namespace Visit

/-- Whether a name is bound by one of the nodes around a place, innermost first. -/
def boundAround (tables : Tables) (name : Name) : List Node → Except Fault Bool
  | [] => .ok false
  | scope :: outer => do
    if name = .text "arguments" ∧ scope.bindsReceiver then return true
    else if ← tables.binds scope.label name then return true
    else boundAround tables name outer

/-- Whether a name is bound where the visit stands. -/
def binds (v : Visit) (tables : Tables) (name : Name) : Except Fault Bool :=
  if name = .text "undefined" then .ok true else boundAround tables name v.around

/-- The free reference that a visit is, if it is one. -/
def reference? (v : Visit) (tables : Tables) : Except Fault (Option Reference) :=
  match v.kind with
  | .identifier => do
    let name ← v.node.require "name" >>= Value.asName
    if ← v.binds tables name then return none else return some ⟨v.node, v.around⟩
  | .thisExpression =>
    return if v.around.any Node.bindsReceiver then none else some ⟨v.node, v.around⟩
  | _ => return none

end Visit

/-- The free references among visits, or the first fault among them. -/
def referencesOf (tables : Tables) : List Visit → Except Fault (List Reference)
  | [] => .ok []
  | v :: rest => do
    let first ← v.reference? tables
    let others ← referencesOf tables rest
    return first.toList ++ others

/-- The free references of a tree. -/
def references (tables : Tables) (root : Value) : Except Fault (List Reference) :=
  let trace := walk root
  match referencesOf tables trace.visits, trace.fault with
  | .error fault, _ => .error fault
  | .ok _, some fault => .error fault
  | .ok found, none => .ok found

end FreeNames
