import FreeNames.Fault
import FreeNames.Tree.Kind

/-!
# What the analysis asks of a node

The kind of a node, the scope it makes, and its children in the order in which they are walked.
-/

namespace FreeNames.Node

/-- The node's kind, where its `type` names one. -/
def kind? (n : Node) : Option Kind :=
  match n.type with
  | .text name => name.string?.bind Kind.ofName?
  | _ => none

/-- Whether the node is of a kind that satisfies a test. -/
def hasKind (n : Node) (test : Kind → Bool) : Bool := n.kind?.any test

/-- A scope that `var` and function declarations bind into. -/
def isScope (n : Node) : Bool := n.hasKind Kind.isScope

/-- A scope that `let`, `const` and class declarations bind into. -/
def isBlockScope (n : Node) : Bool := n.hasKind Kind.isBlockScope

/-- A function that binds `arguments` and `this`. -/
def bindsReceiver (n : Node) : Bool := n.hasKind Kind.bindsReceiver

/-- The kind of a node that is to be entered. A `type` that can be no name cannot be looked up; any
other that names no kind is a breach. -/
def enteredKind (n : Node) : Except Fault Kind :=
  match n.type.name?, n.kind? with
  | none, _ => .error .wrongSort
  | some _, some k => .ok k
  | some _, none => .error (n.breach (.unrecognizedNode n.type))

/-- The children that one field holds: the items of an array that are there, else the value itself
if it is there. -/
def fieldChildren : Value → List Value
  | .null => []
  | .array items => items.filter fun item => !item.isNull
  | v => [v]

/-- The fields of a node that are entered: a key or member name only when the node is computed. -/
def enteredFields (n : Node) (k : Kind) : List String :=
  if (n.field "computed").isTrue then k.entered
  else k.entered.filter fun name => k.computedField != some name

/-- The children of a node of kind `k`, in source order. -/
def children (n : Node) (k : Kind) : List Value :=
  (n.enteredFields k).flatMap fun name => fieldChildren (n.field name)

end FreeNames.Node
