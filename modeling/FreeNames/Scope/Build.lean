import FreeNames.Log
import FreeNames.Scope.Pattern
import FreeNames.Tree.Labelled
import FreeNames.Walk

/-!
# Building binding tables

One walk over a tree records which names each scope declares. `var` and function declarations bind
into the nearest function-like scope, `let`, `const` and class declarations into the nearest block,
parameters and a function's or class's own name into the function or class itself, a catch parameter
into its clause, and imports into the root of the tree.

What a walk asks for is first written down as a list of acts (`declarations`): create the table of a
node, bind a name in it, note something in the log, or give up. `Building.run` then performs the acts
in order on the tables, up to the first one that fails. A builder creates the table of a node once:
if it meets the node again, in this walk or a later one, it adds to the table that it finds there.

## What is formalized

The scope builder of the specification (its section 5), with what it logs. Two things differ.

* There the tables are a field of their nodes. Here they are kept beside the tree under the nodes' labels,
  and the tree itself never changes. `Tree.ofValue` takes the tables that a tree comes with out of it, and
  `Value.withTables` puts tables back.
* There each declaration is carried out when the walk comes to it. Here all of them are listed before the
  first is carried out. No declaration asks for a table, so that the list is the same either way.

Nodes are known to a builder by their labels, which stand for the identity of objects. What is *not*
formalized is an identity that is used again when its object is gone: labels are never given twice.
-/

namespace FreeNames

/-- One thing that building does. Nodes are named by their labels. -/
inductive Act where
  | note (text : Text)
  | create (label : Nat)
  /-- A name is about to be bound in a node, which has to have a table for it. -/
  | reach (label : Nat)
  | bind (label : Nat) (name : Name)
  | fail (fault : Fault)

/-- The acts of a pattern that binds into a node. -/
def Bound.acts (b : Bound) (label : Nat) : List Act :=
  b.names.map (.bind label) ++
    b.fault.toList.flatMap fun fault => (if b.atName then [.reach label] else []) ++ [.fail fault]

/-- The acts that bind a value in a node, if it is a name. -/
def Value.bindActs (v : Value) (label : Nat) : List Act := (Bound.ofName (.ok v)).acts label

/-- The acts that follow from a value, or the failure to get it. -/
def Act.after {α : Type} (r : Except Fault α) (next : α → List Act) : List Act :=
  match r with
  | .ok a => next a
  | .error fault => [.fail fault]

namespace Node

/-- The node's own name, null if it has none. -/
def ownName (n : Node) : Except Fault Value :=
  let id := n.field "id"
  if id.isNull then .ok .null else id.member "name"

/-- The acts that bind a name in a scope, with a note of it. -/
def declare (scope : Node) (name : Value) : List Act :=
  .note ("declare " ++ name.plain ++ " in " ++ scope.type.plain) :: .create scope.label ::
    name.bindActs scope.label

/-- The acts that bind a node's own name in the node. -/
def bindOwnName (n : Node) : List Act :=
  Act.after n.ownName fun name => if name.isNull then [] else name.bindActs n.label

/-- The acts of a function's own table: its parameters and its name. -/
def functionActs (n : Node) : List Act :=
  .create n.label ::
    Act.after (n.membersOf "params") fun params =>
      params.flatMap (fun p => (bound p).acts n.label) ++ n.bindOwnName

/-- The acts of a class's own table: its name. -/
def classActs (n : Node) : List Act := .create n.label :: n.bindOwnName

end Node

namespace Visit

/-- The innermost enclosing node that a test accepts; having none is a breach. -/
def nearest (v : Visit) (accepts : Node → Bool) : Except Fault Node :=
  match v.around.find? accepts with
  | some scope => .ok scope
  | none => .error (v.node.breach (.noEnclosingScope v.node.type))

/-- The acts that bind the node's own name in an enclosing scope. -/
def declareOwnName (v : Visit) (accepts : Node → Bool) : List Act :=
  Act.after v.node.ownName fun name =>
    if name.isNull then []
    else Act.after (v.nearest accepts) fun scope => scope.declare name

/-- The acts of a variable declaration. -/
def variableActs (v : Visit) : List Act :=
  let kind := v.node.field "kind"
  let accepts := if kind.isText "var" then Node.isScope else Node.isBlockScope
  Act.after (v.nearest accepts) fun scope =>
    .note (kind.plain ++ " declaration bound in " ++ scope.type.plain) ::
    .create scope.label ::
    Act.after (v.node.membersOf "declarations") fun declarators =>
      declarators.flatMap fun d =>
        Act.after (d.member "id") fun pattern => (bound pattern).acts scope.label

/-- The acts of a `try` statement: the table of its handler holds the catch parameter. -/
def tryActs (v : Visit) : List Act :=
  match v.node.field "handler" with
  | .null => []
  | .object label fields =>
    let param := Node.field ⟨label, fields⟩ "param"
    .create label :: if param.isNull then [] else (bound param).acts label
  | _ => [.fail .wrongSort]

/-- The acts of an import specifier: its local name is bound at the root. -/
def importActs (v : Visit) (root : Node) : List Act :=
  Act.after (do (← v.node.require "local").member "name") root.declare

/-- The acts of a visit. -/
def acts (root : Node) (v : Visit) : List Act :=
  match v.kind with
  | .variableDeclaration => v.variableActs
  | .functionDeclaration => v.declareOwnName Node.isScope ++ v.node.functionActs
  | .functionExpression | .arrowFunctionExpression => v.node.functionActs
  | .classDeclaration => v.declareOwnName Node.isBlockScope ++ v.node.classActs
  | .classExpression => v.node.classActs
  | .tryStatement => v.tryActs
  | .importSpecifier | .importDefaultSpecifier | .importNamespaceSpecifier => v.importActs root
  | _ => []

end Visit

/-- All that building the tables of a tree asks for, in order. -/
def declarations (root : Value) : List Act :=
  let trace := walk root
  (match root.node? with
    | some n => trace.visits.flatMap (Visit.acts n)
    | none => []) ++ trace.fault.toList.map .fail

/-- The state of a builder: the tables, the nodes whose table it has created, and the log. -/
structure Building where
  tables : Tables
  known : List Nat
  log : List Log.Record

namespace Building

/-- A new builder on given tables. -/
def start (tables : Tables) : Building := ⟨tables, [], []⟩

/-- Creates the table of a node that the builder has not met, else asks that it have a slot. -/
def create (b : Building) (label : Nat) : Except Fault Building :=
  if label ∈ b.known then
    match b.tables.slot? label with
    | some _ => .ok b
    | none => .error (.missingField (.text tableField))
  else .ok { b with tables := b.tables.set label (.names ∅), known := label :: b.known }

/-- The table of a node, which has to have one. -/
def reach (b : Building) (label : Nat) : Except Fault NameSet :=
  match b.tables.table? label with
  | some set => .ok set
  | none => .error .notAnObject

/-- Adds a name to the table of a node. -/
def bind (b : Building) (label : Nat) (name : Name) : Except Fault Building := do
  let set ← b.reach label
  return { b with tables := b.tables.set label (.names (set.insert name)) }

/-- One act. -/
def perform (b : Building) : Act → Except Fault Building
  | .note text => .ok { b with log := b.log ++ [⟨.debug, .scopes, text⟩] }
  | .create label => b.create label
  | .reach label => do
    let _ ← b.reach label
    return b
  | .bind label name => b.bind label name
  | .fail fault => .error fault

/-- Acts in order, up to the first that fails: the state reached, and why it was the last. -/
def run (b : Building) : List Act → Building × Option Fault
  | [] => (b, none)
  | act :: rest =>
    match b.perform act with
    | .ok b => b.run rest
    | .error fault => (b, some fault)

/-- Walks a tree and records its declarations. -/
def build (b : Building) (root : Value) : Building × Option Fault := b.run (declarations root)

end Building

/-- The binding tables of a tree, built anew on the tables that its nodes have. -/
def buildScopes (tables : Tables) (root : Value) : Building × Option Fault :=
  (Building.start tables).build root

end FreeNames
