import FreeNames.Analysis
import FreeNames.Tree.Edit

/-!
# Sessions

A session keeps one tree through a series of builds, analyses and edits. It has a builder of its own,
which remembers the nodes whose tables it has created, so that building again with it adds to those
tables. The findings of the last analysis stay available; their references are nodes of the tree, so
they change with it.
-/

namespace FreeNames

namespace Value

mutual
/-- The object with a label inside a value. -/
def find? (label : Nat) : Value → Option Node
  | .array items => findInItems? label items
  | .object own fields =>
    if own = label then some ⟨own, fields⟩ else findInFields? label fields
  | _ => none

/-- The object with a label inside array items. -/
def findInItems? (label : Nat) : List Value → Option Node
  | [] => none
  | v :: rest => v.find? label <|> findInItems? label rest

/-- The object with a label inside fields. -/
def findInFields? (label : Nat) : List (String × Value) → Option Node
  | [] => none
  | (_, v) :: rest => v.find? label <|> findInFields? label rest
end

end Value

/-- The reference with its node as it now is in a tree; a node that has left the tree stays as it
was. -/
def Reference.refresh (root : Value) (r : Reference) : Reference :=
  { r with node := (root.find? r.node.label).getD r.node }

/-- The group with its references as they now are in a tree. -/
def Group.refresh (root : Value) (g : Group) : Group :=
  { g with references := g.references.map (Reference.refresh root) }

/-- The state of a session. -/
structure Session where
  tree : Tree
  /-- The nodes whose table the session's builder has created. -/
  known : List Nat
  /-- What the last analysis found, once there was one. -/
  found : Option (List Group)

namespace Session

/-- A session on a tree. -/
def start (tree : Tree) : Session := ⟨tree, [], none⟩

/-- The session with other tables. -/
def withTables (s : Session) (tables : Tables) : Session :=
  { s with tree := { s.tree with tables := tables } }

/-- Builds the tables with a new builder. -/
def build (s : Session) : Session × Option Fault × List Log.Record :=
  let (b, fault) := buildScopes s.tree.tables s.tree.root
  (s.withTables b.tables, fault, b.log)

/-- Builds the tables with the session's builder. -/
def rebuild (s : Session) : Session × Option Fault × List Log.Record :=
  let (b, fault) := (Building.mk s.tree.tables s.known []).build s.tree.root
  ({ s.withTables b.tables with known := b.known }, fault, b.log)

/-- The free references under the tables as they are. -/
def classify (s : Session) : Except Fault (List Reference) := references s.tree.tables s.tree.root

/-- Analyses the tree. What is found is kept. -/
def analyze (s : Session) (name : Text) : Session × Except Fault (List Group) × List Log.Record :=
  let a := s.tree.analyze name
  let s := { s with tree := a.tree }
  match a.result with
  | .ok found => ({ s with found := some found }, .ok found, a.log)
  | .error fault => (s, .error fault, a.log)

/-- What the last analysis found of a value that is a name. There has to be an analysis. -/
def get? (s : Session) (name : Value) : Except Fault (Option Group) :=
  match s.found with
  | some found => .ok (findGroup? found name)
  | none => .error .notAnObject

/-- The table of the node at a path, or what stands for it. -/
def table (s : Session) (path : List Value) : Except Fault Value := do
  return (s.tree.tables.slot? (← s.tree.nodeAt path).label).getD .null

/-- Binds the names of a pattern in the table of the node at a path. The names in front of a fault
are bound. -/
def declare (s : Session) (path : List Value) (pattern : Value) : Session × Option Fault :=
  match s.tree.nodeAt path with
  | .error fault => (s, some fault)
  | .ok n =>
    let (b, fault) := (Building.start s.tree.tables).run ((bound pattern).acts n.label)
    (s.withTables b.tables, fault)

/-- Changes the tree at the end of a path. -/
def edit (s : Session) (change : Edit) (path : List Value) : Except Fault Session := do
  let tree ← s.tree.edit change path
  return { s with tree := tree, found := s.found.map fun found => found.map (Group.refresh tree.root) }

end Session

end FreeNames
