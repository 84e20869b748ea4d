import FreeNames.Tree.Node

/-!
# Walking a tree

A walk visits the nodes of a tree in pre-order: a node before its children, the children in source
order. With each node it hands out the chain of the nodes around it, innermost first.

The walk keeps its own list of things to do, so that a deep tree needs no deep recursion. A task is
either a value to enter or the order to leave the innermost open node. Entering a node adds it to
the chain and puts its children and the order to leave it in front of the other tasks. The walk ends
when nothing is left to do, or at a value that cannot be entered.

`walk` runs the tasks; `visits` is the same walk by recursion on the tree.

## What is formalized

The ancestor walker of the specification (its section 3), with the order of the children and the places
that are not entered. Three things differ.

* Visitors are not called on the way. The walk hands out its visits, and whoever has something to do at a
  node does it when the walk is over. Calling visitors on the way comes to the same
  (`FreeNames.Proofs.Traversal`), since they leave alone what the walk reads.
* The chain of a visit is a value and stays valid after it. It has the innermost node first, where the
  specification has the outermost.
* The order to leave a node is a task of its own, where the specification has a null among the nodes. Only a
  null for the whole tree can tell the difference, and `Walk.start` takes care of it.

What is *not* formalized is an object in two places of a tree, or inside itself: every object has a label of
its own.
-/

namespace FreeNames

/-- A node as a walk meets it: the node, its kind, and the nodes around it, innermost first. -/
structure Visit where
  node : Node
  kind : Kind
  around : List Node

/-- What a walk has met: the visits in order, and the fault that ended it, if one did. -/
structure Trace where
  visits : List Visit
  fault : Option Fault

/-- Something that a walk has still to do. -/
inductive Task where
  | enter (v : Value)
  | leave

/-- A walk that is under way. The visits are kept latest first. -/
structure Walk where
  tasks : List Task
  around : List Node
  visited : List Visit
  fault : Option Fault

namespace Walk

/-- The walk of a tree before its first step. A null tree is taken for the order to leave. -/
def start (root : Value) : Walk where
  tasks := [if root.isNull then .leave else .enter root]
  around := []
  visited := []
  fault := none

/-- The walk enters a node of a known kind. -/
def enterNode (w : Walk) (n : Node) (k : Kind) (rest : List Task) : Walk where
  tasks := (n.children k).map .enter ++ .leave :: rest
  around := n :: w.around
  visited := ⟨n, k, w.around⟩ :: w.visited
  fault := none

/-- The walk ends at a fault. -/
def stop (w : Walk) (fault : Fault) : Walk := { w with tasks := [], fault := some fault }

/-- One step of a walk. A walk with nothing to do stays as it is. -/
def step (w : Walk) : Walk :=
  match w.tasks with
  | [] => w
  | .leave :: rest =>
    match w.around with
    | [] => w.stop .nothingToClose
    | _ :: outer => { w with tasks := rest, around := outer }
  | .enter v :: rest =>
    match v.node? with
    | none => w.stop .notAnObject
    | some n =>
      match n.enteredKind with
      | .error fault => w.stop fault
      | .ok k => w.enterNode n k rest

/-- A number of steps. -/
def run : Nat → Walk → Walk
  | 0, w => w
  | n + 1, w => run n w.step

/-- What a walk has met so far. -/
def trace (w : Walk) : Trace := ⟨w.visited.reverse, w.fault⟩

end Walk

/-- The walk of a tree. Each node is entered and left at most once, so twice its size is enough. -/
def walk (root : Value) : Trace := ((Walk.start root).run (2 * root.size)).trace

/-! ### The same walk by recursion -/

namespace Trace

/-- The trace of a walk that meets nothing. -/
def empty : Trace := ⟨[], none⟩

/-- The trace of a walk that ends at once. -/
def failed (fault : Fault) : Trace := ⟨[], some fault⟩

/-- One trace after another: nothing follows a fault. -/
def append (a b : Trace) : Trace :=
  match a.fault with
  | some _ => a
  | none => ⟨a.visits ++ b.visits, b.fault⟩

instance : Append Trace := ⟨append⟩

/-- Traces one after another. -/
def concat (traces : List Trace) : Trace := traces.foldr (· ++ ·) empty

end Trace

theorem Value.size_le_of_mem_fieldChildren {v w : Value} (h : w ∈ Node.fieldChildren v) :
    w.size ≤ v.size := by
  unfold Node.fieldChildren at h
  split at h
  · simp at h
  · have := Value.size_le_sizeItems (List.mem_filter.mp h).1
    simp only [Value.size]; omega
  · simp only [List.mem_singleton] at h; subst h; exact Nat.le_refl _

theorem Node.size_lt_of_mem_children {n : Node} {k : Kind} {w : Value} (h : w ∈ n.children k) :
    w.size < n.toValue.size := by
  obtain ⟨name, -, hw⟩ := List.mem_flatMap.mp h
  unfold Node.field at hw
  cases hl : n.fields.lookup name with
  | none => simp [hl, Node.fieldChildren] at hw
  | some v =>
    have h1 := Value.size_le_of_mem_fieldChildren (v := v) (by simpa [hl] using hw)
    have h2 := Value.size_le_sizeFields hl
    simp only [Node.toValue, Value.size]; omega

/-- The walk of a value below the nodes `around` it, by recursion. -/
def visits (v : Value) (around : List Node) : Trace :=
  match _hn : v.node? with
  | none => .failed .notAnObject
  | some n =>
    match n.enteredKind with
    | .error fault => .failed fault
    | .ok k =>
      ⟨[⟨n, k, around⟩], none⟩ ++
        Trace.concat ((n.children k).attach.map fun ⟨w, _⟩ => visits w (n :: around))
termination_by v.size
decreasing_by
  have hv := Value.node?_eq_some_iff.mp _hn
  subst hv
  exact Node.size_lt_of_mem_children ‹_›

end FreeNames
