import FreeNames.Proofs.Walk

/-!
# Walks with visitors, and the order of a walk

Something is done at the nodes of a tree by *visitors*: for some kinds of nodes there is one, and it is
called with the node and the nodes around it. The plain way to go through a tree is by recursion
(`traverse`): the visitor of a node is called, then its children are gone through one after another.

`walk` has a list of tasks instead of a recursion. Still it comes to the same for all visitors, ends
always, never leaves a node that it has not entered, and has left all nodes when it ends without a
fault. Where it ends with a fault, this is the fault of the first place in pre-order (`places`) that
cannot be entered, and what was called are the visitors of the places in front of it.
-/

namespace FreeNames

universe u

/-! ### Visitors -/

/-- What is done at nodes of a kind: nothing, or a change by the node and the nodes around it. What is
changed is a state beside the tree. All that visitors do to nodes is part of it, under their labels,
but for the fields that a walk reads: these stay as they are. -/
abbrev Visitors (σ : Type u) := Kind → Option (Node → List Node → σ → σ)

namespace Visitors

variable {σ : Type u}

/-- The state after a visit. -/
def call (c : Visitors σ) (s : σ) (v : Visit) : σ :=
  match c v.kind with
  | some visitor => visitor v.node v.around s
  | none => s

/-- The state after visits in order. -/
def callAll (c : Visitors σ) (visits : List Visit) (s : σ) : σ := visits.foldl c.call s

theorem callAll_append (c : Visitors σ) (as bs : List Visit) (s : σ) :
    c.callAll (as ++ bs) s = c.callAll bs (c.callAll as s) := List.foldl_append

end Visitors

/-- Something is done for each item in order, until one ends with a fault. -/
def eachUntil {α : Type} {σ : Type u} (f : α → σ → σ × Option Fault) : List α → σ → σ × Option Fault
  | [], s => (s, none)
  | a :: rest, s =>
    match f a s with
    | (s, none) => eachUntil f rest s
    | (s, some fault) => (s, some fault)

/-- The traversal of a value below the nodes `around` it, by recursion. -/
def traverse {σ : Type u} (c : Visitors σ) (v : Value) (around : List Node) (s : σ) : σ × Option Fault :=
  match _hn : v.node? with
  | none => (s, some .notAnObject)
  | some n =>
    match n.enteredKind with
    | .error fault => (s, some fault)
    | .ok k =>
      eachUntil (fun ⟨w, _⟩ s => traverse c w (n :: around) s) (n.children k).attach
        (c.call s ⟨n, k, around⟩)
termination_by v.size
decreasing_by
  have hv := Value.node?_eq_some_iff.mp _hn
  subst hv
  exact Node.size_lt_of_mem_children ‹_›

theorem eachUntil_attach {α : Type} {σ : Type u} (f : α → σ → σ × Option Fault) (l : List α) (s : σ) :
    eachUntil (fun (a : {a // a ∈ l}) s => f a.1 s) l.attach s = eachUntil f l s := by
  have hall : ∀ (l' : List {a // a ∈ l}) (s : σ),
      eachUntil (fun a s => f a.1 s) l' s = eachUntil f (l'.map Subtype.val) s := by
    intro l'
    induction l' with
    | nil => intro s; rfl
    | cons a rest ih =>
      intro s
      simp only [eachUntil, List.map_cons]
      split <;> simp only [ih]
  rw [hall, List.attach_map_subtype_val]

section

variable {σ : Type u} (c : Visitors σ) (around : List Node) (s : σ)

theorem traverse_of_node?_eq_none {v : Value} (h : v.node? = none) :
    traverse c v around s = (s, some .notAnObject) := by
  rw [traverse]
  split
  · rfl
  · rename_i n hn; rw [h] at hn; cases hn

theorem traverse_of_enteredKind_eq_error {n : Node} {fault : Fault} (h : n.enteredKind = .error fault) :
    traverse c n.toValue around s = (s, some fault) := by
  rw [traverse]
  split
  · rename_i hn; simp at hn
  · rename_i m hm
    rw [Node.node?_toValue] at hm
    cases hm
    rw [h]

theorem traverse_of_enteredKind_eq_ok {n : Node} {k : Kind} (h : n.enteredKind = .ok k) :
    traverse c n.toValue around s =
      eachUntil (fun w s => traverse c w (n :: around) s) (n.children k) (c.call s ⟨n, k, around⟩) := by
  rw [traverse]
  split
  · rename_i hn; simp at hn
  · rename_i m hm
    rw [Node.node?_toValue] at hm
    cases hm
    rw [h]
    exact eachUntil_attach (fun w s => traverse c w (n :: around) s) _ _

end

/-- The traversals of values one after another do what their walks one after another meet. -/
theorem eachUntil_eq_callAll {σ : Type u} {c : Visitors σ} {f : Value → σ → σ × Option Fault}
    {trace : Value → Trace} {values : List Value}
    (h : ∀ w ∈ values, ∀ s, f w s = (c.callAll (trace w).visits s, (trace w).fault)) (s : σ) :
    eachUntil f values s =
      (c.callAll (Trace.concat (values.map trace)).visits s, (Trace.concat (values.map trace)).fault) := by
  induction values generalizing s with
  | nil => rfl
  | cons w rest ih =>
    obtain ⟨hw, hrest⟩ := List.forall_mem_cons.mp h
    simp only [eachUntil, hw, List.map_cons, Trace.concat_cons]
    cases hf : (trace w).fault with
    | none =>
      simp only [Trace.append_of_fault_eq_none _ hf, Visitors.callAll_append]
      exact ih hrest _
    | some fault => simp only [Trace.append_of_fault_eq_some _ hf, hf]

/-- The recursive traversal calls the visitors for what the recursive walk meets. -/
theorem traverse_eq_callAll {σ : Type u} (c : Visitors σ) (v : Value) (around : List Node) :
    ∀ s, traverse c v around s = (c.callAll (visits v around).visits s, (visits v around).fault) := by
  induction v, around using visits_induction with
  | plain v around hn =>
    intro s
    rw [traverse_of_node?_eq_none c around s hn, visits_of_node?_eq_none hn]
    rfl
  | unknown n fault around hk =>
    intro s
    rw [traverse_of_enteredKind_eq_error c around s hk, visits_of_enteredKind_eq_error hk]
    rfl
  | node n k around hk ih =>
    intro s
    rw [traverse_of_enteredKind_eq_ok c around s hk, visits_of_enteredKind_eq_ok hk,
      Trace.append_of_fault_eq_none _ rfl, eachUntil_eq_callAll ih]
    rfl

/-! ### Pre-order -/

/-- A value that a traversal comes to, and the nodes around it. -/
structure Place where
  value : Value
  around : List Node

/-- The places below a value in pre-order, the value first. Nothing below a place that cannot be entered
counts, but what comes after it does. -/
def places (v : Value) (around : List Node) : List Place :=
  ⟨v, around⟩ ::
    match _hn : v.node? with
    | none => []
    | some n =>
      match n.enteredKind with
      | .error _ => []
      | .ok k => (n.children k).attach.flatMap fun ⟨w, _⟩ => places w (n :: around)
termination_by v.size
decreasing_by
  have hv := Value.node?_eq_some_iff.mp _hn
  subst hv
  exact Node.size_lt_of_mem_children ‹_›

namespace Place

/-- The visit of a place, or why it cannot be entered. -/
def enter (p : Place) : Except Fault Visit :=
  match p.value.node? with
  | none => .error .notAnObject
  | some n => n.enteredKind.map fun k => ⟨n, k, p.around⟩

/-- Why a place cannot be entered, if it cannot. -/
def barrier? (p : Place) : Option Fault :=
  match p.enter with
  | .error fault => some fault
  | .ok _ => none

end Place

section

variable (around : List Node)

theorem places_of_node?_eq_none {v : Value} (h : v.node? = none) : places v around = [⟨v, around⟩] := by
  rw [places]
  split
  · rfl
  · rename_i n hn; rw [h] at hn; cases hn

theorem places_of_enteredKind_eq_error {n : Node} {fault : Fault} (h : n.enteredKind = .error fault) :
    places n.toValue around = [⟨n.toValue, around⟩] := by
  rw [places]
  split
  · rfl
  · rename_i m hm
    rw [Node.node?_toValue] at hm
    cases hm
    rw [h]

theorem places_of_enteredKind_eq_ok {n : Node} {k : Kind} (h : n.enteredKind = .ok k) :
    places n.toValue around =
      ⟨n.toValue, around⟩ :: (n.children k).flatMap fun w => places w (n :: around) := by
  rw [places]
  split
  · rename_i hn; simp at hn
  · rename_i m hm
    rw [Node.node?_toValue] at hm
    cases hm
    rw [h]
    simp only [List.flatMap_subtype, List.unattach_attach]

end

namespace Trace

/-- The trace of a walk that enters places in order up to the first that cannot be entered. -/
def ofPlaces (ps : List Place) : Trace where
  visits := (ps.takeWhile fun p => p.barrier?.isNone).filterMap fun p => p.enter.toOption
  fault := ps.findSome? Place.barrier?

theorem ofPlaces_append (as bs : List Place) : ofPlaces (as ++ bs) = ofPlaces as ++ ofPlaces bs := by
  induction as with
  | nil => rfl
  | cons p rest ih =>
    cases hp : p.barrier? with
    | some fault =>
      have hfault : (ofPlaces (p :: rest)).fault = some fault := by simp [ofPlaces, hp]
      rw [append_of_fault_eq_some _ hfault]
      simp [ofPlaces, hp]
    | none =>
      have hcons : ∀ ps, ofPlaces (p :: ps) = ⟨p.enter.toOption.toList, none⟩ ++ ofPlaces ps := by
        intro ps
        rw [append_of_fault_eq_none _ rfl]
        cases h : p.enter.toOption <;> simp [ofPlaces, hp, h]
      rw [List.cons_append, hcons, hcons, ih, append_assoc]

theorem ofPlaces_flatMap {f : Value → List Place} (values : List Value) :
    ofPlaces (values.flatMap f) = concat (values.map fun v => ofPlaces (f v)) := by
  induction values with
  | nil => rfl
  | cons v rest ih => rw [List.flatMap_cons, ofPlaces_append, ih, List.map_cons, concat_cons]

end Trace

/-- The recursive walk enters the places in pre-order. -/
theorem visits_eq_ofPlaces (v : Value) (around : List Node) :
    visits v around = .ofPlaces (places v around) := by
  induction v, around using visits_induction with
  | plain v around hn =>
    have hb : Place.barrier? ⟨v, around⟩ = some .notAnObject := by simp [Place.barrier?, Place.enter, hn]
    rw [visits_of_node?_eq_none hn, places_of_node?_eq_none around hn]
    simp [Trace.ofPlaces, Trace.failed, hb]
  | unknown n fault around hk =>
    have hb : Place.barrier? ⟨n.toValue, around⟩ = some fault := by
      simp [Place.barrier?, Place.enter, hk, Except.map]
    rw [visits_of_enteredKind_eq_error hk, places_of_enteredKind_eq_error around hk]
    simp [Trace.ofPlaces, Trace.failed, hb]
  | node n k around hk ih =>
    have he : Place.enter ⟨n.toValue, around⟩ = .ok ⟨n, k, around⟩ := by
      simp [Place.enter, hk, Except.map]
    have hfirst : (⟨[⟨n, k, around⟩], none⟩ : Trace) = .ofPlaces [⟨n.toValue, around⟩] := by
      simp [Trace.ofPlaces, Place.barrier?, he, Except.toOption]
    have hrest := Trace.ofPlaces_append [⟨n.toValue, around⟩]
      ((n.children k).flatMap fun w => places w (n :: around))
    rw [List.singleton_append, Trace.ofPlaces_flatMap, ← List.map_congr_left ih] at hrest
    rw [visits_of_enteredKind_eq_ok hk, places_of_enteredKind_eq_ok around hk, hrest, hfirst]

/-! ### Orders to leave -/

/-- Whether a task is the order to leave a node. -/
def Task.isLeave : Task → Bool
  | enter _ => false
  | leave => true

namespace Walk

/-- A walk that goes on has one order to leave for each node that is open, and one that met a fault has
nothing to do. -/
def Balanced (w : Walk) : Prop :=
  (w.fault = none → w.tasks.countP Task.isLeave = w.around.length) ∧ (w.fault ≠ none → w.tasks = [])

theorem balanced_start {root : Value} (h : root.isNull = false) : (start root).Balanced := by
  simp [Balanced, start, h, Task.isLeave]

theorem balanced_stop (w : Walk) (fault : Fault) : (w.stop fault).Balanced :=
  ⟨fun h => by simp [stop] at h, fun _ => rfl⟩

/-- What a balanced walk is to leave has been entered. -/
theorem Balanced.around_ne_nil {w : Walk} (hw : w.Balanced) {rest : List Task}
    (h : w.tasks = .leave :: rest) :
    w.around ≠ [] := by
  intro hnil
  cases hf : w.fault with
  | some fault => simp [hw.2 (by simp [hf])] at h
  | none =>
    have hcount := hw.1 hf
    simp [h, hnil, Task.isLeave] at hcount

theorem Balanced.step {w : Walk} (hw : w.Balanced) : w.step.Balanced := by
  obtain ⟨tasks, around, visited, fault⟩ := w
  cases tasks with
  | nil => exact hw
  | cons task rest =>
    -- With something to do, the walk has met no fault.
    obtain rfl : fault = none := by
      by_contra hf
      exact List.cons_ne_nil _ _ (hw.2 hf)
    have hcount := hw.1 rfl
    cases task with
    | leave =>
      cases around with
      | nil => exact absurd rfl (hw.around_ne_nil rfl)
      | cons n outer =>
        refine ⟨fun _ => ?_, fun h => absurd rfl h⟩
        rw [List.countP_cons_of_pos rfl, List.length_cons] at hcount
        exact Nat.succ.inj hcount
    | enter v =>
      cases hn : v.node? with
      | none =>
        have hstep : (Walk.mk (.enter v :: rest) around visited none).step =
            (Walk.mk (.enter v :: rest) around visited none).stop .notAnObject := by simp [Walk.step, hn]
        rw [hstep]
        exact balanced_stop _ _
      | some n =>
        cases hk : n.enteredKind with
        | error fault =>
          have hstep : (Walk.mk (.enter v :: rest) around visited none).step =
              (Walk.mk (.enter v :: rest) around visited none).stop fault := by simp [Walk.step, hn, hk]
          rw [hstep]
          exact balanced_stop _ _
        | ok k =>
          have hstep : (Walk.mk (.enter v :: rest) around visited none).step =
              (Walk.mk (.enter v :: rest) around visited none).enterNode n k rest := by
            simp [Walk.step, hn, hk]
          rw [hstep]
          refine ⟨fun _ => ?_, fun h => absurd rfl h⟩
          -- Children are to be entered, so that the one order to leave is that for the node itself.
          have hchildren : ((n.children k).map Task.enter).countP Task.isLeave = 0 := by
            rw [List.countP_map]
            exact List.countP_eq_zero.mpr fun _ _ => by simp [Task.isLeave]
          rw [List.countP_cons_of_neg (by simp [Task.isLeave])] at hcount
          rw [enterNode, List.countP_append, hchildren, List.countP_cons_of_pos rfl, hcount, Nat.zero_add,
            List.length_cons]

theorem Balanced.run {w : Walk} (hw : w.Balanced) (steps : Nat) : (w.run steps).Balanced := by
  induction steps generalizing w with
  | zero => exact hw
  | succ steps ih => exact ih hw.step

end Walk

/-! ### The walk as a traversal -/

/-- **The walk by tasks is the recursive traversal.** It comes to an end, which more steps do not change.
At no time is it to leave a node when none is open, and none is open at an end without a fault.
Whatever visitors do, it calls the same ones in the same order as the traversal, and ends as it ends. It
meets the places in pre-order up to the first one that cannot be entered, and the fault is that of this
place. -/
theorem walk_eq_traverse (root : Node) :
    (∀ steps, 2 * root.toValue.size ≤ steps →
      ((Walk.start root.toValue).run steps).tasks = [] ∧
        ((Walk.start root.toValue).run steps).trace = walk root.toValue) ∧
    (∀ steps rest, ((Walk.start root.toValue).run steps).tasks = .leave :: rest →
      ((Walk.start root.toValue).run steps).around ≠ []) ∧
    (∀ steps, ((Walk.start root.toValue).run steps).tasks = [] →
      ((Walk.start root.toValue).run steps).fault = none →
      ((Walk.start root.toValue).run steps).around = []) ∧
    (∀ (σ : Type u) (c : Visitors σ) (s : σ),
      traverse c root.toValue [] s = (c.callAll (walk root.toValue).visits s, (walk root.toValue).fault)) ∧
    (walk root.toValue).fault = (places root.toValue []).findSome? Place.barrier? ∧
    (walk root.toValue).visits =
      ((places root.toValue []).takeWhile fun p => p.barrier?.isNone).filterMap fun p => p.enter.toOption := by
  have hwalk : walk root.toValue = visits root.toValue [] := walk_eq_visits rfl
  have hbalanced : ∀ steps, ((Walk.start root.toValue).run steps).Balanced := (Walk.balanced_start rfl).run
  refine ⟨fun steps hs => ?_, fun steps rest h => (hbalanced steps).around_ne_nil h, ?_, ?_, ?_, ?_⟩
  · rw [hwalk]
    exact Walk.run_start rfl hs
  · intro steps htasks hfault
    have hcount := (hbalanced steps).1 hfault
    rw [htasks] at hcount
    exact List.length_eq_zero_iff.mp hcount.symm
  · intro σ c s
    rw [hwalk]
    exact traverse_eq_callAll c root.toValue [] s
  · rw [hwalk, visits_eq_ofPlaces]
    rfl
  · rw [hwalk, visits_eq_ofPlaces]
    rfl

/-- The statement `a.b;`, or `a[b];` where the property is computed, with labels from the given one on. -/
def memberStatement (label : Nat) (computed : Bool) : Value :=
  .object label [("type", .text "ExpressionStatement"), ("expression", .object (label + 1)
    [("type", .text "MemberExpression"), ("computed", .bool computed),
     ("object", .object (label + 2) [("type", .text "Identifier"), ("name", .text "a")]),
     ("property", .object (label + 3) [("type", .text "Identifier"), ("name", .text "b")])])]

/-- The program `a.b; a[b]; [, c];` with a text and one more identifier in its body. The name behind the dot is
no child, nor is the hole in the array. The text cannot be entered. -/
def strayProgram : Node :=
  ⟨0, [("type", .text "Program"), ("body", .array
    [memberStatement 1 false, memberStatement 5 true,
     .object 9 [("type", .text "ExpressionStatement"), ("expression", .object 10
      [("type", .text "ArrayExpression"), ("elements", .array
        [.null, .object 11 [("type", .text "Identifier"), ("name", .text "c")]])])],
     .text "stray", .object 12 [("type", .text "Identifier"), ("name", .text "d")]])]⟩

/-- Visitors that count the identifiers. -/
def identifierCount : Visitors Nat
  | .identifier => some fun _ _ count => count + 1
  | _ => none

theorem walk_eq_traverse_strayProgram :
    2 * strayProgram.toValue.size ≤ 100 ∧ ((Walk.start strayProgram.toValue).run 100).tasks = [] ∧
      ((Walk.start strayProgram.toValue).run 100).trace = walk strayProgram.toValue ∧
      (walk strayProgram.toValue).visits.map (fun v => (v.kind, v.node.label, v.around.map Node.label)) =
        [(.program, 0, []),
         (.expressionStatement, 1, [0]), (.memberExpression, 2, [1, 0]), (.identifier, 3, [2, 1, 0]),
         (.expressionStatement, 5, [0]), (.memberExpression, 6, [5, 0]), (.identifier, 7, [6, 5, 0]),
         (.identifier, 8, [6, 5, 0]),
         (.expressionStatement, 9, [0]), (.arrayExpression, 10, [9, 0]), (.identifier, 11, [10, 9, 0])] ∧
      (walk strayProgram.toValue).fault.isSome ∧
      (traverse identifierCount strayProgram.toValue [] 0).1 = 4 := by
  obtain ⟨hends, -, -, hcalls, -⟩ := walk_eq_traverse.{0} strayProgram
  obtain ⟨htasks, htrace⟩ := hends 100 (by decide)
  refine ⟨by decide, htasks, htrace, by decide +kernel, by decide +kernel, ?_⟩
  rw [hcalls Nat identifierCount 0]
  decide +kernel

end FreeNames
