import FreeNames.Walk
import Mathlib.Data.List.Perm.Subperm

/-!
# The walk by tasks and the walk by recursion

`walk` keeps a list of tasks and stops after twice as many steps as the tree has values. This module
shows that the number of steps is always enough and that the walk meets what the recursive `visits`
meets: the same nodes in the same order, each with the same nodes around it, and the same fault
(`walk_eq_visits`). From there on nothing has to look at tasks again.

What later proofs ask of a walk is said by the relation `Enters`, which leads from a value down to
one of the visits below it.
-/

namespace FreeNames

/-! ### The children of a node are separate parts of it -/

namespace Node

/-- The values that the fields of a node hold, in the way children are held. -/
def parts (n : Node) : List Value := n.fields.flatMap fun field => fieldChildren field.2

theorem flatMap_lookup_subperm (fields : List (String × Value)) :
    ∀ names : List String, names.Nodup →
      (names.flatMap fun name => fieldChildren ((fields.lookup name).getD .null)).Subperm
        (fields.flatMap fun field => fieldChildren field.2) := by
  induction fields with
  | nil =>
    intro names _
    simp [fieldChildren]
  | cons field rest ih =>
    obtain ⟨key, v⟩ := field
    intro names hn
    -- Every other name is looked up in the rest of the fields.
    have hrest : ∀ l : List String, key ∉ l →
        (l.flatMap fun name => fieldChildren ((((key, v) :: rest).lookup name).getD .null)) =
          l.flatMap fun name => fieldChildren ((rest.lookup name).getD .null) := by
      intro l hl
      refine List.flatMap_congr fun name hname => ?_
      have hne : name ≠ key := fun h => hl (h ▸ hname)
      rw [List.lookup_cons, beq_false_of_ne hne]
    rw [List.flatMap_cons]
    by_cases hk : key ∈ names
    · have hperm := List.perm_cons_erase hk
      refine (hperm.flatMap_right _).subperm.trans ?_
      rw [List.flatMap_cons, hrest _ (hn.not_mem_erase), List.lookup_cons_self, Option.getD_some]
      exact (List.subperm_append_left _).mpr (ih _ (hn.erase _))
    · rw [hrest names hk]
      exact (ih names hn).trans (List.sublist_append_right _ _).subperm

theorem nodup_enteredFields (n : Node) (k : Kind) : (n.enteredFields k).Nodup := by
  unfold enteredFields
  split
  · exact k.nodup_entered
  · exact k.nodup_entered.filter _

theorem children_subperm_parts (n : Node) (k : Kind) : (n.children k).Subperm n.parts :=
  flatMap_lookup_subperm n.fields (n.enteredFields k) (n.nodup_enteredFields k)

end Node

namespace Value

theorem sizeItems_append (l m : List Value) : sizeItems (l ++ m) = sizeItems l + sizeItems m := by
  induction l with
  | nil => simp [sizeItems]
  | cons v rest ih => simp only [List.cons_append, sizeItems, ih]; omega

theorem sizeItems_perm {l m : List Value} (h : l.Perm m) : sizeItems l = sizeItems m := by
  induction h with
  | nil => rfl
  | cons _ _ ih => simp only [sizeItems, ih]
  | swap _ _ _ => simp only [sizeItems]; omega
  | trans _ _ ih₁ ih₂ => exact ih₁.trans ih₂

theorem sizeItems_le_of_sublist {l m : List Value} (h : l.Sublist m) : sizeItems l ≤ sizeItems m := by
  induction h with
  | slnil => exact Nat.le_refl _
  | cons _ _ ih => simp only [sizeItems]; omega
  | cons_cons _ _ ih => simp only [sizeItems]; omega

theorem sizeItems_le_of_subperm {l m : List Value} (h : l.Subperm m) : sizeItems l ≤ sizeItems m := by
  obtain ⟨l', hperm, hsub⟩ := h
  rw [← sizeItems_perm hperm]
  exact sizeItems_le_of_sublist hsub

theorem sizeItems_fieldChildren_le (v : Value) : sizeItems (Node.fieldChildren v) ≤ v.size := by
  unfold Node.fieldChildren
  split
  · exact Nat.zero_le _
  · rename_i items
    have := sizeItems_le_of_sublist (List.filter_sublist (l := items) (p := fun v => !v.isNull))
    simp only [size]; omega
  · simp [sizeItems]

theorem sizeItems_parts_le (fields : List (String × Value)) :
    sizeItems (fields.flatMap fun field => Node.fieldChildren field.2) ≤ sizeFields fields := by
  induction fields with
  | nil => exact Nat.le_refl _
  | cons field rest ih =>
    have := sizeItems_fieldChildren_le field.2
    rw [List.flatMap_cons, sizeItems_append, sizeFields]
    omega

end Value

/-- The children of a node together are smaller than the node. -/
theorem Node.sizeItems_children_lt (n : Node) (k : Kind) :
    Value.sizeItems (n.children k) < n.toValue.size := by
  have h₁ := Value.sizeItems_le_of_subperm (n.children_subperm_parts k)
  have h₂ := Value.sizeItems_parts_le n.fields
  simp only [Node.parts] at h₁
  simp only [Node.toValue, Value.size]
  omega

/-! ### Traces -/

namespace Trace

@[simp] theorem concat_nil : concat [] = empty := rfl

@[simp] theorem concat_cons (t : Trace) (ts : List Trace) : concat (t :: ts) = t ++ concat ts := rfl

theorem append_of_fault_eq_none {a : Trace} (b : Trace) (h : a.fault = none) :
    a ++ b = ⟨a.visits ++ b.visits, b.fault⟩ := by
  show append a b = _
  rw [append, h]

theorem append_of_fault_eq_some {a : Trace} {fault : Fault} (b : Trace) (h : a.fault = some fault) :
    a ++ b = a := by
  show append a b = _
  rw [append, h]

@[simp] theorem append_empty (a : Trace) : a ++ empty = a := by
  cases ha : a.fault with
  | none =>
    obtain ⟨visits, fault⟩ := a
    obtain rfl : fault = none := ha
    rw [append_of_fault_eq_none _ rfl]
    simp [empty]
  | some fault => exact append_of_fault_eq_some _ ha

theorem append_assoc (a b c : Trace) : a ++ b ++ c = a ++ (b ++ c) := by
  cases ha : a.fault with
  | some fault => simp only [append_of_fault_eq_some _ ha]
  | none =>
    rw [append_of_fault_eq_none b ha, append_of_fault_eq_none (b ++ c) ha]
    cases hb : b.fault with
    | some fault => rw [append_of_fault_eq_some c rfl, append_of_fault_eq_some c hb, hb]
    | none => rw [append_of_fault_eq_none c rfl, append_of_fault_eq_none c hb, List.append_assoc]

theorem append_fault_eq_none_iff {a b : Trace} :
    (a ++ b).fault = none ↔ a.fault = none ∧ b.fault = none := by
  cases ha : a.fault with
  | none => rw [append_of_fault_eq_none b ha]; simp
  | some fault => rw [append_of_fault_eq_some b ha]; simp [ha]

theorem concat_fault_eq_none_iff {ts : List Trace} :
    (concat ts).fault = none ↔ ∀ t ∈ ts, t.fault = none := by
  induction ts with
  | nil => simp [empty]
  | cons t ts ih => rw [concat_cons, append_fault_eq_none_iff, ih, List.forall_mem_cons]

/-- Nothing is met that is not met by one of the traces, and in their order. -/
theorem visits_concat_sublist (ts : List Trace) : (concat ts).visits.Sublist (ts.flatMap visits) := by
  induction ts with
  | nil => exact List.Sublist.slnil
  | cons t ts ih =>
    rw [concat_cons, List.flatMap_cons]
    cases ht : t.fault with
    | none => rw [append_of_fault_eq_none _ ht]; exact ih.append_left _
    | some fault => rw [append_of_fault_eq_some _ ht]; exact List.sublist_append_left _ _

theorem visits_concat {ts : List Trace} (h : (concat ts).fault = none) :
    (concat ts).visits = ts.flatMap visits := by
  induction ts with
  | nil => rfl
  | cons t ts ih =>
    rw [concat_cons] at h ⊢
    obtain ⟨ht, hts⟩ := append_fault_eq_none_iff.mp h
    rw [append_of_fault_eq_none _ ht, List.flatMap_cons, ih hts]

end Trace

/-! ### The recursive walk, case by case -/

theorem visits_of_node?_eq_none {v : Value} (h : v.node? = none) (around : List Node) :
    visits v around = .failed .notAnObject := by
  rw [visits]
  split
  · rfl
  · rename_i n hn; rw [h] at hn; cases hn

theorem visits_of_enteredKind_eq_error {n : Node} {fault : Fault} (h : n.enteredKind = .error fault)
    (around : List Node) : visits n.toValue around = .failed fault := by
  rw [visits]
  split
  · rename_i hn; simp at hn
  · rename_i m hm
    rw [Node.node?_toValue] at hm
    cases hm
    rw [h]

theorem visits_of_enteredKind_eq_ok {n : Node} {k : Kind} (h : n.enteredKind = .ok k)
    (around : List Node) :
    visits n.toValue around =
      ⟨[⟨n, k, around⟩], none⟩ ++ Trace.concat ((n.children k).map fun w => visits w (n :: around)) := by
  rw [visits]
  split
  · rename_i hn; simp at hn
  · rename_i m hm
    rw [Node.node?_toValue] at hm
    cases hm
    rw [h]
    simp only [List.map_attach_eq_pmap, List.pmap_eq_map]

/-- What a walk meets in a node, if it meets no fault. -/
theorem visits_of_fault_eq_none {n : Node} {k : Kind} {around : List Node} (hk : n.enteredKind = .ok k)
    (hf : (visits n.toValue around).fault = none) :
    (visits n.toValue around).visits =
      ⟨n, k, around⟩ :: (n.children k).flatMap fun w => (visits w (n :: around)).visits := by
  rw [visits_of_enteredKind_eq_ok hk] at hf ⊢
  rw [Trace.append_of_fault_eq_none _ rfl, Trace.visits_concat (Trace.append_fault_eq_none_iff.mp hf).2,
    List.flatMap_map]
  rfl

/-- A walk of a node is without a fault if those of its children are. -/
theorem visits_toValue_fault_eq_none_iff {n : Node} {k : Kind} {around : List Node}
    (hk : n.enteredKind = .ok k) :
    (visits n.toValue around).fault = none ↔ ∀ w ∈ n.children k, (visits w (n :: around)).fault = none := by
  rw [visits_of_enteredKind_eq_ok hk, Trace.append_fault_eq_none_iff, Trace.concat_fault_eq_none_iff,
    List.forall_mem_map]
  exact and_iff_right rfl

/-- Induction along a walk: what holds of the values that cannot be entered, and of a node when it
holds of its children, holds of all values below all chains. -/
theorem visits_induction {motive : Value → List Node → Prop}
    (plain : ∀ v around, v.node? = none → motive v around)
    (unknown : ∀ (n : Node) fault around, n.enteredKind = .error fault → motive n.toValue around)
    (node : ∀ (n : Node) k around, n.enteredKind = .ok k →
      (∀ w ∈ n.children k, motive w (n :: around)) → motive n.toValue around) :
    ∀ v around, motive v around := by
  intro v
  induction hs : v.size using Nat.strongRecOn generalizing v with
  | ind size ih =>
    intro around
    cases hn : v.node? with
    | none => exact plain v around hn
    | some n =>
      obtain rfl := Value.node?_eq_some_iff.mp hn
      cases hk : n.enteredKind with
      | error fault => exact unknown n fault around hk
      | ok k =>
        refine node n k around hk fun w hw => ih w.size ?_ w rfl _
        rw [← hs]
        exact Node.size_lt_of_mem_children hw

/-! ### The walk by tasks -/

namespace Walk

theorem run_add (m n : Nat) (w : Walk) : run (m + n) w = run n (run m w) := by
  induction m generalizing w with
  | zero => rw [Nat.zero_add]; rfl
  | succ m ih => rw [Nat.succ_add]; exact ih w.step

/-- A walk with nothing left to do stays as it is. -/
theorem run_of_tasks_eq_nil {w : Walk} (h : w.tasks = []) (n : Nat) : run n w = w := by
  induction n with
  | zero => rfl
  | succ n ih =>
    have hstep : w.step = w := by simp only [step, h]
    rw [run, hstep, ih]

/-- What a walk has come to once the tasks in front of `rest` are done: it has met what `trace` says,
and goes on with `rest` unless it met a fault. -/
structure Did (trace : Trace) (rest : List Task) (before after : Walk) : Prop where
  visited : after.visited = trace.visits.reverse ++ before.visited
  fault : after.fault = trace.fault
  goesOn : trace.fault = none → after.tasks = rest ∧ after.around = before.around
  stops : trace.fault ≠ none → after.tasks = []

/-- A walk that is to do `tasks` before `rest` does so within a number of steps. -/
def Does (tasks : List Task) (around : List Node) (trace : Trace) (bound : Nat) : Prop :=
  ∀ (rest : List Task) (visited : List Visit), ∃ steps ≤ bound,
    Did trace rest ⟨tasks ++ rest, around, visited, none⟩
      (run steps ⟨tasks ++ rest, around, visited, none⟩)

theorem does_nil (around : List Node) : Does [] around .empty 0 := by
  intro rest visited
  exact ⟨0, Nat.le_refl _, rfl, rfl, fun _ => ⟨rfl, rfl⟩, fun h => absurd rfl h⟩

/-- Two lists of tasks are done one after the other. -/
theorem Does.append {as bs : List Task} {around : List Node} {a b : Trace} {m n : Nat}
    (ha : Does as around a m) (hb : Does bs around b n) : Does (as ++ bs) around (a ++ b) (m + n) := by
  intro rest visited
  rw [List.append_assoc]
  obtain ⟨i, hi, hda⟩ := ha (bs ++ rest) visited
  cases hf : a.fault with
  | some fault =>
    -- The second list is never reached.
    refine ⟨i, by omega, ?_⟩
    rw [Trace.append_of_fault_eq_some b hf]
    exact ⟨hda.visited, hda.fault, fun h => by simp [hf] at h, hda.stops⟩
  | none =>
    obtain ⟨htasks, haround⟩ := hda.goesOn hf
    obtain ⟨j, hj, hdb⟩ := hb rest (a.visits.reverse ++ visited)
    have hmid : run i ⟨as ++ (bs ++ rest), around, visited, none⟩ =
        ⟨bs ++ rest, around, a.visits.reverse ++ visited, none⟩ := by
      have h₁ := hda.visited
      have h₂ := hda.fault
      generalize run i ⟨as ++ (bs ++ rest), around, visited, none⟩ = w at *
      obtain ⟨_, _, _, _⟩ := w
      simp only at htasks haround h₁ h₂
      rw [htasks, haround, h₁, h₂, hf]
    refine ⟨i + j, by omega, ?_⟩
    rw [run_add, hmid, Trace.append_of_fault_eq_none b hf]
    exact ⟨by rw [hdb.visited]; simp, hdb.fault, hdb.goesOn, hdb.stops⟩

/-- Values are entered one after the other. -/
theorem does_enter_all {around : List Node} {values : List Value}
    (h : ∀ v ∈ values, Does [.enter v] around (visits v around) (2 * v.size)) :
    Does (values.map .enter) around (.concat (values.map fun v => visits v around))
      (2 * Value.sizeItems values) := by
  induction values with
  | nil => exact does_nil around
  | cons v rest ih =>
    obtain ⟨hv, hrest⟩ := List.forall_mem_cons.mp h
    have hsize : 2 * Value.sizeItems (v :: rest) = 2 * v.size + 2 * Value.sizeItems rest := by
      simp only [Value.sizeItems]; omega
    rw [hsize]
    exact hv.append (ih hrest)

/-- A node is entered, its children are walked with the node around them, and the node is left. -/
theorem does_enter_node {n : Node} {k : Kind} {around : List Node} {trace : Trace} {bound : Nat}
    (hk : n.enteredKind = .ok k)
    (h : Does ((n.children k).map .enter) (n :: around) trace bound) :
    Does [.enter n.toValue] around (⟨[⟨n, k, around⟩], none⟩ ++ trace) (bound + 2) := by
  intro rest visited
  obtain ⟨i, hi, hd⟩ := h (.leave :: rest) (⟨n, k, around⟩ :: visited)
  have henter : run 1 ⟨[.enter n.toValue] ++ rest, around, visited, none⟩ =
      ⟨(n.children k).map .enter ++ .leave :: rest, n :: around, ⟨n, k, around⟩ :: visited, none⟩ := by
    simp [run, step, hk, enterNode]
  rw [Trace.append_of_fault_eq_none trace rfl]
  cases hf : trace.fault with
  | some fault =>
    refine ⟨1 + i, by omega, ?_⟩
    rw [run_add, henter]
    exact ⟨by rw [hd.visited]; simp, by rw [hd.fault, hf], fun h => by simp at h,
      fun _ => hd.stops (by simp [hf])⟩
  | none =>
    obtain ⟨htasks, haround⟩ := hd.goesOn hf
    refine ⟨1 + i + 1, by omega, ?_⟩
    rw [run_add, run_add, henter]
    have h₁ := hd.visited
    have h₂ := hd.fault
    generalize run i ⟨(n.children k).map .enter ++ .leave :: rest, n :: around,
      ⟨n, k, around⟩ :: visited, none⟩ = w at *
    obtain ⟨_, _, _, _⟩ := w
    simp only at htasks haround h₁ h₂
    subst htasks haround h₁ h₂
    exact ⟨by simp [run, step], by simp [run, step, hf], fun _ => ⟨rfl, rfl⟩, fun h => absurd rfl h⟩

/-- Entering a value does what the recursive walk of it says. -/
theorem does_enter (v : Value) (around : List Node) :
    Does [.enter v] around (visits v around) (2 * v.size) := by
  induction v, around using visits_induction with
  | plain v around hn =>
    intro rest visited
    have := v.size_pos
    refine ⟨1, by omega, ?_⟩
    rw [visits_of_node?_eq_none hn]
    have hstep : run 1 ⟨[.enter v] ++ rest, around, visited, none⟩ =
        ⟨[], around, visited, some .notAnObject⟩ := by simp [run, step, hn, stop]
    rw [hstep]
    exact ⟨rfl, rfl, fun h => by simp [Trace.failed] at h, fun _ => rfl⟩
  | unknown n fault around hk =>
    intro rest visited
    have := n.toValue.size_pos
    refine ⟨1, by omega, ?_⟩
    rw [visits_of_enteredKind_eq_error hk]
    have hstep : run 1 ⟨[.enter n.toValue] ++ rest, around, visited, none⟩ =
        ⟨[], around, visited, some fault⟩ := by simp [run, step, hk, stop]
    rw [hstep]
    exact ⟨rfl, rfl, fun h => by simp [Trace.failed] at h, fun _ => rfl⟩
  | node n k around hk ih =>
    intro rest visited
    rw [visits_of_enteredKind_eq_ok hk]
    have hlt := n.sizeItems_children_lt k
    obtain ⟨i, hi, hd⟩ := does_enter_node hk (does_enter_all ih) rest visited
    exact ⟨i, by omega, hd⟩

end Walk

/-- After twice as many steps as the tree has values, a walk has nothing left to do, and it has met what
the recursive walk meets. -/
theorem Walk.run_start {root : Value} (h : root.isNull = false) {steps : Nat} (hs : 2 * root.size ≤ steps) :
    ((start root).run steps).tasks = [] ∧ ((start root).run steps).trace = visits root [] := by
  obtain ⟨i, hi, hd⟩ := does_enter root [] [] []
  have hstart : start root = ⟨[.enter root] ++ [], [], [], none⟩ := by simp [start, h]
  have hdone : (run i ⟨[.enter root] ++ [], [], [], none⟩).tasks = [] := by
    cases hf : (visits root []).fault with
    | none => exact (hd.goesOn hf).1
    | some fault => exact hd.stops (by simp [hf])
  -- The steps that are left over change nothing.
  obtain ⟨j, rfl⟩ := Nat.exists_eq_add_of_le (Nat.le_trans hi hs)
  rw [hstart, run_add, run_of_tasks_eq_nil hdone, trace, hd.visited, hd.fault]
  exact ⟨hdone, by simp⟩

/-- The walk by tasks meets what the recursive walk meets, and ends as it ends. -/
theorem walk_eq_visits {root : Value} (h : root.isNull = false) : walk root = visits root [] :=
  (Walk.run_start h (Nat.le_refl _)).2

/-- A null tree has nothing that could be closed. -/
theorem walk_null : walk .null = .failed .nothingToClose := rfl

/-- A tree that is no node cannot be walked. -/
theorem exists_walk_fault {root : Value} (h : root.node? = none) : ∃ fault, (walk root).fault = some fault := by
  cases hnull : root.isNull with
  | true =>
    cases root <;> simp [Value.isNull] at hnull
    exact ⟨_, congrArg Trace.fault walk_null⟩
  | false =>
    rw [walk_eq_visits hnull, visits_of_node?_eq_none h]
    exact ⟨_, rfl⟩

/-! ### What is entered -/

/-- `Enters v around x`: the way down from the value `v`, which stands below the nodes `around`,
leads to the visit `x`. -/
inductive Enters : Value → List Node → Visit → Prop where
  /-- A node of a known kind is entered itself. -/
  | here {n : Node} {k : Kind} {around : List Node} (hk : n.enteredKind = .ok k) :
      Enters n.toValue around ⟨n, k, around⟩
  /-- The way leads on through a child. -/
  | through {n : Node} {k : Kind} {around : List Node} {w : Value} {x : Visit}
      (hk : n.enteredKind = .ok k) (hw : w ∈ n.children k) (hx : Enters w (n :: around) x) :
      Enters n.toValue around x

theorem Node.toValue_injective {m n : Node} (h : m.toValue = n.toValue) : m = n := by
  have := congrArg Value.node? h
  simpa using this

/-- A way down from a node of a known kind ends there, or goes through a child. -/
theorem enters_toValue_iff {n : Node} {k : Kind} (hk : n.enteredKind = .ok k) {around : List Node}
    {x : Visit} : Enters n.toValue around x ↔
      x = ⟨n, k, around⟩ ∨ ∃ w ∈ n.children k, Enters w (n :: around) x := by
  constructor
  · intro h
    generalize hv : n.toValue = v at h
    cases h with
    | here hk' =>
      obtain rfl := Node.toValue_injective hv
      rw [hk] at hk'; cases hk'
      exact .inl rfl
    | through hk' hw hx =>
      obtain rfl := Node.toValue_injective hv
      rw [hk] at hk'; cases hk'
      exact .inr ⟨_, hw, hx⟩
  · rintro (rfl | ⟨w, hw, hx⟩)
    · exact .here hk
    · exact .through hk hw hx

/-- Whatever a walk meets lies on a way down. -/
theorem enters_of_mem_visits {v : Value} {around : List Node} :
    ∀ {x : Visit}, x ∈ (visits v around).visits → Enters v around x := by
  induction v, around using visits_induction with
  | plain v around hn =>
    intro x hx
    simp [visits_of_node?_eq_none hn, Trace.failed] at hx
  | unknown n fault around hk =>
    intro x hx
    simp [visits_of_enteredKind_eq_error hk, Trace.failed] at hx
  | node n k around hk ih =>
    intro x hx
    rw [visits_of_enteredKind_eq_ok hk, Trace.append_of_fault_eq_none _ rfl] at hx
    rcases List.mem_append.mp hx with hx | hx
    · rw [List.mem_singleton.mp hx]
      exact .here hk
    · obtain ⟨t, ht, hxt⟩ := List.mem_flatMap.mp ((Trace.visits_concat_sublist _).subset hx)
      obtain ⟨w, hw, rfl⟩ := List.mem_map.mp ht
      exact .through hk hw (ih w hw hxt)

/-- A walk without a fault has none in any of its parts. -/
theorem visits_child_fault_eq_none {n : Node} {k : Kind} {around : List Node}
    (hk : n.enteredKind = .ok k) (hf : (visits n.toValue around).fault = none) {w : Value}
    (hw : w ∈ n.children k) : (visits w (n :: around)).fault = none :=
  (visits_toValue_fault_eq_none_iff hk).mp hf w hw

/-- A walk without a fault comes to the end of every way down. -/
theorem mem_visits_of_enters {v : Value} {around : List Node} {x : Visit} (h : Enters v around x)
    (hf : (visits v around).fault = none) : x ∈ (visits v around).visits := by
  induction h with
  | @here n k around hk =>
    rw [visits_of_enteredKind_eq_ok hk, Trace.append_of_fault_eq_none _ rfl]
    exact List.mem_append_left _ (List.mem_singleton.mpr rfl)
  | @through n k around w x hk hw hx ih =>
    have hin := ih (visits_child_fault_eq_none hk hf hw)
    rw [visits_of_enteredKind_eq_ok hk] at hf ⊢
    rw [Trace.append_of_fault_eq_none _ rfl,
      Trace.visits_concat (Trace.append_fault_eq_none_iff.mp hf).2]
    refine List.mem_append_right _ (List.mem_flatMap.mpr ⟨visits w (n :: around), ?_, hin⟩)
    exact List.mem_map.mpr ⟨w, hw, rfl⟩

namespace Enters

variable {v : Value} {around : List Node} {x : Visit}

theorem exists_node (h : Enters v around x) : ∃ n : Node, v = n.toValue := by
  cases h <;> exact ⟨_, rfl⟩

theorem enteredKind_eq (h : Enters v around x) : x.node.enteredKind = .ok x.kind := by
  induction h with
  | here hk => exact hk
  | through _ _ _ ih => exact ih

/-- The nodes around a visit are those on the way to it, in front of the ones around the start. -/
theorem suffix_around (h : Enters v around x) : around <:+ x.around := by
  induction h with
  | here hk => exact List.suffix_refl _
  | through _ _ _ ih => exact (List.suffix_cons _ _).trans ih

/-- The nodes on the way to a visit are entered too, with the same nodes around them, and have children. -/
theorem exists_suffix_of_mem_around (h : Enters v around x) {m : Node} (hm : m ∈ x.around) :
    m ∈ around ∨ ∃ y, Enters v around y ∧ y.node = m ∧ (m :: y.around) <:+ x.around ∧
      m.children y.kind ≠ [] := by
  induction h with
  | here hk => exact .inl hm
  | through hk hw hx ih =>
    rcases ih hm with hm | ⟨y, hy, hym, hsuffix⟩
    · rcases List.mem_cons.mp hm with rfl | hm
      · exact .inr ⟨_, .here hk, rfl, hx.suffix_around, List.ne_nil_of_mem hw⟩
      · exact .inl hm
    · exact .inr ⟨y, .through hk hw hy, hym, hsuffix⟩

theorem exists_of_mem_around (h : Enters v around x) {m : Node} (hm : m ∈ x.around) :
    m ∈ around ∨ ∃ y, Enters v around y ∧ y.node = m :=
  (h.exists_suffix_of_mem_around hm).imp_right fun ⟨y, hy, hym, _⟩ => ⟨y, hy, hym⟩

/-- A way can be gone on with below a visit. -/
theorem trans (h : Enters v around x) {w : Value} (hw : w ∈ x.node.children x.kind) {y : Visit}
    (hy : Enters w (x.node :: x.around) y) : Enters v around y := by
  induction h with
  | here hk => exact .through hk hw hy
  | through hk hc _ ih => exact .through hk hc (ih hw hy)

theorem visits_fault_eq_none (h : Enters v around x) (hf : (visits v around).fault = none) :
    (visits x.node.toValue x.around).fault = none := by
  induction h with
  | here hk => exact hf
  | through hk hw _ ih => exact ih (visits_child_fault_eq_none hk hf hw)

/-- In a walk without a fault, the children of an entered node are entered right below it. -/
theorem child (h : Enters v around x) (hf : (visits v around).fault = none) {w : Value}
    (hw : w ∈ x.node.children x.kind) :
    ∃ m k, w = m.toValue ∧ Enters v around ⟨m, k, x.node :: x.around⟩ := by
  have hfw := visits_child_fault_eq_none h.enteredKind_eq (h.visits_fault_eq_none hf) hw
  cases hn : w.node? with
  | none => simp [visits_of_node?_eq_none hn, Trace.failed] at hfw
  | some m =>
    obtain rfl := Value.node?_eq_some_iff.mp hn
    cases hk : m.enteredKind with
    | error fault => simp [visits_of_enteredKind_eq_error hk, Trace.failed] at hfw
    | ok k => exact ⟨m, k, rfl, h.trans hw (.here hk)⟩

end Enters

/-- A walk is without a fault if it starts at a node of a known kind and comes to no other children than
such nodes. -/
theorem visits_fault_eq_none_iff {v : Value} {around : List Node} :
    (visits v around).fault = none ↔
      (∃ (n : Node) (k : Kind), v = n.toValue ∧ n.enteredKind = .ok k) ∧ ∀ x, Enters v around x →
        ∀ w ∈ x.node.children x.kind, ∃ (m : Node) (k : Kind), w = m.toValue ∧ m.enteredKind = .ok k := by
  constructor
  · intro hf
    refine ⟨?_, fun x hx w hw => ?_⟩
    · cases hn : v.node? with
      | none => simp [visits_of_node?_eq_none hn, Trace.failed] at hf
      | some n =>
        obtain rfl := Value.node?_eq_some_iff.mp hn
        cases hk : n.enteredKind with
        | error fault => simp [visits_of_enteredKind_eq_error hk, Trace.failed] at hf
        | ok k => exact ⟨n, k, rfl, hk⟩
    · obtain ⟨m, k, rfl, hm⟩ := hx.child hf hw
      exact ⟨m, k, rfl, hm.enteredKind_eq⟩
  · rintro ⟨hv, hall⟩
    induction v, around using visits_induction with
    | plain v around hn =>
      obtain ⟨n, k, rfl, -⟩ := hv
      simp at hn
    | unknown n fault around hk =>
      obtain ⟨m, k, hm, hk'⟩ := hv
      obtain rfl := Node.toValue_injective hm
      cases hk.symm.trans hk'
    | node n k around hk ih =>
      refine (visits_toValue_fault_eq_none_iff hk).mpr fun w hw => ?_
      exact ih w hw (hall _ (.here hk) w hw) fun x hx => hall x (.through hk hw hx)

end FreeNames
