import FreeNames.Proofs.Success

/-!
# Every declaration of a program has a scope

Of all breaches, only one is about where a node stands: that there is no scope around a declaration. It is
raised in one place, when the nearest scope is looked for. A program is a scope itself and all else is
entered below it, so an analysis of a program never ends with this breach, however the tree may look.
-/

namespace FreeNames

/-- The fault is that there is no scope for a declaration. -/
def Fault.isUnscoped : Fault → Bool
  | breach (.noEnclosingScope _) _ => true
  | _ => false

/-! ### Faults of reading -/

theorem Node.eq_notAnObject_of_position {n : Node} {fault : Fault} (h : n.position = .error fault) :
    fault = .notAnObject := by
  unfold position at h
  simp only at h
  split at h
  · cases h
  · split at h
    · cases h; rfl
    · split at h
      · cases h
      · split at h
        · cases h; rfl
        · cases h

/-- A breach for another cause stays one, or turns into a location that cannot be read. -/
theorem Node.isUnscoped_breach {n : Node} {cause : Breach} (h : ∀ kind, cause ≠ .noEnclosingScope kind) :
    (n.breach cause).isUnscoped = false := by
  unfold breach
  split
  · cases cause with
    | noEnclosingScope kind => exact absurd rfl (h kind)
    | _ => rfl
  · rename_i fault hposition
    rw [eq_notAnObject_of_position hposition]
    rfl

/-- A result that is there, or is missing for another reason than a scope. -/
def Scoped {α : Type} (r : Except Fault α) : Prop := ∀ fault, r = .error fault → fault.isUnscoped = false

theorem scoped_require (n : Node) (name : String) : Scoped (n.require name) := by
  intro fault h
  unfold Node.require at h
  split at h <;> cases h
  rfl

theorem scoped_member (v : Value) (name : String) : Scoped (v.member name) := by
  intro fault h
  unfold Value.member at h
  split at h
  · exact scoped_require _ _ fault h
  · cases h
    rfl

theorem scoped_membersOf (n : Node) (name : String) : Scoped (n.membersOf name) := by
  intro fault h
  unfold Node.membersOf at h
  split at h
  · unfold Value.members at h
    split at h <;> cases h
    rfl
  · cases h

theorem scoped_asName (v : Value) : Scoped v.asName := by
  intro fault h
  unfold Value.asName at h
  split at h <;> cases h
  rfl

theorem scoped_ownName (n : Node) : Scoped n.ownName := by
  intro fault h
  unfold Node.ownName at h
  simp only at h
  split at h
  · cases h
  · exact scoped_member _ _ fault h

theorem Scoped.bind {α β : Type} {r : Except Fault α} {f : α → Except Fault β} (hr : Scoped r)
    (hf : ∀ a, Scoped (f a)) : Scoped (r >>= f) := by
  intro fault h
  cases r with
  | error other =>
    cases h
    exact hr fault rfl
  | ok a => exact hf a fault h

theorem scoped_enteredKind (n : Node) : Scoped n.enteredKind := by
  intro fault h
  unfold Node.enteredKind at h
  split at h
  · cases h
    rfl
  · cases h
  · cases h
    exact Node.isUnscoped_breach fun kind => by simp

/-! ### Faults of patterns and walks -/

theorem Bound.exists_of_concat_fault {bs : List Bound} {fault : Fault} (h : (concat bs).fault = some fault) :
    ∃ b ∈ bs, b.fault = some fault := by
  induction bs with
  | nil => cases h
  | cons b bs ih =>
    rw [concat_cons] at h
    cases hb : b.fault with
    | some other =>
      rw [append_of_fault_eq_some _ hb, hb] at h
      exact ⟨b, List.mem_cons_self, hb.trans h⟩
    | none =>
      rw [append_of_fault_eq_none _ hb] at h
      obtain ⟨c, hc, hfault⟩ := ih h
      exact ⟨c, List.mem_cons_of_mem _ hc, hfault⟩

theorem Bound.isUnscoped_ofName {r : Except Fault Value} (hr : Scoped r) {fault : Fault}
    (h : (ofName r).fault = some fault) : fault.isUnscoped = false := by
  unfold ofName at h
  split at h
  · cases h
  · rename_i other hother
    cases h
    exact hr.bind scoped_asName fault hother

theorem isUnscoped_bound {p : Value} {fault : Fault} (h : (bound p).fault = some fault) :
    fault.isUnscoped = false := by
  induction hs : p.size using Nat.strongRecOn generalizing p with
  | ind size ih =>
    have hfield : ∀ {q : Node} {name : String}, q.toValue.size ≤ size →
        (boundField q name).fault = some fault → fault.isUnscoped = false := by
      intro q name hsize hq
      unfold boundField at hq
      split at hq
      · rename_i other hr
        cases hq
        exact scoped_require _ _ fault hr
      · rename_i w hr
        exact ih w.size (Nat.lt_of_lt_of_le (Node.size_lt_of_require hr) hsize) hq rfl
    cases hn : p.node? with
    | none =>
      rw [bound_of_node?_eq_none hn] at h
      cases h
      rfl
    | some n =>
      obtain rfl := Value.node?_eq_some_iff.mp hn
      rw [bound_toValue, boundAs.eq_def] at h
      split at h
      · exact Bound.isUnscoped_ofName (scoped_require n "name") h
      · split at h
        · rename_i other hm
          cases h
          exact scoped_membersOf _ _ fault hm
        · rename_i properties hm
          obtain ⟨b, hb, hfault⟩ := Bound.exists_of_concat_fault h
          obtain ⟨w, hw, rfl⟩ := List.mem_map.mp hb
          have hlt := Node.size_lt_of_mem_membersOf hm hw
          unfold boundProperty at hfault
          split at hfault
          · cases hfault
            rfl
          · rename_i q hq
            obtain rfl := Value.node?_eq_some_iff.mp hq
            split at hfault
            · rename_i ht
              exact ih _ (hs ▸ Nat.lt_trans (Node.size_lt_of_isTrue ht) hlt) hfault rfl
            · exact hfield (hs ▸ Nat.le_of_lt hlt) hfault
      · split at h
        · rename_i other hm
          cases h
          exact scoped_membersOf _ _ fault hm
        · rename_i elements hm
          obtain ⟨b, hb, hfault⟩ := Bound.exists_of_concat_fault h
          obtain ⟨e, he, rfl⟩ := List.mem_map.mp hb
          unfold boundElement at hfault
          split at hfault
          · cases hfault
          · exact ih _ (hs ▸ Node.size_lt_of_mem_membersOf hm he) hfault rfl
      · exact hfield (Nat.le_of_eq hs) h
      · exact hfield (Nat.le_of_eq hs) h
      · cases h
        exact Node.isUnscoped_breach fun kind => by simp

theorem Trace.exists_of_concat_fault {ts : List Trace} {fault : Fault} (h : (concat ts).fault = some fault) :
    ∃ t ∈ ts, t.fault = some fault := by
  induction ts with
  | nil => cases h
  | cons t ts ih =>
    rw [concat_cons] at h
    cases ht : t.fault with
    | some other =>
      rw [append_of_fault_eq_some _ ht, ht] at h
      exact ⟨t, List.mem_cons_self, ht.trans h⟩
    | none =>
      rw [append_of_fault_eq_none _ ht] at h
      obtain ⟨u, hu, hfault⟩ := ih h
      exact ⟨u, List.mem_cons_of_mem _ hu, hfault⟩

theorem isUnscoped_visits {v : Value} {around : List Node} {fault : Fault}
    (h : (visits v around).fault = some fault) : fault.isUnscoped = false := by
  induction v, around using visits_induction with
  | plain v around hn =>
    rw [visits_of_node?_eq_none hn] at h
    cases h
    rfl
  | unknown n other around hk =>
    rw [visits_of_enteredKind_eq_error hk] at h
    cases h
    exact scoped_enteredKind n fault hk
  | node n k around hk ih =>
    rw [visits_of_enteredKind_eq_ok hk, Trace.append_of_fault_eq_none _ rfl] at h
    obtain ⟨t, ht, hfault⟩ := Trace.exists_of_concat_fault h
    obtain ⟨w, hw, rfl⟩ := List.mem_map.mp ht
    exact ih w hw hfault

/-! ### Faults of declarations -/

namespace Act

variable {fault : Fault}

/-- The failures among acts that follow from a value are the failure to get it and theirs. -/
theorem isUnscoped_after {α : Type} {r : Except Fault α} {next : α → List Act} (hr : Scoped r)
    (hnext : ∀ a, .fail fault ∈ next a → fault.isUnscoped = false) (h : .fail fault ∈ after r next) :
    fault.isUnscoped = false := by
  cases r with
  | ok a => exact hnext a h
  | error other =>
    cases List.mem_singleton.mp h
    exact hr fault rfl

end Act

theorem Bound.fault_eq_of_mem_acts {b : Bound} {label : Nat} {fault : Fault}
    (h : .fail fault ∈ b.acts label) : b.fault = some fault := by
  unfold acts at h
  cases hb : b.fault with
  | none => simp [hb] at h
  | some other =>
    simp only [hb, List.mem_append, List.mem_map, reduceCtorEq, and_false, exists_false, false_or,
      Option.toList_some, List.flatMap_cons, List.flatMap_nil, List.append_nil, List.mem_singleton] at h
    rcases h with h | h
    · split at h <;> simp at h
    · rw [Act.fail.inj h]

theorem isUnscoped_boundActs {p : Value} {label : Nat} {fault : Fault}
    (h : .fail fault ∈ (bound p).acts label) : fault.isUnscoped = false :=
  isUnscoped_bound (Bound.fault_eq_of_mem_acts h)

theorem Value.isUnscoped_bindActs {v : Value} {label : Nat} {fault : Fault}
    (h : .fail fault ∈ v.bindActs label) : fault.isUnscoped = false := by
  refine Bound.isUnscoped_ofName ?_ (Bound.fault_eq_of_mem_acts h)
  intro other hother
  cases hother

namespace Node

variable {n : Node} {fault : Fault}

theorem isUnscoped_declare {v : Value} (h : .fail fault ∈ n.declare v) : fault.isUnscoped = false := by
  simp only [declare, List.mem_cons, reduceCtorEq, false_or] at h
  exact Value.isUnscoped_bindActs h

theorem isUnscoped_bindOwnName (h : .fail fault ∈ n.bindOwnName) : fault.isUnscoped = false := by
  refine Act.isUnscoped_after (scoped_ownName n) (fun name hname => ?_) h
  split at hname
  · simp at hname
  · exact Value.isUnscoped_bindActs hname

theorem isUnscoped_functionActs (h : .fail fault ∈ n.functionActs) : fault.isUnscoped = false := by
  simp only [functionActs, List.mem_cons, reduceCtorEq, false_or] at h
  refine Act.isUnscoped_after (scoped_membersOf n "params") (fun params hparams => ?_) h
  rcases List.mem_append.mp hparams with hparams | hname
  · obtain ⟨p, -, hp⟩ := List.mem_flatMap.mp hparams
    exact isUnscoped_boundActs hp
  · exact isUnscoped_bindOwnName hname

theorem isUnscoped_classActs (h : .fail fault ∈ n.classActs) : fault.isUnscoped = false := by
  simp only [classActs, List.mem_cons, reduceCtorEq, false_or] at h
  exact isUnscoped_bindOwnName h

end Node

namespace Visit

variable {v : Visit} {root : Node} {accepts : Node → Bool} {fault : Fault}

/-- With a scope around, none is missing. -/
theorem scoped_nearest (hs : ∃ s ∈ v.around, accepts s) : Scoped (v.nearest accepts) := by
  intro other h
  obtain ⟨scope, hscope⟩ := exists_nearest hs
  cases hscope.symm.trans h

theorem isUnscoped_declareOwnName (hs : ∃ s ∈ v.around, accepts s)
    (h : .fail fault ∈ v.declareOwnName accepts) : fault.isUnscoped = false := by
  refine Act.isUnscoped_after (scoped_ownName v.node) (fun name hname => ?_) h
  split at hname
  · simp at hname
  · exact Act.isUnscoped_after (scoped_nearest hs) (fun scope => Node.isUnscoped_declare) hname

theorem isUnscoped_variableActs (hs : ∃ s ∈ v.around, v.variableScope s) (h : .fail fault ∈ v.variableActs) :
    fault.isUnscoped = false := by
  refine Act.isUnscoped_after (scoped_nearest hs) (fun scope hscope => ?_) h
  simp only [List.mem_cons, reduceCtorEq, false_or] at hscope
  refine Act.isUnscoped_after (scoped_membersOf v.node "declarations") (fun ds hds => ?_) hscope
  obtain ⟨d, -, hd⟩ := List.mem_flatMap.mp hds
  exact Act.isUnscoped_after (scoped_member d "id") (fun p => isUnscoped_boundActs) hd

theorem isUnscoped_tryActs (h : .fail fault ∈ v.tryActs) : fault.isUnscoped = false := by
  unfold tryActs at h
  split at h
  · simp at h
  · simp only [List.mem_cons, reduceCtorEq, false_or] at h
    split at h
    · simp at h
    · exact isUnscoped_boundActs h
  · cases List.mem_singleton.mp h
    rfl

theorem isUnscoped_importActs (h : .fail fault ∈ v.importActs root) : fault.isUnscoped = false :=
  Act.isUnscoped_after ((scoped_require v.node "local").bind fun w => scoped_member w "name")
    (fun _ => Node.isUnscoped_declare) h

theorem isUnscoped_acts (hs : ∃ s ∈ v.around, s.isScope) (h : .fail fault ∈ v.acts root) :
    fault.isUnscoped = false := by
  cases mem_acts_iff.mp h with
  | ofVariables hk hact => exact isUnscoped_variableActs (exists_variableScope_of_isScope hs) hact
  | functionName hk hact => exact isUnscoped_declareOwnName hs hact
  | className hk hact => exact isUnscoped_declareOwnName (exists_isBlockScope_of_isScope hs) hact
  | ofFunction hk hact => exact Node.isUnscoped_functionActs hact
  | ofClass hk hact => exact Node.isUnscoped_classActs hact
  | ofHandler hk hact => exact isUnscoped_tryActs hact
  | ofImport hk hact => exact isUnscoped_importActs hact

end Visit

/-! ### Faults of searching and grouping -/

theorem scoped_binds (tables : Tables) (label : Nat) (x : Name) : Scoped (tables.binds label x) := by
  intro fault h
  unfold Tables.binds Value.hasName at h
  split at h <;> cases h
  rfl

theorem Visit.scoped_boundAround (tables : Tables) (x : Name) (around : List Node) :
    Scoped (boundAround tables x around) := by
  induction around with
  | nil =>
    intro fault h
    cases h
  | cons scope outer ih =>
    intro fault h
    unfold boundAround at h
    split at h
    · cases h
    · refine (scoped_binds tables scope.label x).bind (fun b => ?_) fault h
      intro other hother
      split at hother
      · cases hother
      · exact ih other hother

theorem Visit.scoped_reference? (tables : Tables) (v : Visit) : Scoped (v.reference? tables) := by
  unfold reference?
  split
  · refine ((scoped_require v.node "name").bind scoped_asName).bind fun x => ?_
    have hbinds : Scoped (v.binds tables x) := by
      intro fault h
      unfold binds at h
      split at h
      · cases h
      · exact scoped_boundAround tables x v.around fault h
    refine hbinds.bind fun b fault h => ?_
    split at h <;> cases h
  · intro fault h
    cases h
  · intro fault h
    cases h

theorem scoped_referencesOf (tables : Tables) (vs : List Visit) : Scoped (referencesOf tables vs) := by
  induction vs with
  | nil =>
    intro fault h
    cases h
  | cons v rest ih =>
    refine (v.scoped_reference? tables).bind fun first => ih.bind fun others fault h => ?_
    cases h

theorem scoped_references (tables : Tables) (n : Node) : Scoped (references tables n.toValue) := by
  intro fault h
  rw [references, walk_eq_visits rfl] at h
  split at h
  · rename_i other hother
    cases h
    exact scoped_referencesOf _ _ fault hother
  · rename_i hfault
    cases h
    exact isUnscoped_visits hfault
  · cases h

theorem scoped_withName (r : Reference) : Scoped r.withName := by
  have hname : Scoped r.name := by
    intro fault h
    unfold Reference.name at h
    split at h
    · cases h
    · exact (scoped_require r.node "name").bind scoped_asName fault h
  refine hname.bind fun x fault h => ?_
  cases h

theorem scoped_groups (refs : List Reference) : Scoped (groups refs) := by
  have hnamed : Scoped (refs.mapM Reference.withName) := by
    induction refs with
    | nil =>
      intro fault h
      cases h
    | cons r rest ih =>
      rw [List.mapM_cons]
      refine (scoped_withName r).bind fun p => ih.bind fun others fault h => ?_
      cases h
  refine hnamed.bind fun named fault h => ?_
  simp only at h
  split at h
  · cases h
  · cases h
    rfl

/-! ### Analyses -/

/-- No analysis of a program ends for want of a scope. -/
theorem Tree.scoped_analyze {t : Tree} (hp : t.isProgram) (name : Text) : Scoped (t.analyze name).result := by
  intro fault h
  obtain ⟨n, hroot, hk⟩ := Tree.isProgram_iff.mp hp
  rw [analyze_result_of_isProgram name hp, hroot] at h
  split at h
  · rename_i other hf
    cases h
    rw [buildScopes_fault] at hf
    obtain ⟨act, hact, hfault⟩ := List.exists_of_findSome?_eq_some hf
    have hact : .fail fault ∈ declarations n.toValue := by
      cases act <;> cases hfault
      exact hact
    rw [declarations_toValue] at hact
    rcases List.mem_append.mp hact with hact | hact
    · obtain ⟨v, hv, hact⟩ := List.mem_flatMap.mp hact
      rcases Node.program_or_isScope hk hv with hkind | hs
      · simp [Visit.acts, hkind] at hact
      · exact Visit.isUnscoped_acts hs hact
    · obtain ⟨other, hother, hfail⟩ := List.mem_map.mp hact
      cases hfail
      exact isUnscoped_visits (Option.mem_toList.mp hother)
  · exact (scoped_references _ n).bind scoped_groups fault h

end FreeNames
