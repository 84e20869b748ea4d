import FreeNames.Scope.Build
import Mathlib.Data.List.TakeWhile

/-!
# What performing acts does to the tables

Building is a list of acts that are performed in order. Each act that binds a name comes after one
that has created the table it is bound in; such lists are *guarded*. On a guarded list nothing can
go wrong but what an act itself gives as a failure, and the state that is reached can be read off
the list (`Building.run_eq`): a table that was created holds the names that were bound in it, a table
that the builder knew before holds these names besides its old ones, and all other slots stay.

What slots there were before the first act has no influence on where a list stops.
-/

namespace FreeNames

namespace Act

/-- The failure that an act is, if it is one. -/
def fault? : Act → Option Fault
  | fail fault => some fault
  | _ => none

/-- The name that an act binds in the node of a label, if it binds one there. -/
def nameFor? (label : Nat) : Act → Option Name
  | bind other name => if other = label then some name else none
  | _ => none

/-- The names that acts bind in the node of a label, in order. -/
def namesFor (label : Nat) (acts : List Act) : List Name := acts.filterMap (nameFor? label)

/-- The acts in front of the first failure. -/
def live (acts : List Act) : List Act := acts.takeWhile fun act => act.fault?.isNone

section

variable (label : Nat) (rest : List Act)

@[simp] theorem namesFor_nil : namesFor label [] = [] := rfl

@[simp] theorem namesFor_note (text : Text) : namesFor label (note text :: rest) = namesFor label rest := rfl

@[simp] theorem namesFor_create (other : Nat) :
    namesFor label (create other :: rest) = namesFor label rest := rfl

@[simp] theorem namesFor_reach (other : Nat) :
    namesFor label (reach other :: rest) = namesFor label rest := rfl

@[simp] theorem namesFor_fail (fault : Fault) :
    namesFor label (fail fault :: rest) = namesFor label rest := rfl

@[simp] theorem namesFor_bind (other : Nat) (name : Name) :
    namesFor label (bind other name :: rest) =
      if other = label then name :: namesFor label rest else namesFor label rest := by
  by_cases h : other = label <;> simp [namesFor, nameFor?, h]

theorem namesFor_append (as bs : List Act) :
    namesFor label (as ++ bs) = namesFor label as ++ namesFor label bs := List.filterMap_append

end

theorem mem_namesFor {label : Nat} {acts : List Act} {x : Name} :
    x ∈ namesFor label acts ↔ .bind label x ∈ acts := by
  simp only [namesFor, List.mem_filterMap]
  constructor
  · rintro ⟨act, hact, hx⟩
    cases act with
    | bind other name =>
      simp only [nameFor?] at hx
      split at hx
      · rename_i h; subst h; cases hx; exact hact
      · cases hx
    | _ => cases hx
  · intro h
    exact ⟨_, h, by simp [nameFor?]⟩

theorem live_eq_self {acts : List Act} (h : acts.findSome? fault? = none) : live acts = acts := by
  rw [List.findSome?_eq_none_iff] at h
  exact List.takeWhile_eq_self_iff.mpr fun act hact => by simp [h act hact]

/-! ### Acts that come to the same for a label -/

/-- The acts do the same to the table of a label. -/
structure SameFor (label : Nat) (as bs : List Act) : Prop where
  create : .create label ∈ as ↔ .create label ∈ bs
  names : namesFor label as = namesFor label bs

namespace SameFor

variable {label : Nat}

theorem symm {as bs : List Act} (h : SameFor label as bs) : SameFor label bs as := ⟨h.create.symm, h.names.symm⟩

theorem trans {as bs cs : List Act} (h : SameFor label as bs) (h' : SameFor label bs cs) :
    SameFor label as cs := ⟨h.create.trans h'.create, h.names.trans h'.names⟩

theorem append {as as' bs bs' : List Act} (ha : SameFor label as as') (hb : SameFor label bs bs') :
    SameFor label (as ++ bs) (as' ++ bs') := by
  constructor
  · simp only [List.mem_append, ha.create, hb.create]
  · simp only [namesFor_append, ha.names, hb.names]

/-- Acts that neither create the table nor bind in it are as good as none. -/
theorem nil_of_forall {as : List Act} (hc : .create label ∉ as) (hb : ∀ x, .bind label x ∉ as) :
    SameFor label as [] := by
  refine ⟨by simpa using hc, ?_⟩
  refine List.eq_nil_iff_forall_not_mem.mpr fun x hx => hb x (mem_namesFor.mp hx)

end SameFor

/-! ### Guarded acts -/

/-- Names are bound only in nodes that are known or whose table was created before. -/
def Guarded : List Nat → List Act → Prop
  | _, [] => True
  | known, create label :: rest => Guarded (label :: known) rest
  | known, reach label :: rest => label ∈ known ∧ Guarded known rest
  | known, bind label _ :: rest => label ∈ known ∧ Guarded known rest
  | known, note _ :: rest => Guarded known rest
  | known, fail _ :: rest => Guarded known rest

namespace Guarded

theorem mono {acts : List Act} : ∀ {known known' : List Nat}, known ⊆ known' →
    Guarded known acts → Guarded known' acts := by
  induction acts with
  | nil => intros; trivial
  | cons act rest ih =>
    intro known known' hsub h
    cases act with
    | create label => exact ih (List.cons_subset_cons label hsub) h
    | reach label => exact ⟨hsub h.1, ih hsub h.2⟩
    | bind label name => exact ⟨hsub h.1, ih hsub h.2⟩
    | note text => exact ih hsub h
    | fail fault => exact ih hsub h

theorem append {as bs : List Act} : ∀ {known : List Nat}, Guarded known as → Guarded known bs →
    Guarded known (as ++ bs) := by
  induction as with
  | nil => intro known _ hb; exact hb
  | cons act rest ih =>
    intro known ha hb
    cases act with
    | create label => exact ih ha (hb.mono (List.subset_cons_self label known))
    | reach label => exact ⟨ha.1, ih ha.2 hb⟩
    | bind label name => exact ⟨ha.1, ih ha.2 hb⟩
    | note text => exact ih ha hb
    | fail fault => exact ih ha hb

theorem flatMap {α : Type} {known : List Nat} {l : List α} {f : α → List Act}
    (h : ∀ a ∈ l, Guarded known (f a)) : Guarded known (l.flatMap f) := by
  induction l with
  | nil => trivial
  | cons a l ih =>
    obtain ⟨ha, hl⟩ := List.forall_mem_cons.mp h
    exact ha.append (ih hl)

theorem after {α : Type} {known : List Nat} {r : Except Fault α} {next : α → List Act}
    (h : ∀ a, r = .ok a → Guarded known (next a)) : Guarded known (Act.after r next) := by
  cases r with
  | ok a => exact h a rfl
  | error fault => trivial

theorem head {act : Act} {rest : List Act} {known : List Nat} (h : Guarded known (act :: rest)) :
    Guarded known [act] := by
  cases act with
  | reach label => exact ⟨h.1, trivial⟩
  | bind label name => exact ⟨h.1, trivial⟩
  | _ => trivial

/-- The other acts are guarded once the first one is done. -/
theorem tail {act : Act} {rest : List Act} {known known' : List Nat}
    (h : Guarded known (act :: rest)) (hsub : known ⊆ known')
    (hcreate : ∀ label, act = .create label → label ∈ known') : Guarded known' rest := by
  cases act with
  | create label => exact h.mono (List.cons_subset.mpr ⟨hcreate label rfl, hsub⟩)
  | reach label => exact h.2.mono hsub
  | bind label name => exact h.2.mono hsub
  | note text => exact h.mono hsub
  | fail fault => exact h.mono hsub

/-- In a node that is not known and whose table is not created, nothing is bound. -/
theorem namesFor_eq_nil {acts : List Act} {label : Nat} : ∀ {known : List Nat}, Guarded known acts →
    label ∉ known → .create label ∉ acts → namesFor label acts = [] := by
  induction acts with
  | nil => intros; rfl
  | cons act rest ih =>
    intro known h hk hc
    have hrest : .create label ∉ rest := fun h => hc (List.mem_cons_of_mem _ h)
    cases act with
    | create other =>
      refine ih h ?_ hrest
      rw [List.mem_cons, not_or]
      exact ⟨fun he => hc (he ▸ List.mem_cons_self), hk⟩
    | reach other => exact ih h.2 hk hrest
    | bind other name =>
      have hother : other ≠ label := fun he => hk (he ▸ h.1)
      rw [namesFor_bind, if_neg hother]
      exact ih h.2 hk hrest
    | note text => exact ih h hk hrest
    | fail fault => exact ih h hk hrest

end Guarded

end Act

/-! ### Performing acts -/

namespace Building

/-- The builder has seen to it that the nodes which it knows have tables. -/
def Sound (b : Building) : Prop := ∀ label ∈ b.known, ∃ set, b.tables.slot? label = some (.names set)

theorem sound_start (tables : Tables) : (start tables).Sound := by
  intro label h
  simp [start] at h

/-- What a builder has come to after acts that did not fail. -/
structure Performed (acts : List Act) (before after : Building) : Prop where
  /-- The builder knows the nodes whose tables it was to create. -/
  known : ∀ label, label ∈ after.known ↔ label ∈ before.known ∨ .create label ∈ acts
  /-- The table of a node that it knew before has more names. -/
  old : ∀ label set, label ∈ before.known → before.tables.slot? label = some (.names set) →
    after.tables.slot? label = some (.names ((Act.namesFor label acts).foldl NameSet.insert set))
  /-- A table that was created has the names that were bound in it. -/
  new : ∀ label, label ∉ before.known → .create label ∈ acts →
    after.tables.slot? label = some (.names (.ofList (Act.namesFor label acts)))
  /-- No other slot has changed. -/
  other : ∀ label, label ∉ before.known → .create label ∉ acts →
    after.tables.slot? label = before.tables.slot? label

theorem Performed.nil (b : Building) : Performed [] b b where
  known := by simp
  old := by intro label set _ h; simpa using h
  new := by simp
  other := by simp

theorem perform_create_of_mem {b : Building} {label : Nat} (hs : b.Sound) (h : label ∈ b.known) :
    b.perform (.create label) = .ok b := by
  obtain ⟨set, hset⟩ := hs label h
  simp [perform, create, h, hset]

theorem perform_create_of_not_mem {b : Building} {label : Nat} (h : label ∉ b.known) :
    b.perform (.create label) =
      .ok { b with tables := b.tables.set label (.names ∅), known := label :: b.known } := by
  simp [perform, create, h]

theorem reach_of_slot? {b : Building} {label : Nat} {set : NameSet}
    (h : b.tables.slot? label = some (.names set)) : b.reach label = .ok set := by
  simp [reach, Tables.table?, h]

theorem perform_bind {b : Building} {label : Nat} {set : NameSet} (name : Name)
    (h : b.tables.slot? label = some (.names set)) :
    b.perform (.bind label name) =
      .ok { b with tables := b.tables.set label (.names (set.insert name)) } := by
  simp [perform, bind, reach_of_slot? h]

/-- One act after others. -/
theorem Performed.append {as bs : List Act} {b c d : Building}
    (hg : Act.Guarded b.known as) (ha : Performed as b c) (hbs : Performed bs c d) :
    Performed (as ++ bs) b d where
  known := by
    intro label
    rw [hbs.known, ha.known, List.mem_append, or_assoc]
  old := by
    intro label set hk hset
    have hc := ha.old label set hk hset
    rw [hbs.old label _ ((ha.known label).mpr (.inl hk)) hc, Act.namesFor_append, List.foldl_append]
  new := by
    intro label hk hcreate
    by_cases has : .create label ∈ as
    · have hc := ha.new label hk has
      rw [hbs.old label _ ((ha.known label).mpr (.inr has)) hc, Act.namesFor_append, NameSet.ofList,
        NameSet.ofList, List.foldl_append]
    · -- The guard keeps the first acts from binding anything in this node.
      have hck : label ∉ c.known := by
        rw [ha.known]
        exact not_or.mpr ⟨hk, has⟩
      have hcreate := (List.mem_append.mp hcreate).resolve_left has
      rw [hbs.new label hck hcreate, Act.namesFor_append, hg.namesFor_eq_nil hk has, List.nil_append]
  other := by
    intro label hk hcreate
    obtain ⟨has, hcb⟩ := not_or.mp (mt List.mem_append.mpr hcreate)
    have hck : label ∉ c.known := by
      rw [ha.known]
      exact not_or.mpr ⟨hk, has⟩
    rw [hbs.other label hck hcb, ha.other label hk has]

/-- One act that is no failure, under its guard: it is performed. -/
theorem perform_eq_ok {act : Act} {b : Building} (hs : b.Sound) (hg : Act.Guarded b.known [act])
    (hf : act.fault? = none) :
    ∃ c, b.perform act = .ok c ∧ Performed [act] b c ∧ c.Sound := by
  cases act with
  | fail fault => cases hf
  | note text =>
    refine ⟨_, rfl, ?_, hs⟩
    exact ⟨by simp, by intro label set _ h; simpa using h, by simp, by simp⟩
  | reach label =>
    obtain ⟨set, hset⟩ := hs label hg.1
    refine ⟨b, ?_, ?_, hs⟩
    · simp [perform, reach_of_slot? hset]
    · exact ⟨by simp, by intro label set _ h; simpa using h, by simp, by simp⟩
  | create label =>
    by_cases hk : label ∈ b.known
    · refine ⟨b, perform_create_of_mem hs hk, ?_, hs⟩
      refine ⟨?_, ?_, ?_, ?_⟩
      · intro other
        simp only [List.mem_singleton, Act.create.injEq, iff_self_or]
        rintro rfl; exact hk
      · intro other set _ h
        simpa using h
      · intro other ho hc
        simp only [List.mem_singleton, Act.create.injEq] at hc
        exact absurd (hc ▸ hk) ho
      · intros; rfl
    · refine ⟨_, perform_create_of_not_mem hk, ?_, ?_⟩
      · refine ⟨?_, ?_, ?_, ?_⟩
        · intro other
          simp [or_comm]
        · intro other set ho h
          have hne : other ≠ label := fun he => hk (he ▸ ho)
          simpa [hne] using h
        · intro other _ hc
          simp only [List.mem_singleton, Act.create.injEq] at hc
          simp [hc, NameSet.ofList]
        · intro other _ hc
          simp only [List.mem_singleton, Act.create.injEq] at hc
          simp [hc]
      · intro other ho
        by_cases hne : other = label
        · exact ⟨∅, by simp [hne]⟩
        · obtain ⟨set, hset⟩ := hs other ((List.mem_cons.mp ho).resolve_left hne)
          exact ⟨set, by simpa [hne] using hset⟩
  | bind label name =>
    obtain ⟨set, hset⟩ := hs label hg.1
    refine ⟨_, perform_bind name hset, ?_, ?_⟩
    · refine ⟨by simp, ?_, by simp, ?_⟩
      · intro other old _ h
        by_cases hne : other = label
        · subst hne
          rw [hset] at h
          cases h
          simp
        · simpa [hne, Ne.symm hne] using h
      · intro other ho _
        have hne : other ≠ label := fun he => ho (he ▸ hg.1)
        simp [hne]
    · intro other ho
      by_cases hne : other = label
      · exact ⟨set.insert name, by simp [hne]⟩
      · obtain ⟨old, hold⟩ := hs other ho
        exact ⟨old, by simpa [hne] using hold⟩

/-- Guarded acts are performed up to the first one that is a failure. -/
theorem run_eq {acts : List Act} : ∀ {b : Building}, b.Sound → Act.Guarded b.known acts →
    (b.run acts).2 = acts.findSome? Act.fault? ∧
      Performed (Act.live acts) b (b.run acts).1 ∧ (b.run acts).1.Sound := by
  induction acts with
  | nil => intro b hs _; exact ⟨rfl, Performed.nil b, hs⟩
  | cons act rest ih =>
    intro b hs hg
    cases hf : act.fault? with
    | some fault =>
      cases act <;> cases hf
      exact ⟨rfl, Performed.nil b, hs⟩
    | none =>
      have hhead : Act.Guarded b.known [act] := hg.head
      obtain ⟨c, hc, hp, hcs⟩ := perform_eq_ok hs hhead hf
      have hrest : Act.Guarded c.known rest := by
        refine hg.tail (fun label hk => (hp.known label).mpr (.inl hk)) fun label he => ?_
        exact (hp.known label).mpr (.inr (he ▸ List.mem_cons_self))
      obtain ⟨hfault, hperf, hsound⟩ := ih hcs hrest
      have hrun : b.run (act :: rest) = c.run rest := by simp only [run, hc]
      have hlive : Act.live (act :: rest) = [act] ++ Act.live rest := by simp [Act.live, hf]
      rw [hrun, hlive, List.findSome?_cons, hf]
      exact ⟨hfault, hp.append hhead hperf, hsound⟩

end Building

/-! ### The acts of a tree are guarded -/

theorem Bound.guarded_acts (b : Bound) {label : Nat} {known : List Nat} (h : label ∈ known) :
    Act.Guarded known (b.acts label) := by
  refine Act.Guarded.append ?_ (Act.Guarded.flatMap fun fault _ => ?_)
  · induction b.names with
    | nil => trivial
    | cons name names ih => exact ⟨h, ih⟩
  · split
    · exact ⟨h, trivial⟩
    · trivial

theorem Node.guarded_declare (scope : Node) (name : Value) (known : List Nat) :
    Act.Guarded known (scope.declare name) := Bound.guarded_acts _ List.mem_cons_self

theorem Node.guarded_bindOwnName (n : Node) {known : List Nat} (h : n.label ∈ known) :
    Act.Guarded known n.bindOwnName := by
  refine Act.Guarded.after fun name _ => ?_
  split
  · trivial
  · exact Bound.guarded_acts _ h

theorem Node.guarded_functionActs (n : Node) (known : List Nat) : Act.Guarded known n.functionActs := by
  refine Act.Guarded.after fun params _ => Act.Guarded.append (Act.Guarded.flatMap fun p _ => ?_) ?_
  · exact Bound.guarded_acts _ List.mem_cons_self
  · exact n.guarded_bindOwnName List.mem_cons_self

theorem Node.guarded_classActs (n : Node) (known : List Nat) : Act.Guarded known n.classActs :=
  n.guarded_bindOwnName List.mem_cons_self

namespace Visit

theorem guarded_declareOwnName (v : Visit) (accepts : Node → Bool) (known : List Nat) :
    Act.Guarded known (v.declareOwnName accepts) := by
  refine Act.Guarded.after fun name _ => ?_
  split
  · trivial
  · exact Act.Guarded.after fun scope _ => scope.guarded_declare name known

theorem guarded_variableActs (v : Visit) (known : List Nat) : Act.Guarded known v.variableActs := by
  refine Act.Guarded.after fun scope _ => Act.Guarded.after fun declarators _ => ?_
  refine Act.Guarded.flatMap fun d _ => Act.Guarded.after fun pattern _ => ?_
  exact Bound.guarded_acts _ List.mem_cons_self

theorem guarded_tryActs (v : Visit) (known : List Nat) : Act.Guarded known v.tryActs := by
  unfold tryActs
  split
  · trivial
  · show Act.Guarded _ (ite _ _ _)
    split
    · trivial
    · exact Bound.guarded_acts _ List.mem_cons_self
  · trivial

theorem guarded_acts (root : Node) (v : Visit) (known : List Nat) :
    Act.Guarded known (v.acts root) := by
  unfold acts
  split
  · exact v.guarded_variableActs known
  · exact (v.guarded_declareOwnName _ known).append (v.node.guarded_functionActs known)
  · exact v.node.guarded_functionActs known
  · exact v.node.guarded_functionActs known
  · exact (v.guarded_declareOwnName _ known).append (v.node.guarded_classActs known)
  · exact v.node.guarded_classActs known
  · exact v.guarded_tryActs known
  · exact Act.Guarded.after fun name _ => root.guarded_declare name known
  · exact Act.Guarded.after fun name _ => root.guarded_declare name known
  · exact Act.Guarded.after fun name _ => root.guarded_declare name known
  · trivial

end Visit

theorem guarded_declarations (root : Value) (known : List Nat) :
    Act.Guarded known (declarations root) := by
  unfold declarations
  refine Act.Guarded.append ?_ ?_
  · split
    · exact Act.Guarded.flatMap fun v _ => v.guarded_acts _ known
    · trivial
  · cases (walk root).fault <;> trivial

/-! ### A new builder -/

section

variable (tables : Tables) (root : Value)

/-- Where building stops depends on the tree alone. -/
theorem buildScopes_fault : (buildScopes tables root).2 = (declarations root).findSome? Act.fault? :=
  (Building.run_eq (Building.sound_start tables) (guarded_declarations root _)).1

theorem performed_buildScopes :
    Building.Performed (Act.live (declarations root)) (Building.start tables)
      (buildScopes tables root).1 :=
  (Building.run_eq (Building.sound_start tables) (guarded_declarations root _)).2.1

end

section

variable {tables : Tables} {root : Value} {label : Nat} (hf : (buildScopes tables root).2 = none)
include hf

/-- A table that was to be created holds the names that were to be bound in it. -/
theorem slot?_buildScopes_of_create (h : .create label ∈ declarations root) :
    (buildScopes tables root).1.tables.slot? label =
      some (.names (.ofList (Act.namesFor label (declarations root)))) := by
  have hp := performed_buildScopes tables root
  rw [Act.live_eq_self (buildScopes_fault tables root ▸ hf)] at hp
  exact hp.new label List.not_mem_nil h

/-- Any other slot is as it was. -/
theorem slot?_buildScopes_of_not_create (h : .create label ∉ declarations root) :
    (buildScopes tables root).1.tables.slot? label = tables.slot? label := by
  have hp := performed_buildScopes tables root
  rw [Act.live_eq_self (buildScopes_fault tables root ▸ hf)] at hp
  exact hp.other label List.not_mem_nil h

end

end FreeNames
