import FreeNames.Proofs.CorrespondingAnalyses
import FreeNames.Proofs.Success
import Mathlib.Data.List.Sort

/-!
# The same parts in another order

A correspondence is `Rearranging` if nodes that belong together have the same children, up to their order, while
names and labels stay as they are. Walks of the two trees then meet the same visits, up to their order
(`Rearranging.entered`).

An analysis asks every visit for its acts and for its reference, and what a visit answers does not depend on the
visits before it. So one of the trees can be analysed if the other can (`Rearranging.exists_analyze_iff`). Then the
tables hold the same names, since a table is a set (`Rearranging.sameSlots_analyze`), and the same nodes are found
(`Rearranging.sameUpToOrder_analyze`).
-/

namespace FreeNames

/-! ### Rearranged lists -/

/-- The second list holds what belongs to the items of the first, in any order. -/
def Rearranged {α β : Type} (R : α → β → Prop) (l : List α) (l' : List β) : Prop :=
  ∃ same, List.Forall₂ R l same ∧ same.Perm l'

namespace Rearranged

variable {α β γ δ : Type} {R : α → β → Prop} {l : List α} {l' : List β}

theorem of_forall₂ (h : List.Forall₂ R l l') : Rearranged R l l' := ⟨l', h, .refl l'⟩

theorem trans_perm (h : Rearranged R l l') {m : List β} (hm : l'.Perm m) : Rearranged R l m := by
  obtain ⟨same, hsame, hperm⟩ := h
  exact ⟨same, hsame, hperm.trans hm⟩

theorem append (h : Rearranged R l l') {m : List α} {m' : List β} (hm : Rearranged R m m') :
    Rearranged R (l ++ m) (l' ++ m') := by
  obtain ⟨same, hsame, hperm⟩ := h
  obtain ⟨same', hsame', hperm'⟩ := hm
  exact ⟨same ++ same', List.rel_append hsame hsame', hperm.append hperm'⟩

theorem flatMap (h : Rearranged R l l') {S : γ → δ → Prop} {f : α → List γ} {g : β → List δ}
    (hfg : ∀ a ∈ l, ∀ b, R a b → Rearranged S (f a) (g b)) :
    Rearranged S (l.flatMap f) (l'.flatMap g) := by
  obtain ⟨same, hsame, hperm⟩ := h
  refine trans_perm ?_ (hperm.flatMap_right g)
  clear hperm
  induction hsame with
  | nil => exact of_forall₂ .nil
  | cons hab _ ih =>
    obtain ⟨hhead, hrest⟩ := List.forall_mem_cons.mp hfg
    exact (hhead _ hab).append (ih hrest)

theorem forall_iff (h : Rearranged R l l') {p : α → Prop} {q : β → Prop}
    (hpq : ∀ a ∈ l, ∀ b, R a b → (p a ↔ q b)) : (∀ a ∈ l, p a) ↔ ∀ b ∈ l', q b := by
  obtain ⟨same, hsame, hperm⟩ := h
  simp only [← hperm.mem_iff]
  clear hperm
  induction hsame with
  | nil => simp
  | cons hab _ ih =>
    obtain ⟨hhead, hrest⟩ := List.forall_mem_cons.mp hpq
    rw [List.forall_mem_cons, List.forall_mem_cons, hhead _ hab, ih hrest]

theorem exists_iff (h : Rearranged R l l') {p : α → Prop} {q : β → Prop}
    (hpq : ∀ a ∈ l, ∀ b, R a b → (p a ↔ q b)) : (∃ a ∈ l, p a) ↔ ∃ b ∈ l', q b := by
  rw [← not_iff_not]
  simp only [not_exists, not_and]
  exact h.forall_iff fun a ha b hab => not_congr (hpq a ha b hab)

/-- A choice that is the same for what belongs together chooses the same, up to the order. -/
theorem map_filter (h : Rearranged R l l') {S : γ → δ → Prop} {p : α → Bool} {q : β → Bool} {f : α → γ}
    {g : β → δ} (hpq : ∀ a ∈ l, ∀ b, R a b → p a = q b ∧ (p a → S (f a) (g b))) :
    Rearranged S ((l.filter p).map f) ((l'.filter q).map g) := by
  obtain ⟨same, hsame, hperm⟩ := h
  refine ⟨(same.filter q).map g, ?_, (hperm.filter q).map g⟩
  clear hperm
  induction hsame with
  | nil => exact .nil
  | cons hab _ ih =>
    obtain ⟨hhead, hrest⟩ := List.forall_mem_cons.mp hpq
    obtain ⟨hchosen, hvalue⟩ := hhead _ hab
    rw [List.filter_cons, List.filter_cons, ← hchosen]
    split
    · rename_i hp
      exact .cons (hvalue hp) (ih hrest)
    · exact ih hrest

theorem perm {l l' : List α} (h : Rearranged Eq l l') : l.Perm l' := by
  obtain ⟨same, hsame, hperm⟩ := h
  rw [List.forall₂_eq_eq_eq] at hsame
  exact hsame ▸ hperm

end Rearranged

/-! ### Slots with the same names -/

/-- The slots are the same, or both hold tables with the same names. -/
inductive SameSlots : Option Value → Option Value → Prop where
  | refl (slot : Option Value) : SameSlots slot slot
  | names {s s' : NameSet} (h : ∀ x, x ∈ s ↔ x ∈ s') : SameSlots (some (.names s)) (some (.names s'))

/-- Slots with the same names give the same answers. -/
theorem SameSlots.binds_eq {t t' : Tables} {label : Nat} (h : SameSlots (t.slot? label) (t'.slot? label))
    (x : Name) : t'.binds label x = t.binds label x := by
  unfold Tables.binds
  generalize t.slot? label = slot, t'.slot? label = slot' at h
  cases h with
  | refl => rfl
  | names h => simp only [Option.getD_some, Value.hasName, h x]

/-! ### Groups with the same nodes -/

/-- The references are the same node. -/
def Reference.SameNode (r r' : Reference) : Prop := r.node = r'.node

/-- A reference has the name of its node. -/
theorem Reference.SameNode.name_eq {r r' : Reference} (h : r.SameNode r') : r.name = r'.name := by
  have hnode : r.node = r'.node := h
  unfold name isThis
  rw [hnode]

/-- The groups have the same name and the same nodes, up to their order. -/
structure Group.SameUpToOrder (g g' : Group) : Prop where
  name : g'.name.key = g.name.key
  nodes : (g.references.map Reference.node).Perm (g'.references.map Reference.node)

/-- Two sets with the same members have the same keys in the same order. -/
theorem NameSet.keys_eq_of_forall_mem_iff {s t : NameSet} (h : ∀ x, x ∈ s ↔ x ∈ t) : s.keys = t.keys := by
  have hsub : ∀ {s t : NameSet}, (∀ x, x ∈ s → x ∈ t) → ∀ k ∈ s.keys, k ∈ t.keys := by
    intro s t h k hk
    obtain ⟨x, hx, rfl⟩ := List.mem_map.mp hk
    exact mem_iff_key_mem.mp (h x ⟨x, hx, rfl⟩)
  exact s.sorted_keys.eq_of_mem_iff t.sorted_keys fun k =>
    ⟨hsub (fun x => (h x).mp) k, hsub (fun x => (h x).mpr) k⟩

section

variable {refs refs' : List Reference} (h : Rearranged Reference.SameNode refs refs')
include h

theorem exists_groups_iff_of_rearranged :
    (∃ found, groups refs = .ok found) ↔ ∃ found, groups refs' = .ok found := by
  rw [exists_groups_iff, exists_groups_iff]
  exact exists_congr fun sort => h.forall_iff fun r _ r' hr => by rw [hr.name_eq]

/-- The same nodes are grouped in the same way. -/
theorem sameUpToOrder_of_groups {found found' : List Group} (hg : groups refs = .ok found)
    (hg' : groups refs' = .ok found') : List.Forall₂ Group.SameUpToOrder found found' := by
  obtain ⟨names, rfl, hnames⟩ := exists_names_of_groups hg
  obtain ⟨names', rfl, hnames'⟩ := exists_names_of_groups hg'
  have hnamed : ∀ {r r' : Reference}, r.SameNode r' → ∀ {x x' : Name}, x'.key = x.key →
      r.isNamed x = r'.isNamed x' := by
    intro r r' hr x x' hkey
    rw [Bool.eq_iff_iff, Reference.isNamed_iff, Reference.isNamed_iff, hr.name_eq, hkey]
  have hkeys : names.keys = names'.keys := by
    refine NameSet.keys_eq_of_forall_mem_iff fun x => ?_
    rw [hnames, hnames']
    exact h.exists_iff fun r _ r' hr => by rw [hnamed hr rfl]
  rw [List.forall₂_map_left_iff, List.forall₂_map_right_iff]
  rw [NameSet.keys, NameSet.keys, ← List.forall₂_eq_eq_eq, List.forall₂_map_left_iff,
    List.forall₂_map_right_iff] at hkeys
  refine hkeys.imp fun x x' hkey => ⟨hkey.symm, (h.map_filter fun r _ r' hr => ?_).perm⟩
  exact ⟨hnamed hr hkey.symm, fun _ => hr⟩

end

/-- Groups of the same names have the same names in writing, if these are texts. -/
theorem map_name_eq_of_sameUpToOrder {found found' : List Group}
    (h : List.Forall₂ Group.SameUpToOrder found found') (htext : ∀ g ∈ found, ∃ s, g.name = .text s) :
    found'.map Group.name = found.map Group.name := by
  induction h with
  | nil => rfl
  | @cons g g' _ _ hg _ ih =>
    obtain ⟨⟨s, hs⟩, hrest⟩ := List.forall_mem_cons.mp htext
    have hkey := hg.name
    rw [hs] at hkey
    rw [List.map_cons, List.map_cons, ih hrest, hs, Name.eq_text_of_key hkey]

/-! ### Trees with rearranged children -/

namespace Correspondence

variable {C : Correspondence}

/-- Corresponding acts fail, or neither do. -/
theorem Acts.clean_iff {as bs : List Act} (h : C.Acts as bs) : Act.Clean as ↔ Act.Clean bs := by
  have hfault := h.fault
  rw [Act.clean_iff_findSome?_eq_none, Act.clean_iff_findSome?_eq_none]
  generalize as.findSome? Act.fault? = o, bs.findSome? Act.fault? = o' at hfault
  cases hfault <;> simp

/-- Nodes that belong together have the same children, up to their order. Names and labels stay as they are. -/
structure Rearranging (C : Correspondence) : Prop extends C.Faithful where
  names : C.names = .identity
  labels : ∀ label, C.labels label label
  params : ∀ {n n' : Node}, C.nodes n n' →
    Option.Rel C.values (n.fields.lookup "params") (n'.fields.lookup "params")
  children : ∀ {n n' : Node} {k : Kind}, C.nodes n n' → n.kind? = some k →
    Rearranged C.values (n.children k) (n'.children k)

namespace Rearranging

variable (hC : C.Rearranging)
include hC

/-- Walks of what belongs together both end with a fault, or neither does. -/
theorem visits_fault_eq_none_iff {v w : Value} (h : C.values v w) (around around' : List Node) :
    (visits v around).fault = none ↔ (visits w around').fault = none := by
  induction v, around using visits_induction generalizing w around' with
  | plain v around hn =>
    rw [visits_of_node?_eq_none hn, visits_of_node?_eq_none (hC.node?_eq_none h hn)]
  | unknown n fault around hk =>
    obtain ⟨n', rfl, hnn⟩ := hC.exists_node h
    have hkind := hC.enteredKind hnn
    rw [hk] at hkind
    generalize hk' : n'.enteredKind = r at hkind
    cases hkind with
    | error =>
      rw [visits_of_enteredKind_eq_error hk, visits_of_enteredKind_eq_error hk']
      simp [Trace.failed]
  | node n k around hk ih =>
    obtain ⟨n', rfl, hnn⟩ := hC.exists_node h
    rw [visits_toValue_fault_eq_none_iff hk, visits_toValue_fault_eq_none_iff (hC.enteredKind_eq_ok hnn hk)]
    exact (hC.children hnn (Node.kind?_of_enteredKind hk)).forall_iff fun w hw w' hww => ih w hw hww _

/-- Walks without a fault meet what belongs together, up to the order. -/
theorem visits {v w : Value} (h : C.values v w) {around around' : List Node}
    (ha : List.Forall₂ C.nodes around around') (hf : (visits v around).fault = none) :
    Rearranged C.Visits (FreeNames.visits v around).visits (FreeNames.visits w around').visits := by
  induction v, around using visits_induction generalizing w around' with
  | plain v around hn =>
    rw [visits_of_node?_eq_none hn] at hf
    cases hf
  | unknown n fault around hk =>
    rw [visits_of_enteredKind_eq_error hk] at hf
    cases hf
  | node n k around hk ih =>
    have hf' := (hC.visits_fault_eq_none_iff h around around').mp hf
    obtain ⟨n', rfl, hnn⟩ := hC.exists_node h
    rw [visits_of_fault_eq_none hk hf, visits_of_fault_eq_none (hC.enteredKind_eq_ok hnn hk) hf']
    have hself : C.Visits ⟨n, k, around⟩ ⟨n', k, around'⟩ := ⟨hnn, rfl, ha⟩
    refine (Rearranged.of_forall₂ (.cons hself .nil)).append ?_
    refine (hC.children hnn (Node.kind?_of_enteredKind hk)).flatMap fun w hw w' hww => ?_
    exact ih w hw hww (.cons hnn ha) (visits_child_fault_eq_none hk hf hw)

section

variable {root root' : Node} (hroot : C.nodes root root')
include hroot

theorem entered (hf : (FreeNames.visits root.toValue []).fault = none) :
    Rearranged C.Visits root.entered root'.entered := hC.visits hroot .nil hf

theorem acts {v v' : Visit} (h : C.Visits v v') : C.Acts (v.acts root) (v'.acts root') :=
  hC.toFaithful.acts h hroot fun _ => hC.params h.node

/-- A build of one of the trees fails if one of the other does. -/
theorem buildScopes_fault_eq_none_iff (tables tables' : Tables) :
    (buildScopes tables root.toValue).2 = none ↔ (buildScopes tables' root'.toValue).2 = none := by
  rw [buildScopes_fault_eq_none_iff_clean, buildScopes_fault_eq_none_iff_clean,
    ← hC.visits_fault_eq_none_iff hroot []]
  refine and_congr_right fun hf => ?_
  exact (hC.entered hroot hf).forall_iff fun v _ v' hv => (hC.acts hroot hv).clean_iff

/-- The tables hold the same names: which tables are made, and which names are bound in them, is a matter of
what is met and not of when. -/
theorem sameSlots_buildScopes {tables : Tables} (hf : (buildScopes tables root.toValue).2 = none)
    (label : Nat) :
    SameSlots ((buildScopes tables root.toValue).1.tables.slot? label)
      ((buildScopes tables root'.toValue).1.tables.slot? label) := by
  have hf' := (hC.buildScopes_fault_eq_none_iff hroot tables tables).mp hf
  obtain ⟨hfault, hclean⟩ := buildScopes_fault_eq_none_iff_clean.mp hf
  have hfault' := (buildScopes_fault_eq_none_iff_clean.mp hf').1
  have hvisits := hC.entered hroot hfault
  have hsame : ∀ v ∈ root.entered, ∀ v', C.Visits v v' → Act.SameFor label (v.acts root) (v'.acts root') :=
    fun v hv v' hvv => hC.sameFor hC.names (hC.labels label) (hC.acts hroot hvv) (hclean v hv)
  have hcreate : .create label ∈ declarations root.toValue ↔ .create label ∈ declarations root'.toValue := by
    rw [declarations_of_fault_eq_none hfault, declarations_of_fault_eq_none hfault', List.mem_flatMap,
      List.mem_flatMap]
    exact hvisits.exists_iff fun v hv v' hvv => (hsame v hv v' hvv).create
  have hnames : ∀ x, x ∈ Act.namesFor label (declarations root.toValue) ↔
      x ∈ Act.namesFor label (declarations root'.toValue) := by
    intro x
    rw [Act.mem_namesFor, Act.mem_namesFor, declarations_of_fault_eq_none hfault,
      declarations_of_fault_eq_none hfault', List.mem_flatMap, List.mem_flatMap]
    refine hvisits.exists_iff fun v hv v' hvv => ?_
    rw [← Act.mem_namesFor, ← Act.mem_namesFor, (hsame v hv v' hvv).names]
  by_cases hc : .create label ∈ declarations root.toValue
  · rw [slot?_buildScopes_of_create hf hc, slot?_buildScopes_of_create hf' (hcreate.mp hc)]
    refine .names fun x => ?_
    simp only [NameSet.mem_ofList, hnames]
  · rw [slot?_buildScopes_of_not_create hf hc, slot?_buildScopes_of_not_create hf' (mt hcreate.mpr hc)]
    exact .refl _

end

/-- Slots with the same names answer what corresponds. -/
theorem answers {tables tables' : Tables}
    (h : ∀ label, SameSlots (tables.slot? label) (tables'.slot? label)) : C.Answers tables tables' := by
  intro l l' hl x
  obtain rfl : l = l' := (hC.unique (hC.labels l) hl).mp rfl
  rw [hC.names, Name.rename_identity]
  exact (h l).binds_eq x

section

variable {root root' : Node} (hroot : C.nodes root root') {tables tables' : Tables}
  (ht : C.Answers tables tables')
include hroot ht

theorem exists_references_iff :
    (∃ refs, references tables root.toValue = .ok refs) ↔
      ∃ refs, references tables' root'.toValue = .ok refs := by
  simp only [references_eq_ok_iff, exists_and_right, exists_referencesOf_iff]
  rw [← hC.visits_fault_eq_none_iff hroot []]
  refine and_congr_left fun hf => (hC.entered hroot hf).forall_iff fun v _ v' hv => ?_
  have href := hC.reference? (ht.around v.around) hv
  generalize v.reference? tables = r, v'.reference? tables' = r' at href
  cases href <;> simp

/-- The same references are found, up to their order, if those that belong together are the same node. -/
theorem references {refs refs' : List Reference}
    (hnode : ∀ v ∈ root.entered, ∀ v', C.Visits v v' → v.IsUnbound tables → v.node = v'.node)
    (h : references tables root.toValue = .ok refs)
    (h' : FreeNames.references tables' root'.toValue = .ok refs') :
    Rearranged Reference.SameNode refs refs' := by
  classical
  obtain ⟨hrefs, hf⟩ := references_eq_ok_iff.mp h
  rw [referencesOf_eq_ok hrefs, referencesOf_eq_ok (references_eq_ok_iff.mp h').1]
  refine (hC.entered hroot hf).map_filter fun v hv v' hvv => ⟨?_, fun hunbound => ?_⟩
  · rw [decide_eq_decide]
    exact hC.isUnbound_iff (ht.around v.around) hvv
  · exact hnode v hv v' hvv (of_decide_eq_true hunbound)

end

/-! ### Analyses -/

section

variable {t t' : Tree} {root root' : Node} (hr : t.root = root.toValue) (hr' : t'.root = root'.toValue)
  (hroot : C.nodes root root') (htables : t'.tables = t.tables) (name : Text)
include hr hr' hroot htables

theorem sameSlots_analyze {found : List Group} (h : (t.analyze name).result = .ok found) (label : Nat) :
    SameSlots ((t.analyze name).tree.tables.slot? label) ((t'.analyze name).tree.tables.slot? label) := by
  obtain ⟨hp, hf, -⟩ := Tree.analyze_result_eq_ok_iff.mp h
  have hp' : t'.isProgram := (hC.isProgram (by rw [hr, hr']; exact hroot)).trans hp
  rw [Tree.analyze_tables name hp, Tree.analyze_tables name hp', htables, hr']
  rw [hr] at hf ⊢
  exact hC.sameSlots_buildScopes hroot hf label

section

-- What is found can only be compared node by node if a reference belongs to itself.
variable (hnode : ∀ v ∈ root.entered, ∀ v', C.Visits v v' →
  v.kind = .identifier ∨ v.kind = .thisExpression → v.node = v'.node)
include hnode

theorem rearranged_references (hf : (buildScopes t.tables t.root).2 = none) {refs refs' : List Reference}
    (h : FreeNames.references (buildScopes t.tables t.root).1.tables t.root = .ok refs)
    (h' : FreeNames.references (buildScopes t'.tables t'.root).1.tables t'.root = .ok refs') :
    Rearranged Reference.SameNode refs refs' := by
  rw [hr] at hf h
  rw [hr', htables] at h'
  have ht := hC.answers (hC.sameSlots_buildScopes hroot hf)
  exact hC.references hroot ht (fun v hv v' hvv hunbound => hnode v hv v' hvv hunbound.kind) h h'

/-- One of the trees can be analysed if the other can. -/
theorem exists_analyze_iff :
    (∃ found, (t.analyze name).result = .ok found) ↔ ∃ found, (t'.analyze name).result = .ok found := by
  have hprogram : t'.isProgram = t.isProgram := hC.isProgram (by rw [hr, hr']; exact hroot)
  have hbuild : (buildScopes t.tables t.root).2 = none ↔ (buildScopes t'.tables t'.root).2 = none := by
    rw [hr, hr']
    exact hC.buildScopes_fault_eq_none_iff hroot _ _
  simp only [Tree.analyze_result_eq_ok_iff, exists_and_left, hprogram, ← hbuild]
  refine and_congr_right fun _ => and_congr_right fun hf => ?_
  have hsearch : (∃ refs, FreeNames.references (buildScopes t.tables t.root).1.tables t.root = .ok refs) ↔
      ∃ refs, FreeNames.references (buildScopes t'.tables t'.root).1.tables t'.root = .ok refs := by
    rw [hr', htables]
    rw [hr] at hf ⊢
    exact hC.exists_references_iff hroot (hC.answers (hC.sameSlots_buildScopes hroot hf))
  constructor
  · rintro ⟨found, refs, hrefs, hgroups⟩
    obtain ⟨refs', hrefs'⟩ := hsearch.mp ⟨refs, hrefs⟩
    have hsame := hC.rearranged_references hr hr' hroot htables hnode hf hrefs hrefs'
    obtain ⟨found', hgroups'⟩ := (exists_groups_iff_of_rearranged hsame).mp ⟨found, hgroups⟩
    exact ⟨found', refs', hrefs', hgroups'⟩
  · rintro ⟨found', refs', hrefs', hgroups'⟩
    obtain ⟨refs, hrefs⟩ := hsearch.mpr ⟨refs', hrefs'⟩
    have hsame := hC.rearranged_references hr hr' hroot htables hnode hf hrefs hrefs'
    obtain ⟨found, hgroups⟩ := (exists_groups_iff_of_rearranged hsame).mpr ⟨found', hgroups'⟩
    exact ⟨found, refs, hrefs, hgroups⟩

/-- Both analyses find the same nodes under the same names. -/
theorem sameUpToOrder_analyze {found found' : List Group} (h : (t.analyze name).result = .ok found)
    (h' : (t'.analyze name).result = .ok found') : List.Forall₂ Group.SameUpToOrder found found' := by
  obtain ⟨-, hf, refs, hrefs, hgroups⟩ := Tree.analyze_result_eq_ok_iff.mp h
  obtain ⟨-, -, refs', hrefs', hgroups'⟩ := Tree.analyze_result_eq_ok_iff.mp h'
  have hsame := hC.rearranged_references hr hr' hroot htables hnode hf hrefs hrefs'
  exact sameUpToOrder_of_groups hsame hgroups hgroups'

end

end

end Rearranging

end Correspondence

end FreeNames
