import FreeNames.Proofs.CorrespondingAnalyses
import FreeNames.Proofs.Frame

/-!
# Renaming a program

To rename a program is to rename the texts in the fields `name` of its objects and the names in its tables.
The renamed program corresponds to the program (`Renaming.complete`), and so an analysis comes to the same on
both, up to the renaming: it fails with the same fault, or it builds the renamed tables and reports the renamed
references. Only the order of the groups is that of the new names.

A fault can quote values of the tree, and a renaming reaches what stands in them. A text or an object in the
place of a table has names too, but they are no set, and a renaming does not reach them.
-/

namespace FreeNames

/-! ### Renamed values -/

namespace Value

/-- The value of a field of a name after a renaming of what can be a name there. -/
def renamedIn (f : Renaming) (name : String) : Value → Value
  | text t => if name = "name" then text (f.map t) else text t
  | names set => if name = tableField then names (set.rename f) else names set
  | v => v

mutual
/-- The value with the names of its objects renamed, and the names in their tables. -/
def rename (f : Renaming) : Value → Value
  | array items => array (renameItems f items)
  | object label fields => object label (renameFields f fields)
  | v => v

/-- Array items with the names in them renamed. -/
def renameItems (f : Renaming) : List Value → List Value
  | [] => []
  | v :: rest => v.rename f :: renameItems f rest

/-- Fields with the names in them renamed. -/
def renameFields (f : Renaming) : List (String × Value) → List (String × Value)
  | [] => []
  | (name, v) :: rest => (name, (v.rename f).renamedIn f name) :: renameFields f rest
end

/-- What stands in the slot of a node after a renaming. -/
def renameSlot (f : Renaming) (v : Value) : Value := (v.rename f).renamedIn f tableField

/-- The value has names in it that are not in a set: a text has those that stand somewhere in it, an array
has its items and an object its field names. -/
def spellsNames : Value → Bool
  | text _ | array _ | object .. => true
  | _ => false

theorem renamedIn_of_ne {f : Renaming} {name : String} (h : name ≠ "name") (h' : name ≠ tableField)
    (v : Value) : v.renamedIn f name = v := by
  cases v <;> simp [renamedIn, h, h']

/-- A value in the place of a name is renamed as a name. -/
theorem name?_rename (f : Renaming) (v : Value) :
    ((v.rename f).renamedIn f "name").name? = v.name?.map (Name.rename f) := by
  cases v <;> simp [rename, renamedIn, name?, Name.rename, tableField]

theorem renameItems_eq_map (f : Renaming) (items : List Value) :
    renameItems f items = items.map (rename f) := by
  induction items with
  | nil => rfl
  | cons v rest ih => rw [renameItems, ih, List.map_cons]

theorem lookup_renameFields (f : Renaming) (name : String) (fields : List (String × Value)) :
    (renameFields f fields).lookup name = (fields.lookup name).map fun v => (v.rename f).renamedIn f name := by
  induction fields with
  | nil => rfl
  | cons field rest ih =>
    obtain ⟨other, v⟩ := field
    rw [renameFields, List.lookup_cons, List.lookup_cons, ih]
    split
    · rename_i h
      rw [beq_iff_eq.mp h]
      rfl
    · rfl

mutual
/-- Where there is no object, there is nothing to rename. -/
theorem rename_of_nodes_eq_nil (f : Renaming) : ∀ {v : Value}, v.nodes = [] → v.rename f = v
  | array items, h => by rw [rename, renameItems_of_nodes_eq_nil f h]
  | object .., h => by cases h
  | null, _ | bool _, _ | int _, _ | float _, _ | text _, _ | names _, _ => rfl

theorem renameItems_of_nodes_eq_nil (f : Renaming) : ∀ {items : List Value}, nodesOfItems items = [] →
    renameItems f items = items
  | [], _ => rfl
  | v :: rest, h => by
    obtain ⟨hv, hrest⟩ := List.append_eq_nil_iff.mp h
    rw [renameItems, rename_of_nodes_eq_nil f hv, renameItems_of_nodes_eq_nil f hrest]
end

end Value

/-- The node with the names in it renamed. -/
def Node.rename (f : Renaming) (n : Node) : Node := ⟨n.label, Value.renameFields f n.fields⟩

theorem Node.rename_toValue (f : Renaming) (n : Node) : n.toValue.rename f = (n.rename f).toValue := by
  rw [toValue, Value.rename]
  rfl

/-- The slots with the names in them renamed. -/
def Tables.rename (f : Renaming) (t : Tables) : Tables :=
  ⟨t.slots.map fun slot => (slot.1, slot.2.renameSlot f)⟩

theorem Tables.slot?_rename (f : Renaming) (t : Tables) (label : Nat) :
    (t.rename f).slot? label = (t.slot? label).map (Value.renameSlot f) := by
  obtain ⟨slots⟩ := t
  simp only [slot?, rename]
  induction slots with
  | nil => rfl
  | cons slot rest ih =>
    rw [List.map_cons, List.lookup_cons, List.lookup_cons, ih]
    split <;> rfl

/-- The renamed tree. -/
def Tree.rename (f : Renaming) (t : Tree) : Tree :=
  { t with root := t.root.rename f, tables := t.tables.rename f }

/-- The renamed reference. -/
def Reference.rename (f : Renaming) (r : Reference) : Reference :=
  ⟨r.node.rename f, r.around.map (Node.rename f)⟩

/-- The renamed group. -/
def Group.rename (f : Renaming) (g : Group) : Group := ⟨g.name.rename f, g.references.map (Reference.rename f)⟩

/-! ### A renamed tree corresponds to the tree -/

/-- The kinds enter neither names nor tables. -/
theorem Kind.not_mem_entered (k : Kind) : "name" ∉ k.entered ∧ tableField ∉ k.entered := by
  cases k <;> simp [entered, tableField]

namespace Renaming

variable (f : Renaming)

/-- Every value belongs to the renamed value. -/
def correspondence : Correspondence := ⟨f, Eq, fun v w => w = v.rename f⟩

theorem rel_lookup {name : String} (h : name ≠ "name") (h' : name ≠ tableField)
    (fields : List (String × Value)) :
    Option.Rel f.correspondence.values (fields.lookup name) ((Value.renameFields f fields).lookup name) := by
  rw [Value.lookup_renameFields]
  cases fields.lookup name with
  | none => exact .none
  | some v => exact .some (Value.renamedIn_of_ne h h' _)

theorem reads (n : Node) : f.correspondence.Reads n (n.rename f) where
  label := rfl
  isEmpty := by
    obtain ⟨label, fields⟩ := n
    cases fields <;> simp [Node.rename, Value.renameFields]
  name := by
    rw [Node.rename, Value.lookup_renameFields]
    cases n.fields.lookup "name" with
    | none => exact .none
    | some v => exact .some (Value.name?_rename f v)
  field name hname := f.rel_lookup (by rintro rfl; revert hname; decide)
    (by rintro rfl; revert hname; decide) n.fields

theorem complete : f.correspondence.Complete where
  null := rfl
  shape := by
    rintro v w rfl
    cases v with
    | array items =>
      rw [Value.rename, Value.renameItems_eq_map]
      exact .array (List.forall₂_map_right_iff.mpr (List.forall₂_same.mpr fun _ _ => rfl))
    | object label fields =>
      rw [Value.rename]
      exact .node (f.reads ⟨label, fields⟩)
    | _ => exact .atom rfl
  unique := by
    rintro a b a' b' rfl rfl
    rfl
  params := by
    intro n n' h
    obtain rfl : n' = n.rename f := Node.toValue_injective (h.trans (n.rename_toValue f))
    exact f.rel_lookup (by decide) (by decide) n.fields
  entered := by
    intro n n' k h _ name hname
    obtain rfl : n' = n.rename f := Node.toValue_injective (h.trans (n.rename_toValue f))
    have hmem : name ∈ k.entered := by
      unfold Node.enteredFields at hname
      split at hname
      · exact hname
      · exact (List.mem_filter.mp hname).1
    exact f.rel_lookup (fun h => k.not_mem_entered.1 (h ▸ hmem)) (fun h => k.not_mem_entered.2 (h ▸ hmem))
      n.fields

/-- Renamed tables bind the renamed names, where all names in them are in sets. -/
theorem answers {t : Tables} (h : ∀ label, ∀ slot ∈ t.slot? label, slot.spellsNames = false) :
    f.correspondence.Answers t (t.rename f) := by
  rintro label label' rfl x
  show (t.rename f).binds label (x.rename f) = t.binds label x
  unfold Tables.binds
  rw [Tables.slot?_rename]
  cases hslot : t.slot? label with
  | none => rfl
  | some slot =>
    have hspells := h label slot hslot
    cases slot with
    | text => cases hspells
    | array => cases hspells
    | object => cases hspells
    | names set =>
      simp [Value.renameSlot, Value.rename, Value.renamedIn, Value.hasName, NameSet.mem_rename]
    | _ => cases x <;> rfl

/-! ### What corresponds is renamed -/

theorem eq_map_of_forall₂ {α : Type} {R : α → α → Prop} {l l' : List α} (h : List.Forall₂ R l l') {g : α → α}
    (hR : ∀ a b, R a b → b = g a) : l' = l.map g := by
  induction h with
  | nil => rfl
  | cons h _ ih => rw [List.map_cons, hR _ _ h, ih]

variable {f}

theorem eq_rename_of_nodes {n n' : Node} (h : f.correspondence.nodes n n') : n' = n.rename f :=
  Node.toValue_injective (h.trans (n.rename_toValue f))

theorem eq_rename_of_references {r r' : Reference} (h : f.correspondence.References r r') : r' = r.rename f :=
  congrArg₂ Reference.mk (eq_rename_of_nodes h.node) (eq_map_of_forall₂ h.around fun _ _ => eq_rename_of_nodes)

theorem eq_rename_of_groups {g g' : Group} (h : f.correspondence.Groups g g') : g' = g.rename f :=
  congrArg₂ Group.mk h.name (eq_map_of_forall₂ h.references fun _ _ => eq_rename_of_references)

theorem eq_map_of_faults {fault fault' : Fault} (h : f.correspondence.Faults fault fault') :
    fault' = fault.map (Value.rename f) := by
  have hid : fault'.map id = fault' := by
    cases fault' with
    | breach cause position => cases cause <;> cases position <;> rfl
    | _ => rfl
  rw [← hid]
  exact h.map_eq fun _ _ hvw => hvw

end Renaming

/-! ### Equivariance -/

/-- Slots after an analysis of the renamed program are the renamed slots. -/
theorem Tree.slot?_analyze_rename (f : Renaming) {t : Tree} (hp : t.isProgram) (name : Text) (label : Nat) :
    ((t.rename f).analyze name).tree.tables.slot? label =
      ((t.analyze name).tree.tables.slot? label).map (Value.renameSlot f) := by
  have hC := f.complete
  have hroot : f.correspondence.values t.root (t.rename f).root := rfl
  rw [analyze_tables name hp, analyze_tables name ((hC.isProgram hroot).trans hp)]
  rcases hC.slot?_buildScopes hroot t.tables (t.rename f).tables (Eq.refl label) with
    ⟨set, hs, hs'⟩ | ⟨hs, hs'⟩
  · rw [hs, hs']
    rfl
  · rw [hs, hs', Tree.rename, Tables.slot?_rename]

/-- **Renaming equivariance.** Let all names in the tables of a tree be in sets. If the analysis of the tree
fails, that of the renamed tree fails with the same fault, up to a renaming of what the fault quotes, and
exactly the same if it quotes no object. If it succeeds, so does that of the renamed tree. Every slot is then
the renamed slot, the references are the renamed references in the same order, and the groups are the renamed
groups, each with its references in the same order, but sorted by their new names. -/
theorem renamed_analysis (f : Renaming) (t : Tree)
    (hslots : ∀ label, ∀ slot ∈ t.tables.slot? label, slot.spellsNames = false) (name : Text) :
    (∀ fault, (t.analyze name).result = .error fault →
      ((t.rename f).analyze name).result = .error (fault.map (Value.rename f)) ∧
        ((∀ v ∈ fault.quoted, v.nodes = []) → fault.map (Value.rename f) = fault)) ∧
    ∀ found, (t.analyze name).result = .ok found →
      ∃ (refs : List Reference) (found' : List Group),
        t.Reports refs ∧ (t.rename f).Reports (refs.map (Reference.rename f)) ∧
        ((t.rename f).analyze name).result = .ok found' ∧ found'.Perm (found.map (Group.rename f)) ∧
        found'.Pairwise (fun g g' => g.name.key < g'.name.key) ∧
        ∀ label, ((t.rename f).analyze name).tree.tables.slot? label =
          ((t.analyze name).tree.tables.slot? label).map (Value.renameSlot f) := by
  have hC := f.complete
  have hroot : f.correspondence.values t.root (t.rename f).root := rfl
  have hanswers : f.correspondence.Answers t.tables (t.rename f).tables := f.answers hslots
  have hresult := hC.analyze hroot hanswers name
  refine ⟨fun fault hfault => ?_, fun found hfound => ?_⟩
  · rw [hfault] at hresult
    generalize ((t.rename f).analyze name).result = r at hresult
    cases hresult with
    | error hf =>
      rw [Renaming.eq_map_of_faults hf]
      refine ⟨rfl, fun hquoted => ?_⟩
      rw [← Renaming.eq_map_of_faults hf]
      refine hf.eq fun v hv w hw => ?_
      rw [show w = v.rename f from hw, Value.rename_of_nodes_eq_nil f (hquoted v hv)]
  · rw [hfound] at hresult
    obtain ⟨hp, hf, refs, hrefs, hgroups⟩ := Tree.analyze_result_eq_ok_iff.mp hfound
    generalize hfound' : ((t.rename f).analyze name).result = r at hresult
    cases hresult with
    | @ok _ found' hgroups' =>
      obtain ⟨same, hsame, hperm⟩ := hgroups'
      obtain ⟨hp', hf', refs', hrefs', hgrouped⟩ := Tree.analyze_result_eq_ok_iff.mp hfound'
      have hmatch := hC.references hroot (hC.answers_buildScopes hroot hanswers)
      rw [hrefs, hrefs'] at hmatch
      have hrenamed : refs' = refs.map (Reference.rename f) := by
        cases hmatch with
        | ok h => exact Renaming.eq_map_of_forall₂ h fun _ _ => Renaming.eq_rename_of_references
      refine ⟨refs, found', Tree.reports_iff.mpr ⟨hp, hf, hrefs, found, hgroups⟩, ?_, rfl, ?_,
        sorted_of_groups hgrouped, Tree.slot?_analyze_rename f hp name⟩
      · exact Tree.reports_iff.mpr ⟨hp', hf', hrenamed ▸ hrefs', found', hrenamed ▸ hgrouped⟩
      · exact Renaming.eq_map_of_forall₂ hsame (fun _ _ => Renaming.eq_rename_of_groups) ▸ hperm

/-- The renaming that exchanges `a` and `q`. -/
def exchanged : Renaming where
  map t := if t = "a" then "q" else if t = "q" then "a" else t
  injective {s t} h := by
    split_ifs at h <;> simp_all
  undefined := by decide
  arguments := by decide
  this := by decide

/-- The program `a; b; { q }` with a value in the place of the table of its block. -/
def tabledProgram (table : Value) : Tree :=
  Tree.ofStatements
    [.identifierStatement "a", .identifierStatement "b",
     Kind.blockStatement.object [("body", .array [.identifierStatement "q"]), (tableField, table)]]

theorem renamed_analysis_tabledProgram :
    (∀ label, ∀ slot ∈ (tabledProgram (.array [.text "q"])).tables.slot? label, slot.spellsNames = false) ∧
      ∃ found, ((tabledProgram (.array [.text "q"])).analyze "s").result = .ok found ∧
        found.map Group.name = [.text "a", .text "b"] ∧
        ∃ found', (((tabledProgram (.array [.text "q"])).rename exchanged).analyze "s").result = .ok found' ∧
          found'.map Group.name = [.text "b", .text "q"] ∧
          found'.Perm (found.map (Group.rename exchanged)) := by
  have hslots : ∀ slot ∈ (tabledProgram (.array [.text "q"])).tables.slots, slot.2.spellsNames = false := by
    decide +kernel
  have hspells : ∀ label, ∀ slot ∈ (tabledProgram (.array [.text "q"])).tables.slot? label,
      slot.spellsNames = false := by
    intro label slot h
    obtain ⟨l₁, l₂, hsplit, -⟩ := List.lookup_eq_some_iff.mp h
    exact hslots (label, slot) (by rw [hsplit]; simp)
  have hnames : ((tabledProgram (.array [.text "q"])).analyze "s").result.toOption.map (List.map Group.name) =
      some [.text "a", .text "b"] := by decide +kernel
  have hnames' : (((tabledProgram (.array [.text "q"])).rename exchanged).analyze "s").result.toOption.map
      (List.map Group.name) = some [.text "b", .text "q"] := by decide +kernel
  obtain ⟨found, hfound, hnames⟩ := Option.map_eq_some_iff.mp hnames
  have h := eq_ok_of_toOption hfound
  obtain ⟨-, found', -, -, hfound', hperm, -⟩ := (renamed_analysis exchanged _ hspells "s").2 found h
  refine ⟨hspells, found, h, hnames, found', hfound', ?_, hperm⟩
  rw [hfound'] at hnames'
  exact Option.some.inj hnames'

/-- Neither does a fault that quotes an object stay the same, nor is a text in the place of a table renamed. -/
theorem quotes_and_texts_not_equivariant :
    ((quotedProgram (.object 0 [("name", .text "a")])).analyze "s").message? =
        some ("Unrecognized pattern type: " ++ leftBrace ++ "'name': 'a'" ++ rightBrace) ∧
      (((quotedProgram (.object 0 [("name", .text "a")])).rename exchanged).analyze "s").message? =
        some ("Unrecognized pattern type: " ++ leftBrace ++ "'name': 'q'" ++ rightBrace) ∧
    ((tabledProgram (.text "q")).analyze "s").result.toOption.map (List.map Group.name) =
        some [.text "a", .text "b"] ∧
      (((tabledProgram (.text "q")).rename exchanged).analyze "s").result.toOption.map (List.map Group.name) =
        some [.text "a", .text "b", .text "q"] := by
  decide +kernel

end FreeNames
