import FreeNames.Proofs.Success

/-!
# Code in a frame

A `Frame` is a program with a place in it where other code stands; the nodes around the place declare
nothing themselves. What an analysis finds in the code depends little on the frame. The code declares the
same names in its own nodes. What it declares further out goes to some node of the frame, and whichever it
is, it is around all of the code. So for the code that they hold, frames differ only in whether a plain
function is among their nodes (`Frame.isFree_iff`), and an analysis succeeds in one if it succeeds in another
(`Frame.exists_reports`).
-/

namespace FreeNames

/-! ### Walks with more nodes around -/

/-- The visit with more nodes around it. -/
def Visit.below (outer : List Node) (v : Visit) : Visit := { v with around := v.around ++ outer }

/-- The trace of the same walk with more nodes around. -/
def Trace.below (outer : List Node) (t : Trace) : Trace := ⟨t.visits.map (Visit.below outer), t.fault⟩

namespace Trace

variable (outer : List Node)

theorem below_append (a b : Trace) : (a ++ b).below outer = a.below outer ++ b.below outer := by
  cases ha : a.fault with
  | none =>
    have hbelow : (a.below outer).fault = none := ha
    rw [append_of_fault_eq_none b ha, append_of_fault_eq_none _ hbelow]
    simp [below]
  | some fault =>
    have hbelow : (a.below outer).fault = some fault := ha
    rw [append_of_fault_eq_some b ha, append_of_fault_eq_some _ hbelow]

theorem below_concat (ts : List Trace) : (concat ts).below outer = concat (ts.map (below outer)) := by
  induction ts with
  | nil => rfl
  | cons t ts ih => rw [concat_cons, below_append, ih, List.map_cons, concat_cons]

theorem below_below (t : Trace) (inner : List Node) :
    (t.below inner).below outer = t.below (inner ++ outer) := by
  simp [below, Visit.below, Function.comp_def]

end Trace

/-- The nodes around the start of a walk only stand around all that it meets. -/
theorem visits_append_around (v : Value) (around outer : List Node) :
    visits v (around ++ outer) = (visits v around).below outer := by
  induction v, around using visits_induction with
  | plain v around hn =>
    rw [visits_of_node?_eq_none hn, visits_of_node?_eq_none hn]
    rfl
  | unknown n fault around hk =>
    rw [visits_of_enteredKind_eq_error hk, visits_of_enteredKind_eq_error hk]
    rfl
  | node n k around hk ih =>
    rw [visits_of_enteredKind_eq_ok hk, visits_of_enteredKind_eq_ok hk, Trace.below_append,
      Trace.below_concat, List.map_map]
    congr 2
    exact List.map_congr_left ih

/-- What a walk meets in values one after the other, with nothing around them. -/
def visitsOf (values : List Value) : Trace := .concat (values.map fun v => visits v [])

theorem visitsOf_below (values : List Value) (outer : List Node) :
    .concat (values.map fun v => visits v outer) = (visitsOf values).below outer := by
  rw [visitsOf, Trace.below_concat, List.map_map]
  congr 1
  exact List.map_congr_left fun v _ => visits_append_around v [] outer

theorem exists_enters_of_mem_visitsOf {values : List Value} {v : Visit} (h : v ∈ (visitsOf values).visits) :
    ∃ w ∈ values, Enters w [] v := by
  obtain ⟨t, ht, hv⟩ := List.mem_flatMap.mp ((Trace.visits_concat_sublist _).subset h)
  obtain ⟨w, hw, rfl⟩ := List.mem_map.mp ht
  exact ⟨w, hw, enters_of_mem_visits hv⟩

/-- A node around or inside what a walk of values meets stands in one of them. -/
theorem exists_mem_nodes_of_mem_visitsOf {values : List Value} {v : Visit} (hv : v ∈ (visitsOf values).visits)
    {n : Node} (h : n ∈ v.around ∨ n ∈ v.node.toValue.nodes) : ∃ w ∈ values, n ∈ w.nodes := by
  obtain ⟨w, hw, hin⟩ := exists_enters_of_mem_visitsOf hv
  refine ⟨w, hw, ?_⟩
  rcases h with h | h
  · exact (hin.mem_nodes_of_mem_around h).resolve_left List.not_mem_nil
  · exact Value.nodes_subset hin.mem_nodes h

/-! ### Nodes are no larger than what they are in -/

namespace Value

mutual
theorem size_le_of_mem_nodes {m : Node} : ∀ {v : Value}, m ∈ v.nodes → m.toValue.size ≤ v.size
  | array items, h => by
    have : m.toValue.size ≤ sizeItems items := size_le_of_mem_nodesOfItems h
    simp only [size]
    omega
  | object label fields, h => by
    rcases List.mem_cons.mp h with rfl | h
    · exact Nat.le_refl _
    · have := size_le_of_mem_nodesOfFields h
      simp only [size]
      omega

theorem size_le_of_mem_nodesOfItems {m : Node} : ∀ {items : List Value}, m ∈ nodesOfItems items →
    m.toValue.size ≤ sizeItems items
  | v :: rest, h => by
    simp only [sizeItems]
    rcases List.mem_append.mp h with h | h
    · have := size_le_of_mem_nodes h
      omega
    · have := size_le_of_mem_nodesOfItems h
      omega

theorem size_le_of_mem_nodesOfFields {m : Node} : ∀ {fields : List (String × Value)},
    m ∈ nodesOfFields fields → m.toValue.size ≤ sizeFields fields
  | (name, v) :: rest, h => by
    simp only [sizeFields]
    rcases List.mem_append.mp h with h | h
    · have := size_le_of_mem_nodes h
      omega
    · have := size_le_of_mem_nodesOfFields h
      omega
end

end Value

/-! ### Frames -/

/-- The node of a kind declares nothing, and it is no reference. -/
structure Node.Plain (n : Node) (k : Kind) : Prop where
  declarators : k ≠ .variableDeclaration
  handler : k ≠ .tryStatement
  imported : k.isImport = false
  identifier : k ≠ .identifier
  thisExpression : k ≠ .thisExpression
  ownName : k.isFunction ∨ k.isClass → n.field "id" = .null
  parameters : k.isFunction → n.membersOf "params" = .ok []

theorem Node.Plain.readable {n : Node} {k : Kind} (h : n.Plain k) : n.Readable k where
  declarators hk := absurd hk h.declarators
  parameters hk := ⟨[], h.parameters hk, by simp⟩
  ownName hk := ⟨.null, by simp [Node.ownName, h.ownName hk, Value.isNull, Name.toValue]⟩
  handler hk := absurd hk h.handler
  imported hk := absurd hk (by simp [h.imported])

theorem Node.Plain.not_declares {v : Visit} (h : v.node.Plain v.kind) {root scope m : Node} :
    ¬ v.Declares root scope m := by
  have hid : ∀ {m : Node}, v.kind.isFunction ∨ v.kind.isClass → v.node.field "id" ≠ m.toValue := by
    intro m hk hm
    rw [h.ownName hk] at hm
    cases hm
  intro hd
  cases hd with
  | var hk _ _ _ _ => exact h.declarators hk
  | lexical hk _ _ _ _ => exact h.declarators hk
  | functionName hk hm _ _ => exact hid (.inl (by rw [hk]; rfl)) hm
  | className hk hm _ _ => exact hid (.inr (by rw [hk]; rfl)) hm
  | parameter hk hp _ =>
    obtain ⟨items, hf, hmem⟩ := hp
    have hm := h.parameters hk
    rw [Node.membersOf_of_field_eq_array hf] at hm
    cases hm
    simp at hmem
  | ownName hk hm _ => exact hid hk hm
  | catchParameter hk _ _ => exact h.handler hk
  | importName hk _ => simp [h.imported] at hk

/-- A program with a place for the values in it, and nothing but plain nodes around the place. -/
structure Frame (values : List Value) where
  /-- The program. -/
  root : Node
  /-- The nodes around the place, innermost first. -/
  chain : List Node
  /-- What a walk meets before it comes to the place. -/
  wrappers : List Visit
  isProgram : root.kind? = some .program
  root_mem : root ∈ chain
  larger : ∀ n ∈ chain, ∀ w ∈ values, w.size < n.toValue.size
  plain : ∀ v ∈ wrappers, v.node.Plain v.kind
  visits_eq : visits root.toValue [] = ⟨wrappers, none⟩ ++ (visitsOf values).below chain

namespace Frame

variable {values : List Value} (F G : Frame values)

theorem fault_eq : (visits F.root.toValue []).fault = (visitsOf values).fault := by
  rw [F.visits_eq, Trace.append_of_fault_eq_none _ rfl]
  rfl

theorem entered_eq : F.root.entered = F.wrappers ++ (visitsOf values).visits.map (Visit.below F.chain) := by
  rw [Node.entered, F.visits_eq, Trace.append_of_fault_eq_none _ rfl]
  rfl

/-- A plain function is among the nodes of the frame. -/
def hasReceiver : Bool := F.chain.any Node.bindsReceiver

theorem exists_isScope : ∃ s ∈ F.chain, s.isScope :=
  ⟨F.root, F.root_mem, by simp [Node.isScope, Node.hasKind, F.isProgram, Kind.isScope]⟩

theorem exists_isBlockScope : ∃ s ∈ F.chain, s.isBlockScope := by
  obtain ⟨s, hs, hscope⟩ := F.exists_isScope
  exact ⟨s, hs, Node.isBlockScope_of_isScope hscope⟩

/-- No node of the frame stands inside the values. -/
theorem not_mem_chain {v : Visit} (hv : v ∈ (visitsOf values).visits) {n : Node}
    (h : n ∈ v.around ∨ n ∈ v.node.toValue.nodes) : n ∉ F.chain := by
  obtain ⟨w, hw, hn⟩ := exists_mem_nodes_of_mem_visitsOf hv h
  intro hchain
  exact Nat.lt_irrefl _ (Nat.lt_of_lt_of_le (F.larger n hchain w hw) (Value.size_le_of_mem_nodes hn))

/-! ### Declarations in two frames -/

section

variable {others : List Value} (F : Frame values) (G : Frame others)

/-- A scope that is nearest in one frame is so in the other, or both frames have a scope of their own in its
place. -/
theorem nearest_below {v : Visit} {accepts : Node → Bool} (hG : ∃ s ∈ G.chain, accepts s) {scope : Node}
    (h : (v.below F.chain).Nearest accepts scope) :
    ((v.below G.chain).Nearest accepts scope ∧ scope ∈ v.around) ∨
      scope ∈ F.chain ∧ ∃ s ∈ G.chain, (v.below G.chain).Nearest accepts s := by
  unfold Visit.Nearest Visit.below at h ⊢
  simp only [List.find?_append] at h ⊢
  cases hfind : v.around.find? accepts with
  | some s =>
    rw [hfind] at h
    obtain rfl := Option.some.inj h
    exact .inl ⟨rfl, List.mem_of_find?_eq_some hfind⟩
  | none =>
    rw [hfind, Option.none_or] at h
    obtain ⟨s, hs, haccepts⟩ := hG
    cases hchain : G.chain.find? accepts with
    | none => exact absurd haccepts (by simpa using List.find?_eq_none.mp hchain s hs)
    | some s' => exact .inr ⟨List.mem_of_find?_eq_some h, s', List.mem_of_find?_eq_some hchain, rfl⟩

/-- What code declares in one frame, it declares in the other: in the same node, if that stands inside the
code, else in a node of the frame. -/
theorem declares_below {v : Visit} {scope m : Node} (h : (v.below F.chain).Declares F.root scope m) :
    ((v.below G.chain).Declares G.root scope m ∧ (scope ∈ v.around ∨ scope ∈ v.node.toValue.nodes)) ∨
      scope ∈ F.chain ∧ ∃ s ∈ G.chain, (v.below G.chain).Declares G.root s m := by
  cases h with
  | var hk hv hs hd hm =>
    rcases F.nearest_below G G.exists_isScope hs with ⟨hs, hin⟩ | ⟨hF, s, hmem, hs⟩
    · exact .inl ⟨.var hk hv hs hd hm, .inl hin⟩
    · exact .inr ⟨hF, s, hmem, .var hk hv hs hd hm⟩
  | lexical hk hv hs hd hm =>
    rcases F.nearest_below G G.exists_isBlockScope hs with ⟨hs, hin⟩ | ⟨hF, s, hmem, hs⟩
    · exact .inl ⟨.lexical hk hv hs hd hm, .inl hin⟩
    · exact .inr ⟨hF, s, hmem, .lexical hk hv hs hd hm⟩
  | functionName hk hid hm hs =>
    rcases F.nearest_below G G.exists_isScope hs with ⟨hs, hin⟩ | ⟨hF, s, hmem, hs⟩
    · exact .inl ⟨.functionName hk hid hm hs, .inl hin⟩
    · exact .inr ⟨hF, s, hmem, .functionName hk hid hm hs⟩
  | className hk hid hm hs =>
    rcases F.nearest_below G G.exists_isBlockScope hs with ⟨hs, hin⟩ | ⟨hF, s, hmem, hs⟩
    · exact .inl ⟨.className hk hid hm hs, .inl hin⟩
    · exact .inr ⟨hF, s, hmem, .className hk hid hm hs⟩
  | parameter hk hp hm => exact .inl ⟨.parameter hk hp hm, .inr (Value.mem_nodes_toValue v.node)⟩
  | ownName hk hid hm => exact .inl ⟨.ownName hk hid hm, .inr (Value.mem_nodes_toValue v.node)⟩
  | catchParameter hk hh hm =>
    refine .inl ⟨.catchParameter hk hh hm, .inr (List.mem_cons_of_mem _ ?_)⟩
    exact Node.mem_nodesOfFields_of_field hh (Value.mem_nodes_toValue _)
  | importName hk hl => exact .inr ⟨F.root_mem, G.root, G.root_mem, .importName hk hl⟩

end

/-- A name is declared around a place in the code. -/
def DeclaredAround (v : Visit) (x : Name) : Prop := ∃ n ∈ (v.below F.chain).around, F.root.Declared n x

theorem declaredAround_of_declaredAround {v : Visit} {x : Name} (h : F.DeclaredAround v x) :
    G.DeclaredAround v x := by
  obtain ⟨n, hn, u, hu, y, ⟨m, hd, hy⟩, hkey⟩ := h
  rw [F.entered_eq] at hu
  rcases List.mem_append.mp hu with hu | hu
  · exact absurd hd (F.plain u hu).not_declares
  · obtain ⟨w, hw, rfl⟩ := List.mem_map.mp hu
    have hw' : w.below G.chain ∈ G.root.entered := by
      rw [G.entered_eq]
      exact List.mem_append_right _ (List.mem_map_of_mem hw)
    rcases F.declares_below G hd with ⟨hd, hin⟩ | ⟨-, s, hs, hd⟩
    · -- The node stands inside the code, and so it is around the place in any frame.
      have hn := (List.mem_append.mp hn).resolve_right (F.not_mem_chain hw hin)
      exact ⟨n, List.mem_append_left _ hn, w.below G.chain, hw', y, ⟨m, hd, hy⟩, hkey⟩
    · exact ⟨s, List.mem_append_right _ hs, w.below G.chain, hw', y, ⟨m, hd, hy⟩, hkey⟩

theorem declaredAround_iff {v : Visit} {x : Name} : F.DeclaredAround v x ↔ G.DeclaredAround v x :=
  ⟨F.declaredAround_of_declaredAround G, G.declaredAround_of_declaredAround F⟩

/-! ### References in two frames -/

theorem hasReceiver_below {v : Visit} : (v.below F.chain).HasReceiver ↔ v.HasReceiver ∨ F.hasReceiver := by
  simp only [Visit.HasReceiver, Visit.below, hasReceiver, List.any_eq_true, List.mem_append, or_and_right,
    exists_or]

/-- What is free in a frame, said apart for what the code and what the frame has around. -/
theorem isFree_below_iff {v : Visit} :
    (v.below F.chain).IsFree F.root ↔
      (v.kind = .identifier ∧ ∃ x, v.node.Named x ∧ x ≠ .text "undefined" ∧
        ¬ (x = .text "arguments" ∧ (v.HasReceiver ∨ F.hasReceiver)) ∧ ¬ F.DeclaredAround v x) ∨
      (v.kind = .thisExpression ∧ ¬ (v.HasReceiver ∨ F.hasReceiver)) := by
  have hbound : ∀ x, ¬ (v.below F.chain).IsBound F.root x ↔ x ≠ .text "undefined" ∧
      ¬ (x = .text "arguments" ∧ (v.HasReceiver ∨ F.hasReceiver)) ∧ ¬ F.DeclaredAround v x := by
    intro x
    rw [Visit.IsBound, F.hasReceiver_below, not_or, not_or]
    exact Iff.rfl
  unfold Visit.IsFree
  simp only [hbound, F.hasReceiver_below]
  exact Iff.rfl

end Frame

/-- The reference is one that a plain function binds whatever its declarations: a `this`, or `arguments`. -/
def Reference.needsReceiver (r : Reference) : Bool := r.isThis || (r.node.field "name").isText "arguments"

namespace Visit

variable {v : Visit}

theorem isThis_toReference_iff (hk : v.node.kind? = some v.kind) :
    v.toReference.isThis ↔ v.kind = .thisExpression := by
  rw [Reference.isThis, toReference, Node.kind?_eq_some_iff.mp hk]
  simp only [Value.isText, beq_iff_eq]
  exact ⟨fun h => Kind.name_injective (Text.ofString_injective h), fun h => by rw [h]⟩

theorem needsReceiver_iff_of_named (hk : v.node.kind? = some v.kind) (hi : v.kind = .identifier) {x : Name}
    (hx : v.node.Named x) : v.toReference.needsReceiver ↔ x = .text "arguments" := by
  have hthis : v.toReference.isThis = false := by
    rw [← Bool.not_eq_true, isThis_toReference_iff hk, hi]
    simp
  have hname : v.node.field "name" = x.toValue := by
    rw [Node.field, show v.node.fields.lookup "name" = _ from hx, Option.getD_some]
  rw [Reference.needsReceiver, hthis, Bool.false_or, toReference, hname]
  cases x <;> simp [Name.toValue, Value.isText]

end Visit

namespace Frame

variable {values : List Value} (F G : Frame values)

/-- What is free in a frame without a plain function is free in any other, but for what a plain function
binds. -/
theorem isFree_iff (hF : F.hasReceiver = false) {v : Visit} (hv : v ∈ (visitsOf values).visits) :
    (v.below G.chain).IsFree G.root ↔
      (v.below F.chain).IsFree F.root ∧ ¬ (G.hasReceiver ∧ v.toReference.needsReceiver) := by
  obtain ⟨w, -, hin⟩ := exists_enters_of_mem_visitsOf hv
  have hk := Node.kind?_of_enteredKind hin.enteredKind_eq
  rw [isFree_below_iff, isFree_below_iff]
  simp only [hF, Bool.false_eq_true, or_false, F.declaredAround_iff G]
  constructor
  · rintro (⟨hi, x, hx, hundefined, harguments, hdeclared⟩ | ⟨ht, hreceiver⟩)
    · refine ⟨.inl ⟨hi, x, hx, hundefined, fun h => harguments ⟨h.1, .inl h.2⟩, hdeclared⟩, ?_⟩
      rw [Visit.needsReceiver_iff_of_named hk hi hx]
      exact fun h => harguments ⟨h.2, .inr h.1⟩
    · exact ⟨.inr ⟨ht, fun h => hreceiver (.inl h)⟩, fun h => hreceiver (.inr h.1)⟩
  · rintro ⟨⟨hi, x, hx, hundefined, harguments, hdeclared⟩ | ⟨ht, hreceiver⟩, hneeds⟩
    · rw [Visit.needsReceiver_iff_of_named hk hi hx] at hneeds
      refine .inl ⟨hi, x, hx, hundefined, ?_, hdeclared⟩
      rintro ⟨hx, hr | hr⟩
      · exact harguments ⟨hx, hr⟩
      · exact hneeds ⟨hr, hx⟩
    · refine .inr ⟨ht, ?_⟩
      rintro (hr | hr)
      · exact hreceiver hr
      · have hthis := (Visit.isThis_toReference_iff hk).mpr ht
        exact hneeds ⟨hr, by simp [Reference.needsReceiver, hthis]⟩

end Frame

/-! ### Reports -/

namespace Tree

/-- Every object has a label of its own, and none has a table. -/
structure Fresh (t : Tree) : Prop where
  wellLabelled : t.WellLabelled
  noTables : ∀ label, t.tables.slot? label = none

/-- A build on no tables leaves sets only. -/
theorem Fresh.holdSets {t : Tree} (h : t.Fresh) (hf : (buildScopes t.tables t.root).2 = none) :
    (buildScopes t.tables t.root).1.tables.HoldSets :=
  holdSets_buildScopes (Tables.holdSets_of_slot?_eq_none h.noTables) hf

/-- An analysis of the tree succeeds, and these are the references that it reports. -/
structure Reports (t : Tree) (refs : List Reference) : Prop where
  searched : references (buildScopes t.tables t.root).1.tables t.root = .ok refs
  grouped : ∀ name, ∃ found, (t.analyze name).result = .ok found ∧ groups refs = .ok found

theorem reports_iff {t : Tree} {refs : List Reference} :
    t.Reports refs ↔ t.isProgram ∧ (buildScopes t.tables t.root).2 = none ∧
      references (buildScopes t.tables t.root).1.tables t.root = .ok refs ∧
      ∃ found, groups refs = .ok found := by
  constructor
  · rintro ⟨hrefs, hgrouped⟩
    obtain ⟨found, hfound, hgroups⟩ := hgrouped ""
    obtain ⟨hp, hf, -⟩ := analyze_result_eq_ok_iff.mp hfound
    exact ⟨hp, hf, hrefs, found, hgroups⟩
  · rintro ⟨hp, hf, hrefs, found, hgroups⟩
    refine ⟨hrefs, fun name => ⟨found, ?_, hgroups⟩⟩
    exact analyze_result_eq_ok_iff.mpr ⟨hp, hf, refs, hrefs, hgroups⟩

end Tree

namespace Frame

variable {values : List Value} (F G : Frame values)

/-- Whether the tables can be built does not depend on the frame. -/
theorem buildScopes_fault_eq_none_iff {tables : Tables} :
    (buildScopes tables F.root.toValue).2 = none ↔
      (visitsOf values).fault = none ∧ ∀ v ∈ (visitsOf values).visits, v.node.Readable v.kind := by
  rw [FreeNames.buildScopes_fault_eq_none_iff F.isProgram, F.fault_eq, F.entered_eq]
  refine and_congr_right fun _ => ⟨fun h v hv => ?_, fun h v hv => ?_⟩
  · exact h (v.below F.chain) (List.mem_append_right _ (List.mem_map_of_mem hv))
  · rcases List.mem_append.mp hv with hv | hv
    · exact (F.plain v hv).readable
    · obtain ⟨w, hw, rfl⟩ := List.mem_map.mp hv
      exact h w hw

/-- Whether references can be found does not depend on the frame. -/
theorem exists_references_iff {tables : Tables} (hs : tables.HoldSets) :
    (∃ refs, references tables F.root.toValue = .ok refs) ↔
      (visitsOf values).fault = none ∧
        ∀ v ∈ (visitsOf values).visits, v.kind = .identifier → ∃ x, v.node.Named x := by
  rw [FreeNames.exists_references_iff hs, F.fault_eq, F.entered_eq]
  refine and_congr_right fun _ => ⟨fun h v hv => ?_, fun h v hv hk => ?_⟩
  · exact h (v.below F.chain) (List.mem_append_right _ (List.mem_map_of_mem hv))
  · rcases List.mem_append.mp hv with hv | hv
    · exact absurd hk (F.plain v hv).identifier
    · obtain ⟨w, hw, rfl⟩ := List.mem_map.mp hv
      exact h w hw hk

open scoped Classical in
/-- The references that are found in a frame are the free ones in the code. -/
theorem references_eq {t : Tree} (ht : t.root = F.root.toValue) (hfresh : t.Fresh)
    (hf : (buildScopes t.tables t.root).2 = none) {refs : List Reference}
    (h : references (buildScopes t.tables t.root).1.tables t.root = .ok refs) :
    refs = ((visitsOf values).visits.filter fun v => (v.below F.chain).IsFree F.root).map
      fun v => (v.below F.chain).toReference := by
  have hl := hfresh.wellLabelled
  unfold Tree.WellLabelled at hl
  rw [ht] at hl hf h
  have hfree : refs = (F.root.entered.filter fun v => v.IsFree F.root).map Visit.toReference := by
    rw [referencesOf_eq_ok (references_eq_ok_iff.mp h).1]
    congr 1
    refine List.filter_congr fun v hv => ?_
    rw [decide_eq_decide]
    exact Visit.isUnbound_iff_isFree hl hfresh.noTables hf hv
  -- The nodes of the frame are no references.
  have hwrappers : F.wrappers.filter (fun v => v.IsFree F.root) = [] := by
    refine List.filter_eq_nil_iff.mpr fun v hv hfree => ?_
    rcases of_decide_eq_true hfree with ⟨hk, -⟩ | ⟨hk, -⟩
    · exact (F.plain v hv).identifier hk
    · exact (F.plain v hv).thisExpression hk
  rw [hfree, F.entered_eq, List.filter_append, hwrappers, List.nil_append, List.filter_map, List.map_map]
  rfl

/-- A report does not depend on the frame, but for what a plain function in it binds. -/
theorem exists_reports (hF : F.hasReceiver = false) {t t' : Tree} (ht : t.root = F.root.toValue)
    (ht' : t'.root = G.root.toValue) (hfresh : t.Fresh) (hfresh' : t'.Fresh) {refs : List Reference}
    (h : t.Reports refs) :
    ∃ refs', t'.Reports refs' ∧ refs'.map Reference.node =
      (refs.filter fun r => !(G.hasReceiver && r.needsReceiver)).map Reference.node := by
  classical
  obtain ⟨-, hf, hrefs, hgroups⟩ := Tree.reports_iff.mp h
  have hf' : (buildScopes t'.tables t'.root).2 = none := by
    rw [ht', G.buildScopes_fault_eq_none_iff, ← F.buildScopes_fault_eq_none_iff, ← ht]
    exact hf
  have hnamed := (F.exists_references_iff (hfresh.holdSets hf)).mp ⟨refs, ht ▸ hrefs⟩
  obtain ⟨refs', hrefs'⟩ := (G.exists_references_iff (hfresh'.holdSets hf')).mpr hnamed
  rw [← ht'] at hrefs'
  have hnodes : refs'.map Reference.node =
      (refs.filter fun r => !(G.hasReceiver && r.needsReceiver)).map Reference.node := by
    rw [G.references_eq ht' hfresh' hf' hrefs', F.references_eq ht hfresh hf hrefs, List.map_map,
      List.filter_map, List.filter_filter, List.map_map]
    have hfilter : (visitsOf values).visits.filter (fun v => (v.below G.chain).IsFree G.root) =
        (visitsOf values).visits.filter fun v =>
          (!(G.hasReceiver && v.toReference.needsReceiver)) && decide ((v.below F.chain).IsFree F.root) := by
      refine List.filter_congr fun v hv => ?_
      simp [F.isFree_iff G hF hv, Bool.and_comm]
    rw [hfilter]
    rfl
  refine ⟨refs', Tree.reports_iff.mpr ⟨?_, hf', hrefs', ?_⟩, hnodes⟩
  · exact Tree.isProgram_iff.mpr ⟨G.root, ht', G.isProgram⟩
  · -- All that is reported now was reported before, and its names were of one sort.
    obtain ⟨sort, hsort⟩ := exists_groups_iff.mp hgroups
    refine exists_groups_iff.mpr ⟨sort, fun r hr => ?_⟩
    have hmem : r.node ∈ refs'.map Reference.node := List.mem_map_of_mem hr
    rw [hnodes] at hmem
    obtain ⟨s, hs, hnode⟩ := List.mem_map.mp hmem
    obtain ⟨x, hx, hxsort⟩ := hsort s (List.mem_filter.mp hs).1
    refine ⟨x, ?_, hxsort⟩
    rw [← hx, Reference.name, Reference.name, Reference.isThis, Reference.isThis, hnode]

end Frame

end FreeNames
