import FreeNames.Proofs.StableGroups
import FreeNames.Proofs.Wrapping
import Mathlib.Data.Prod.Lex

/-!
# References in source order

The locations of the nodes of a tree say which part of the source each of them comes from, its *span*. In a tree that
was read from a source, no span is empty, that of a child lies inside that of its parent, and the children follow one
another (`InSourceOrder`). The text parts of a template are an exception to the last: they are walked before the
expressions between them. But they are no references and have none inside.

A walk meets a node before its children, so it does not go through a source from left to right. Identifiers and
`this`, however, have no children. The spans of those that a walk meets follow one another, and so the references
that are found come in strictly ascending order.
-/

namespace FreeNames

/-! ### Points and spans -/

/-- A point of a source: a line and a column, in the order of the lines first. -/
abbrev Point := Int ×ₗ Int

/-- The point as a position. -/
def Point.toPosition (p : Point) : Position := ⟨.int (ofLex p).1, .int (ofLex p).2⟩

/-- A part of a source that is not empty. -/
structure Span where
  start : Point
  stop : Point
  nonempty : start < stop

namespace Span

/-- One span lies inside another one. -/
def Inside (s t : Span) : Prop := t.start ≤ s.start ∧ s.stop ≤ t.stop

/-- One span ends before another one starts. -/
def Before (s t : Span) : Prop := s.stop ≤ t.start

instance (s t : Span) : Decidable (s.Inside t) := inferInstanceAs (Decidable (_ ∧ _))

instance (s t : Span) : Decidable (s.Before t) := inferInstanceAs (Decidable (s.stop ≤ t.start))

theorem Inside.refl (s : Span) : s.Inside s := ⟨le_refl _, le_refl _⟩

theorem Inside.trans {s t u : Span} (h₁ : s.Inside t) (h₂ : t.Inside u) : s.Inside u :=
  ⟨h₂.1.trans h₁.1, h₁.2.trans h₂.2⟩

/-- What lies inside spans that follow one another does so too. -/
theorem Before.of_inside {s t s' t' : Span} (h : s.Before t) (hs : s'.Inside s) (ht : t'.Inside t) :
    s'.Before t' := hs.2.trans (h.trans ht.1)

theorem Before.start_lt {s t : Span} (h : s.Before t) : s.start < t.start := s.nonempty.trans_le h

end Span

/-- The whole number that a value is. -/
def Value.int? : Value → Option Int
  | .int n => some n
  | _ => none

/-- The point that a value has the line and the column of. -/
def Value.point? (v : Value) : Option Point := do
  let n ← v.node?
  return toLex (← (n.field "line").int?, ← (n.field "column").int?)

/-- The span that the location of a node has the start and the end of. -/
def Node.span? (n : Node) : Option Span := do
  let loc ← (n.field "loc").node?
  let start ← (loc.field "start").point?
  let stop ← (loc.field "end").point?
  if h : start < stop then return ⟨start, stop, h⟩ else none

/-- The span of a value that is a node. -/
def Value.span? (v : Value) : Option Span := v.node?.bind Node.span?

theorem Value.int?_eq_some_iff {v : Value} {n : Int} : v.int? = some n ↔ v = .int n := by
  cases v <;> simp [int?]

/-- An object that has a field counts as true. -/
theorem Node.isTrue_toValue {n : Node} {name : String} (h : (n.field name).isNull = false) :
    n.toValue.isTrue := by
  obtain ⟨label, fields⟩ := n
  cases fields with
  | nil => simp [field, Value.isNull] at h
  | cons field rest => rfl

theorem Value.exists_node_of_point? {v : Value} {p : Point} (h : v.point? = some p) :
    ∃ n : Node, v = n.toValue ∧ v.isTrue ∧ n.field "line" = .int (ofLex p).1 ∧
      n.field "column" = .int (ofLex p).2 := by
  simp only [point?, bind, Option.bind_eq_some_iff] at h
  obtain ⟨n, hn, line, hline, column, hcolumn, hp⟩ := h
  obtain rfl := Value.node?_eq_some_iff.mp hn
  obtain rfl := Option.some.inj hp
  rw [Value.int?_eq_some_iff] at hline hcolumn
  exact ⟨n, rfl, Node.isTrue_toValue (by rw [hline]; rfl), hline, hcolumn⟩

/-- The position of a node is where its span starts. -/
theorem Node.position_of_span? {n : Node} {s : Span} (h : n.span? = some s) :
    n.position = .ok s.start.toPosition := by
  simp only [span?, bind, Option.bind_eq_some_iff] at h
  obtain ⟨loc, hloc, start, hstart, stop, hstop, hs⟩ := h
  split at hs
  · obtain rfl := Option.some.inj hs
    have hloc := Value.node?_eq_some_iff.mp hloc
    obtain ⟨m, hm, htrue, hline, hcolumn⟩ := Value.exists_node_of_point? hstart
    have hlocTrue : loc.toValue.isTrue := Node.isTrue_toValue (by rw [hm]; rfl)
    rw [hm] at htrue
    simp only [position, hloc, hlocTrue, Node.node?_toValue, hm, htrue, hline, hcolumn]
    rfl
  · cases hs

/-! ### Trees in source order -/

/-- Whether a value is a text part of a template. -/
def Value.isTemplateElement (v : Value) : Bool :=
  v.node?.any fun n => n.hasKind fun k => k = .templateElement

namespace Visit

/-- The spans of a node and its children are in order: the node has one, those of the children lie inside it, and,
text parts of templates apart, they follow one another. -/
def IsArranged (v : Visit) : Prop :=
  v.node.span?.isSome ∧
    (∀ w ∈ v.node.children v.kind, ∀ s ∈ w.span?, ∀ t ∈ v.node.span?, s.Inside t) ∧
    ((v.node.children v.kind).filter fun w => !w.isTemplateElement).Pairwise fun a b =>
      ∀ s ∈ a.span?, ∀ t ∈ b.span?, s.Before t

instance (v : Visit) : Decidable v.IsArranged := inferInstanceAs (Decidable (_ ∧ _ ∧ _))

end Visit

/-- The spans are in order at all nodes that are met. -/
def InSourceOrder (root : Value) : Prop := ∀ v ∈ (walk root).visits, v.IsArranged

instance (root : Value) : Decidable (InSourceOrder root) := inferInstanceAs (Decidable (∀ v ∈ _, _))

/-! ### What a walk meets -/

/-- The span of one node ends before that of another one starts. -/
def Node.Precedes (m n : Node) : Prop := ∃ s t, m.span? = some s ∧ n.span? = some t ∧ s.Before t

/-- Whether a visit is one of those that can be references. -/
def Visit.isLeaf (v : Visit) : Bool := v.kind = .identifier || v.kind = .thisExpression

theorem Visit.isLeaf_iff {v : Visit} : v.isLeaf ↔ v.kind = .identifier ∨ v.kind = .thisExpression := by
  simp [isLeaf]

namespace Enters

variable {v : Value} {around : List Node} {x : Visit}

/-- Only a node of a known kind leads anywhere. -/
theorem exists_here (h : Enters v around x) : ∃ (n : Node) (k : Kind), v = n.toValue ∧ n.enteredKind = .ok k := by
  cases h with
  | here hk => exact ⟨_, _, rfl, hk⟩
  | through hk _ _ => exact ⟨_, _, rfl, hk⟩

/-- What is met below a value has a span inside the one of the value. -/
theorem exists_inside (h : Enters v around x) : (∀ y, Enters v around y → y.IsArranged) → ∀ {s : Span},
    v.span? = some s → ∃ t, x.node.span? = some t ∧ t.Inside s := by
  induction h with
  | here hk => exact fun _ s hs => ⟨s, hs, .refl s⟩
  | @through n k around w x hk hw hx ih =>
    intro harranged s hs
    obtain ⟨m, j, rfl, hj⟩ := hx.exists_here
    obtain ⟨u, hu⟩ := Option.isSome_iff_exists.mp (harranged _ (.through hk hw (.here hj))).1
    obtain ⟨t, ht, hinside⟩ := ih (fun y hy => harranged y (.through hk hw hy)) hu
    exact ⟨t, ht, hinside.trans ((harranged _ (.here hk)).2.1 _ hw u hu s hs)⟩

/-- There is no reference in a text part of a template. -/
theorem isLeaf_of_isTemplateElement (h : Enters v around x) (hv : v.isTemplateElement) : x.isLeaf = false := by
  have hkind : ∀ {n : Node} {k : Kind}, n.toValue.isTemplateElement → n.enteredKind = .ok k →
      k = .templateElement := by
    intro n k hn hk
    simpa [Value.isTemplateElement, Node.hasKind, Node.kind?_of_enteredKind hk] using hn
  cases h with
  | here hk =>
    obtain rfl := hkind hv hk
    rfl
  | through hk hw _ =>
    obtain rfl := hkind hv hk
    rw [Node.children_of_computedField rfl] at hw
    exact absurd hw List.not_mem_nil

end Enters

/-- The identifiers and `this` that a walk meets follow one another in the source. -/
theorem pairwise_precedes (v : Value) (around : List Node) :
    (∀ x, Enters v around x → x.IsArranged) → (visits v around).fault = none →
      ((visits v around).visits.filter Visit.isLeaf).Pairwise fun x y => x.node.Precedes y.node := by
  induction v, around using visits_induction with
  | plain v around hn =>
    intro _ hf
    simp [visits_of_node?_eq_none hn, Trace.failed] at hf
  | unknown n fault around hk =>
    intro _ hf
    simp [visits_of_enteredKind_eq_error hk, Trace.failed] at hf
  | node n k around hk ih =>
    intro harranged hf
    have hbelow : ∀ w ∈ n.children k, ∀ x, Enters w (n :: around) x → x.IsArranged :=
      fun w hw x hx => harranged x (.through hk hw hx)
    rw [visits_of_fault_eq_none hk hf]
    by_cases hleaf : k = .identifier ∨ k = .thisExpression
    · -- The node is the only one that is met.
      rw [Node.children_of_reference hleaf, List.flatMap_nil]
      exact List.Pairwise.sublist List.filter_sublist (List.pairwise_singleton _ _)
    · rw [List.filter_cons_of_neg (mt Visit.isLeaf_iff.mp hleaf), List.filter_flatMap, List.pairwise_flatMap]
      refine ⟨fun w hw => ih w hw (hbelow w hw) (visits_child_fault_eq_none hk hf hw), ?_⟩
      have hchildren := List.pairwise_filter.mp (harranged _ (.here hk)).2.2
      refine hchildren.imp_of_mem fun {a b} ha hb hab x hx y hy => ?_
      obtain ⟨hx, hxleaf⟩ := List.mem_filter.mp hx
      obtain ⟨hy, hyleaf⟩ := List.mem_filter.mp hy
      have hxa := enters_of_mem_visits hx
      have hyb := enters_of_mem_visits hy
      -- Both lie inside children, and these are no text parts of templates.
      have hnot : ∀ {w : Value} {z : Visit}, Enters w (n :: around) z → z.isLeaf → !w.isTemplateElement := by
        intro w z hz hleaf
        by_contra hw
        rw [hz.isLeaf_of_isTemplateElement (by simpa using hw)] at hleaf
        cases hleaf
      have hspan : ∀ {w : Value} {z : Visit}, w ∈ n.children k → Enters w (n :: around) z →
          ∃ s, w.span? = some s := by
        intro w z hw hz
        obtain ⟨m, j, rfl, hj⟩ := hz.exists_here
        exact Option.isSome_iff_exists.mp (hbelow _ hw _ (.here hj)).1
      obtain ⟨s, hs⟩ := hspan ha hxa
      obtain ⟨t, ht⟩ := hspan hb hyb
      obtain ⟨s', hs', hinside⟩ := hxa.exists_inside (hbelow a ha) hs
      obtain ⟨t', ht', hinside'⟩ := hyb.exists_inside (hbelow b hb) ht
      have hbefore := hab (hnot hxa hxleaf) (hnot hyb hyleaf) s hs t ht
      exact ⟨s', t', hs', ht', hbefore.of_inside hinside hinside'⟩

/-! ### Where references start -/

/-- The point where a reference starts. -/
def Reference.start? (r : Reference) : Option Point := r.node.span?.map Span.start

/-- The points where references start. -/
def starts (refs : List Reference) : List Point := refs.filterMap Reference.start?

theorem exists_node_of_references {tables : Tables} {root : Value} {refs : List Reference}
    (h : references tables root = .ok refs) : ∃ n : Node, root = n.toValue := by
  cases hn : root.node? with
  | some n => exact ⟨n, Value.node?_eq_some_iff.mp hn⟩
  | none =>
    obtain ⟨fault, hfault⟩ := exists_walk_fault hn
    unfold references at h
    cases hr : referencesOf tables (walk root).visits <;> simp [hr, hfault] at h

/-- The references that are found have spans, and these follow one another. -/
theorem precedes_of_references {tables : Tables} {root : Value} {refs : List Reference} (h : InSourceOrder root)
    (hrefs : references tables root = .ok refs) :
    (∀ r ∈ refs, r.start?.isSome) ∧ refs.Pairwise fun r r' => r.node.Precedes r'.node := by
  classical
  obtain ⟨n, rfl⟩ := exists_node_of_references hrefs
  obtain ⟨hof, hf⟩ := references_eq_ok_iff.mp hrefs
  unfold InSourceOrder at h
  rw [walk_eq_visits rfl] at h
  have harranged : ∀ x, Enters n.toValue [] x → x.IsArranged := fun x hx => h x (mem_visits_of_enters hx hf)
  constructor
  · intro r hr
    obtain ⟨v, hv, -, rfl⟩ := (mem_of_referencesOf hof).mp hr
    rw [Reference.start?, Option.isSome_map]
    exact (h v hv).1
  · rw [referencesOf_eq_ok hof, List.pairwise_map]
    refine (pairwise_precedes _ _ harranged hf).sublist (List.monotone_filter_right _ fun v hv => ?_)
    exact Visit.isLeaf_iff.mpr (of_decide_eq_true hv).kind

section

variable {refs : List Reference} (hsome : ∀ r ∈ refs, r.start?.isSome)
include hsome

/-- References with spans are at the points where they start. -/
theorem mapM_position : refs.mapM Reference.position = .ok ((starts refs).map Point.toPosition) := by
  induction refs with
  | nil => rfl
  | cons r rest ih =>
    obtain ⟨hr, hrest⟩ := List.forall_mem_cons.mp hsome
    obtain ⟨p, hp⟩ := Option.isSome_iff_exists.mp hr
    obtain ⟨s, hs, rfl⟩ := Option.map_eq_some_iff.mp hp
    have hposition : r.position = .ok s.start.toPosition := Node.position_of_span? hs
    have hstarts : starts (r :: rest) = s.start :: starts rest := List.filterMap_cons_some hp
    rw [List.mapM_cons, hposition, ih hrest, hstarts]
    rfl

end

theorem pairwise_starts {refs : List Reference} (h : refs.Pairwise fun r r' => r.node.Precedes r'.node) :
    (starts refs).Pairwise (· < ·) := by
  rw [starts, List.pairwise_filterMap]
  refine h.imp fun {r r'} hprecedes p hp q hq => ?_
  obtain ⟨s, t, hs, ht, hbefore⟩ := hprecedes
  obtain rfl : s.start = p := by simpa [Reference.start?, hs] using hp
  obtain rfl : t.start = q := by simpa [Reference.start?, ht] using hq
  exact hbefore.start_lt

/-- **References are found, and reported, in source order.** Take a tree in which the spans of all nodes that are met
are in order. The positions of the references that are found in it, under any tables, are those of strictly ascending
points. So are the positions of each group of them, and no position is reported twice, be it in one group or in two. -/
theorem sites_in_source_order {root : Value} (h : InSourceOrder root) {tables : Tables} {refs : List Reference}
    (hrefs : references tables root = .ok refs) :
    (∃ points : List Point, refs.mapM Reference.position = .ok (points.map Point.toPosition) ∧
      points.Pairwise (· < ·)) ∧
    ∀ found, groups refs = .ok found → ∃ sites : List (List Point),
      found.mapM Group.positions = .ok (sites.map (List.map Point.toPosition)) ∧
      (∀ own ∈ sites, own.Pairwise (· < ·)) ∧ sites.flatten.Nodup := by
  obtain ⟨hsome, hprecedes⟩ := precedes_of_references h hrefs
  refine ⟨⟨starts refs, mapM_position hsome, pairwise_starts hprecedes⟩, fun found hfound => ?_⟩
  have hsub : ∀ g ∈ found, g.references.Sublist refs := by
    obtain ⟨names, rfl, -⟩ := exists_names_of_groups hfound
    intro g hg
    obtain ⟨x, -, rfl⟩ := List.mem_map.mp hg
    exact List.filter_sublist
  refine ⟨found.map fun g => starts g.references, ?_, fun own hown => ?_, ?_⟩
  · rw [List.map_map]
    refine mapM_eq_ok_iff.mpr (List.forall₂_map_right_iff.mpr (List.forall₂_same.mpr fun g hg => ?_))
    exact mapM_position fun r hr => hsome r ((hsub g hg).subset hr)
  · obtain ⟨g, hg, rfl⟩ := List.mem_map.mp hown
    exact pairwise_starts (hprecedes.sublist (hsub g hg))
  · -- The groups together have the references that were found, each once.
    have hperm : (starts (found.flatMap Group.references)).Perm (starts refs) :=
      (perm_of_groups hfound).filterMap _
    have hnodup : (starts refs).Nodup := (pairwise_starts hprecedes).imp fun hlt => hlt.ne
    rw [← List.flatMap_def]
    rw [starts, List.filterMap_flatMap] at hperm
    exact hperm.nodup_iff.mpr hnodup

/-- A node from a part of one line of a source, as plain data. -/
def Kind.onLine (k : Kind) (line start stop : Int) (fields : List (String × Value)) : Value :=
  k.object (("loc", .object 0 [("start", .object 0 [("line", .int line), ("column", .int start)]),
    ("end", .object 0 [("line", .int line), ("column", .int stop)])]) :: fields)

/-- The program ``b(`u${a}v${b}`)``. The text parts of its template are walked before `a`. -/
def templateProgram : Tree :=
  .ofValue (Kind.program.onLine 1 0 15 [("body", .array
    [Kind.expressionStatement.onLine 1 0 15 [("expression",
      Kind.callExpression.onLine 1 0 15
        [("callee", Kind.identifier.onLine 1 0 1 [("name", .text "b")]),
         ("arguments", .array [Kind.templateLiteral.onLine 1 2 14
          [("quasis", .array
            [Kind.templateElement.onLine 1 2 6 [], Kind.templateElement.onLine 1 7 11 [],
             Kind.templateElement.onLine 1 12 14 []]),
           ("expressions", .array
            [Kind.identifier.onLine 1 6 7 [("name", .text "a")],
             Kind.identifier.onLine 1 11 12 [("name", .text "b")]])]])])]])])

theorem sites_in_source_order_templateProgram :
    InSourceOrder templateProgram.root ∧
      ∃ refs found, references templateProgram.tables templateProgram.root = .ok refs ∧
        groups refs = .ok found ∧ found.map Group.name = [.text "a", .text "b"] ∧
        starts refs = [toLex (1, 0), toLex (1, 6), toLex (1, 11)] ∧
        ∃ sites : List (List Point),
          found.mapM Group.positions = .ok (sites.map (List.map Point.toPosition)) ∧
          (∀ own ∈ sites, own.Pairwise (· < ·)) ∧ sites.flatten.Nodup := by
  have horder : InSourceOrder templateProgram.root := by decide +kernel
  have hstarts : (references templateProgram.tables templateProgram.root).toOption.map starts =
      some [toLex (1, 0), toLex (1, 6), toLex (1, 11)] := by decide +kernel
  have hnames : templateProgram.freeGroups.toOption.map (List.map Group.name) =
      some [.text "a", .text "b"] := by decide +kernel
  obtain ⟨refs, hrefs, hstarts⟩ := Option.map_eq_some_iff.mp hstarts
  have hrefs := eq_ok_of_toOption hrefs
  rw [Tree.freeGroups, hrefs] at hnames
  obtain ⟨found, hfound, hnames⟩ := Option.map_eq_some_iff.mp hnames
  have hfound : groups refs = .ok found := eq_ok_of_toOption hfound
  exact ⟨horder, refs, found, hrefs, hfound, hnames, hstarts,
    (sites_in_source_order horder hrefs).2 found hfound⟩

end FreeNames
