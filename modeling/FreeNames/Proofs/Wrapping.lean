import FreeNames.Proofs.Frame

/-!
# Wrapping a program

The statements of a program can be put into a block, into the body of an arrow function or into that of a
plain function, with nothing else in the new program. The three wrapped programs are frames around the same
statements as the program itself, so the analysis succeeds on them if it succeeds on the program, and it
reports the same references, except that a plain function takes `this` and `arguments` for itself.
-/

namespace FreeNames

/-! ### Making frames -/

theorem visits_of_kind? {n : Node} {k : Kind} (hk : n.kind? = some k) (around : List Node) :
    visits n.toValue around =
      ⟨[⟨n, k, around⟩], none⟩ ++ (visitsOf (n.children k)).below (n :: around) := by
  rw [visits_of_enteredKind_eq_ok (Node.enteredKind_eq_ok_iff.mpr hk), visitsOf_below]

namespace Frame

variable {values : List Value}

/-- A program is a frame around its children. -/
def ofProgram (p : Node) (hk : p.kind? = some .program) (hc : p.children .program = values) :
    Frame values where
  root := p
  chain := [p]
  wrappers := [⟨p, .program, []⟩]
  isProgram := hk
  root_mem := List.mem_singleton.mpr rfl
  larger := by
    intro n hn w hw
    rw [List.mem_singleton.mp hn]
    exact Node.size_lt_of_mem_children (hc ▸ hw)
  plain := by
    intro v hv
    rw [List.mem_singleton.mp hv]
    constructor <;> simp [Kind.isImport, Kind.isFunction, Kind.isClass]
  visits_eq := by
    rw [visits_of_kind? hk, hc]

/-- A frame around a single plain node is a frame around the children of the node. -/
def push {n : Node} (F : Frame [n.toValue]) {k : Kind} (hk : n.kind? = some k) (hn : n.Plain k)
    (hc : n.children k = values) : Frame values where
  root := F.root
  chain := n :: F.chain
  wrappers := F.wrappers ++ [⟨n, k, F.chain⟩]
  isProgram := F.isProgram
  root_mem := List.mem_cons_of_mem _ F.root_mem
  larger := by
    intro m hm w hw
    have hlt : w.size < n.toValue.size := Node.size_lt_of_mem_children (hc ▸ hw)
    rcases List.mem_cons.mp hm with rfl | hm
    · exact hlt
    · exact Nat.lt_trans hlt (F.larger m hm _ (List.mem_singleton.mpr rfl))
  plain := by
    intro v hv
    rcases List.mem_append.mp hv with hv | hv
    · exact F.plain v hv
    · rw [List.mem_singleton.mp hv]
      exact hn
  visits_eq := by
    have hone : visitsOf [n.toValue] = visits n.toValue [] := by simp [visitsOf]
    rw [F.visits_eq, hone, visits_of_kind? hk, hc, Trace.below_append, Trace.below_below,
      ← Trace.append_assoc]
    rfl

theorem hasReceiver_ofProgram {p : Node} (hk : p.kind? = some .program) (hc : p.children .program = values) :
    (ofProgram p hk hc).hasReceiver = false := by
  simp [hasReceiver, ofProgram, Node.bindsReceiver, Node.hasKind, hk, Kind.bindsReceiver]

theorem hasReceiver_push {n : Node} (F : Frame [n.toValue]) {k : Kind} (hk : n.kind? = some k)
    (hn : n.Plain k) (hc : n.children k = values) :
    (F.push hk hn hc).hasReceiver = (k.bindsReceiver || F.hasReceiver) := by
  simp [hasReceiver, push, Node.bindsReceiver, Node.hasKind, hk]

end Frame

/-! ### Wrapped statements -/

/-- The node is of a kind that has a list of statements, and they are these. -/
def Node.HasBody (n : Node) (k : Kind) (body : List Value) : Prop :=
  n.kind? = some k ∧ n.field "body" = .array body

/-- The node is a function of a kind that has no name and no parameters, and the statements as its body. -/
structure Node.IsThunk (f : Node) (k : Kind) (body : List Value) : Prop where
  kind : f.kind? = some k
  anonymous : f.field "id" = .null
  parameterless : ∀ params ∈ f.fields.lookup "params", params = .array []
  block : ∃ b : Node, f.field "body" = b.toValue ∧ b.HasBody .blockStatement body

/-- The node is a statement that consists of an expression. -/
def Node.IsStatementOf (e f : Node) : Prop :=
  e.kind? = some .expressionStatement ∧ e.field "expression" = f.toValue

/-- The tree is a program of the statements. -/
def Tree.IsProgramOf (t : Tree) (body : List Value) : Prop :=
  ∃ p : Node, t.root = p.toValue ∧ p.HasBody .program body

/-- The statements of a body that are there. -/
def statements (body : List Value) : List Value := body.filter fun w => !w.isNull

namespace Node

variable {n f : Node} {k : Kind} {body : List Value}

theorem children_of_computedField (h : k.computedField = none) :
    n.children k = k.entered.flatMap fun name => fieldChildren (n.field name) := by
  have hall : k.entered.filter (fun name => k.computedField != some name) = k.entered :=
    List.filter_eq_self.mpr fun name _ => by rw [h]; rfl
  unfold children enteredFields
  rw [hall, ite_self]

/-- Nothing is entered below an identifier or a `this`. -/
theorem children_of_reference (h : k = .identifier ∨ k = .thisExpression) : n.children k = [] := by
  rcases h with rfl | rfl <;> rw [children_of_computedField rfl] <;> rfl

theorem HasBody.children (h : n.HasBody k body) (hk : k.entered = ["body"]) (hc : k.computedField = none) :
    n.children k = statements body := by
  rw [children_of_computedField hc, hk]
  simp [h.2, fieldChildren, statements]

theorem IsStatementOf.children (h : n.IsStatementOf f) : n.children .expressionStatement = [f.toValue] := by
  rw [children_of_computedField rfl]
  simp [Kind.entered, h.2, fieldChildren, toValue]

namespace IsThunk

variable (h : f.IsThunk k body) (hk : k = .arrowFunctionExpression ∨ k = .functionExpression)
include h

theorem fieldChildren_params : fieldChildren (f.field "params") = [] := by
  unfold field
  cases hl : f.fields.lookup "params" with
  | none => rfl
  | some params =>
    rw [h.parameterless params hl]
    rfl

theorem membersOf_params : f.membersOf "params" = .ok [] := by
  unfold membersOf
  cases hl : f.fields.lookup "params" with
  | none => rfl
  | some params =>
    rw [h.parameterless params hl]
    rfl

include hk

theorem plain : f.Plain k where
  declarators := by rcases hk with rfl | rfl <;> decide
  handler := by rcases hk with rfl | rfl <;> decide
  imported := by rcases hk with rfl | rfl <;> rfl
  identifier := by rcases hk with rfl | rfl <;> decide
  thisExpression := by rcases hk with rfl | rfl <;> decide
  ownName _ := h.anonymous
  parameters _ := h.membersOf_params

theorem children {b : Node} (hb : f.field "body" = b.toValue) : f.children k = [b.toValue] := by
  have hbody : fieldChildren (f.field "body") = [b.toValue] := by rw [hb]; rfl
  have hid : fieldChildren (f.field "id") = [] := by rw [h.anonymous]; rfl
  rcases hk with rfl | rfl <;> rw [children_of_computedField rfl] <;>
    simp [Kind.entered, h.fieldChildren_params, hid, hbody]

end IsThunk

/-- Nodes that do nothing but hold others. -/
theorem plain_of_mem (n : Node) {k : Kind} (hk : k ∈ [Kind.blockStatement, .expressionStatement]) :
    n.Plain k := by
  simp only [List.mem_cons, List.not_mem_nil, or_false] at hk
  rcases hk with rfl | rfl <;> constructor <;> simp [Kind.isImport, Kind.isFunction, Kind.isClass]

end Node

/-! ### The frames of the wrapped programs -/

namespace Tree.IsProgramOf

variable {t : Tree} {body : List Value}

theorem exists_frame (h : t.IsProgramOf body) :
    ∃ F : Frame (statements body), t.root = F.root.toValue ∧ F.hasReceiver = false := by
  obtain ⟨p, hroot, hp⟩ := h
  exact ⟨.ofProgram p hp.1 (hp.children rfl rfl), hroot, Frame.hasReceiver_ofProgram _ _⟩

theorem exists_frame_single {n : Node} (h : t.IsProgramOf [n.toValue]) :
    ∃ F : Frame [n.toValue], t.root = F.root.toValue ∧ F.hasReceiver = false := h.exists_frame

theorem exists_frame_block {b : Node} (h : t.IsProgramOf [b.toValue]) (hb : b.HasBody .blockStatement body) :
    ∃ F : Frame (statements body), t.root = F.root.toValue ∧ F.hasReceiver = false := by
  obtain ⟨F, hroot, hF⟩ := h.exists_frame_single
  refine ⟨F.push hb.1 (b.plain_of_mem (by simp)) (hb.children rfl rfl), hroot, ?_⟩
  rw [Frame.hasReceiver_push, hF]
  rfl

theorem exists_frame_thunk {e f : Node} {k : Kind} (h : t.IsProgramOf [e.toValue]) (he : e.IsStatementOf f)
    (hf : f.IsThunk k body) (hk : k = .arrowFunctionExpression ∨ k = .functionExpression) :
    ∃ F : Frame (statements body), t.root = F.root.toValue ∧ F.hasReceiver = k.bindsReceiver := by
  obtain ⟨F, hroot, hF⟩ := h.exists_frame_single
  obtain ⟨b, hb, hbody⟩ := hf.block
  refine ⟨((F.push he.1 (e.plain_of_mem (by simp)) he.children).push hf.kind (hf.plain hk)
    (hf.children hk hb)).push hbody.1 (b.plain_of_mem (by simp)) (hbody.children rfl rfl), hroot, ?_⟩
  rw [Frame.hasReceiver_push, Frame.hasReceiver_push, Frame.hasReceiver_push, hF]
  simp [Kind.bindsReceiver]

end Tree.IsProgramOf

/-! ### Wrapping laws -/

/-- **Wrapping laws.** Where the analysis of a program succeeds, it succeeds on the program whose only
statement is a block of the same statements, and on the one whose only statement is an arrow function with
them as its body, and it reports the same nodes in the same order. With a plain function in the place of the
arrow function, it reports the same but for each `this` and each `arguments`. -/
theorem wrapped_reports {t : Tree} {body : List Value} (hbody : t.IsProgramOf body) (hfresh : t.Fresh)
    {name : Text} {found : List Group} (h : (t.analyze name).result = .ok found) :
    ∃ refs, t.Reports refs ∧
      (∀ (t' : Tree) (b : Node), t'.Fresh → t'.IsProgramOf [b.toValue] → b.HasBody .blockStatement body →
        ∃ refs', t'.Reports refs' ∧ refs'.map Reference.node = refs.map Reference.node) ∧
      (∀ (t' : Tree) (e f : Node), t'.Fresh → t'.IsProgramOf [e.toValue] → e.IsStatementOf f →
        f.IsThunk .arrowFunctionExpression body →
        ∃ refs', t'.Reports refs' ∧ refs'.map Reference.node = refs.map Reference.node) ∧
      ∀ (t' : Tree) (e f : Node), t'.Fresh → t'.IsProgramOf [e.toValue] → e.IsStatementOf f →
        f.IsThunk .functionExpression body →
        ∃ refs', t'.Reports refs' ∧
          refs'.map Reference.node = (refs.filter fun r => !r.needsReceiver).map Reference.node := by
  obtain ⟨F, hF, hreceiver⟩ := hbody.exists_frame
  obtain ⟨hp, hf, refs, hrefs, hgroups⟩ := Tree.analyze_result_eq_ok_iff.mp h
  have hreports : t.Reports refs := Tree.reports_iff.mpr ⟨hp, hf, hrefs, found, hgroups⟩
  refine ⟨refs, hreports, fun t' b hfresh' ht' hb => ?_, fun t' e f hfresh' ht' he hf => ?_,
    fun t' e f hfresh' ht' he hf => ?_⟩
  · obtain ⟨G, hG, hreceiver'⟩ := ht'.exists_frame_block hb
    obtain ⟨refs', hreports', hnodes⟩ := F.exists_reports G hreceiver hF hG hfresh hfresh' hreports
    exact ⟨refs', hreports', by simpa [hreceiver'] using hnodes⟩
  · obtain ⟨G, hG, hreceiver'⟩ := ht'.exists_frame_thunk he hf (.inl rfl)
    obtain ⟨refs', hreports', hnodes⟩ := F.exists_reports G hreceiver hF hG hfresh hfresh' hreports
    exact ⟨refs', hreports', by simpa [hreceiver', Kind.bindsReceiver] using hnodes⟩
  · obtain ⟨G, hG, hreceiver'⟩ := ht'.exists_frame_thunk he hf (.inr rfl)
    obtain ⟨refs', hreports', hnodes⟩ := F.exists_reports G hreceiver hF hG hfresh hfresh' hreports
    exact ⟨refs', hreports', by simpa [hreceiver', Kind.bindsReceiver] using hnodes⟩

/-- A node of a kind with a label. -/
def Kind.node (k : Kind) (label : Nat) (fields : List (String × Value)) : Node :=
  ⟨label, ("type", .text k.name) :: fields⟩

/-- The statement that consists of an identifier; the labels are the given one and the next. -/
def namedStatement (label : Nat) (name : Name) : Value :=
  (Kind.expressionStatement.node label
    [("expression", (Kind.identifier.node (label + 1) [("name", name.toValue)]).toValue)]).toValue

/-- The statement that declares a variable; the labels are the given one and the next two. -/
def declaringStatement (label : Nat) (kind name : Text) : Value :=
  (Kind.variableDeclaration.node label
    [("kind", .text kind),
     ("declarations", .array [(Kind.variableDeclarator.node (label + 1)
      [("id", (Kind.identifier.node (label + 2) [("name", .text name)]).toValue)]).toValue])]).toValue

/-- The statements `let a = b; a(arguments, this)`. -/
def receiverBody : List Value :=
  [(Kind.variableDeclaration.node 10
    [("kind", .text "let"),
     ("declarations", .array [(Kind.variableDeclarator.node 11
      [("id", (Kind.identifier.node 12 [("name", .text "a")]).toValue),
       ("init", (Kind.identifier.node 13 [("name", .text "b")]).toValue)]).toValue])]).toValue,
   (Kind.expressionStatement.node 14
    [("expression", (Kind.callExpression.node 15
      [("callee", (Kind.identifier.node 16 [("name", .text "a")]).toValue),
       ("arguments", .array
        [(Kind.identifier.node 17 [("name", .text "arguments")]).toValue,
         (Kind.thisExpression.node 18 []).toValue])]).toValue)]).toValue]

/-- A program without tables. -/
def Tree.programOf (body : List Value) : Tree :=
  ⟨(Kind.program.node 0 [("body", .array body)]).toValue, .empty, 19⟩

/-- A block of the statements. -/
def receiverBlock : Node := Kind.blockStatement.node 1 [("body", .array receiverBody)]

/-- A function of a kind around the block. -/
def receiverThunk (k : Kind) : Node :=
  k.node 2 [("id", .null), ("params", .array []), ("body", receiverBlock.toValue)]

/-- The function as a statement. -/
def receiverStatement (k : Kind) : Node :=
  Kind.expressionStatement.node 3 [("expression", (receiverThunk k).toValue)]

theorem isThunk_receiverThunk (k : Kind) : (receiverThunk k).IsThunk k receiverBody where
  kind := Node.kind?_eq_some_iff.mpr rfl
  anonymous := rfl
  parameterless := by
    intro params h
    cases h
    rfl
  block := ⟨receiverBlock, rfl, Node.kind?_eq_some_iff.mpr rfl, rfl⟩

theorem wrapped_reports_receiverBody :
    (Tree.programOf receiverBody).IsProgramOf receiverBody ∧ (Tree.programOf receiverBody).Fresh ∧
      ((Tree.programOf receiverBody).analyze "s").result.toOption.map (List.map Group.name) =
        some [.text "arguments", .text "b", .text "this"] ∧
      ((Tree.programOf [(receiverStatement .functionExpression).toValue]).analyze "s").result.toOption.map
        (List.map Group.name) = some [.text "b"] ∧
      ∃ refs, (Tree.programOf receiverBody).Reports refs ∧
        (∃ refs', (Tree.programOf [receiverBlock.toValue]).Reports refs' ∧
          refs'.map Reference.node = refs.map Reference.node) ∧
        (∃ refs', (Tree.programOf [(receiverStatement .arrowFunctionExpression).toValue]).Reports refs' ∧
          refs'.map Reference.node = refs.map Reference.node) ∧
        ∃ refs', (Tree.programOf [(receiverStatement .functionExpression).toValue]).Reports refs' ∧
          refs'.map Reference.node = (refs.filter fun r => !r.needsReceiver).map Reference.node := by
  have hprogram : ∀ body, (Tree.programOf body).IsProgramOf body :=
    fun body => ⟨_, rfl, Node.kind?_eq_some_iff.mpr rfl, rfl⟩
  have hfresh : ∀ body, (Tree.programOf body).root.labels.Nodup → (Tree.programOf body).Fresh :=
    fun body h => ⟨h, fun _ => rfl⟩
  have hlabels := hfresh receiverBody (by decide +kernel)
  have hstatement : ∀ k, (receiverStatement k).IsStatementOf (receiverThunk k) :=
    fun k => ⟨Node.kind?_eq_some_iff.mpr rfl, rfl⟩
  have hnames : ((Tree.programOf receiverBody).analyze "s").result.toOption.map (List.map Group.name) =
      some [.text "arguments", .text "b", .text "this"] := by decide +kernel
  obtain ⟨found, hfound, -⟩ := Option.map_eq_some_iff.mp hnames
  obtain ⟨refs, hrefs, hblock, harrow, hfunction⟩ :=
    wrapped_reports (hprogram receiverBody) hlabels (eq_ok_of_toOption hfound)
  refine ⟨hprogram receiverBody, hlabels, hnames, by decide +kernel, refs, hrefs, ?_, ?_, ?_⟩
  · exact hblock _ receiverBlock (hfresh _ (by decide +kernel)) (hprogram _)
      ⟨Node.kind?_eq_some_iff.mpr rfl, rfl⟩
  · exact harrow _ _ _ (hfresh _ (by decide +kernel)) (hprogram _) (hstatement _) (isThunk_receiverThunk _)
  · exact hfunction _ _ _ (hfresh _ (by decide +kernel)) (hprogram _) (hstatement _) (isThunk_receiverThunk _)

end FreeNames
