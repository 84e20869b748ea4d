import FreeNames.Analysis
import FreeNames.Proofs.Correspondence
import FreeNames.Proofs.FreeReferences

/-!
# Analyses of corresponding trees

Trees that correspond ask for the same acts up to the first that fails (`Complete.declarations`), so they end
up with the same tables, or fail with the same fault. What is found with the tables, and how it is grouped, is
then the same too, up to the renaming of names and to what belongs together (`Complete.analyze`).
-/

namespace FreeNames

/-- The text of the fault that ends an analysis, if it fails with one. -/
def Analyzed.message? (a : Analyzed) : Option Text :=
  match a.result with
  | .error fault => fault.message?
  | .ok _ => none

/-- The program whose only declaration has a pattern with the value for its kind. -/
def quotedProgram (kind : Value) : Tree :=
  .ofStatements
    [Kind.variableDeclaration.object
      [("kind", .text "var"),
       ("declarations", .array [Kind.variableDeclarator.object [("id", .object 0 [("type", kind)])]])]]

/-- What cannot be asked for a name is of the wrong sort. -/
theorem Visit.eq_wrongSort_of_binds {t : Tables} {v : Visit} {x : Name} {fault : Fault}
    (h : v.binds t x = .error fault) : fault = .wrongSort := by
  have hslot : ∀ label, t.binds label x = .error fault → fault = .wrongSort := by
    intro label h
    unfold Tables.binds Value.hasName at h
    split at h <;> cases h
    rfl
  unfold binds at h
  split at h
  · cases h
  · generalize v.around = around at h
    induction around with
    | nil => cases h
    | cons scope outer ih =>
      unfold boundAround at h
      split at h
      · cases h
      · cases hb : t.binds scope.label x with
        | error fault' =>
          rw [hb] at h
          cases h
          exact hslot _ hb
        | ok b =>
          rw [hb] at h
          cases b with
          | true => cases h
          | false => exact ih h

namespace Correspondence

variable {C : Correspondence}

/-! ### Acts -/

/-- Two acts do the same in their trees. What they note in the log may differ. -/
inductive Steps (C : Correspondence) : Act → Act → Prop where
  | note (text text' : Text) : Steps C (.note text) (.note text')
  | create {l l' : Nat} (h : C.labels l l') : Steps C (.create l) (.create l')
  | reach {l l' : Nat} (h : C.labels l l') : Steps C (.reach l) (.reach l')
  | bind {l l' : Nat} (h : C.labels l l') (x : Name) : Steps C (.bind l x) (.bind l' (x.rename C.names))

/-- Acts do the same up to the first failure. -/
inductive Acts (C : Correspondence) : List Act → List Act → Prop where
  | nil : Acts C [] []
  | cons {a b : Act} {as bs : List Act} (h : C.Steps a b) (hl : Acts C as bs) : Acts C (a :: as) (b :: bs)
  | fail {fault fault' : Fault} (h : C.Faults fault fault') (as bs : List Act) :
      Acts C (.fail fault :: as) (.fail fault' :: bs)

namespace Acts

theorem append {as as' bs bs' : List Act} (ha : C.Acts as as') (hb : C.Acts bs bs') :
    C.Acts (as ++ bs) (as' ++ bs') := by
  induction ha with
  | nil => exact hb
  | cons h _ ih => exact .cons h ih
  | fail h => exact .fail h _ _

theorem after {α β : Type} {R : α → β → Prop} {r : Except Fault α} {r' : Except Fault β}
    (h : C.Results R r r') {next : α → List Act} {next' : β → List Act}
    (hnext : ∀ a b, R a b → C.Acts (next a) (next' b)) : C.Acts (Act.after r next) (Act.after r' next') := by
  cases h with
  | ok h => exact hnext _ _ h
  | error h => exact .fail h _ _

theorem flatMap {α β : Type} {R : α → β → Prop} {l : List α} {l' : List β} (h : List.Forall₂ R l l')
    {f : α → List Act} {g : β → List Act} (hfg : ∀ a b, R a b → C.Acts (f a) (g b)) :
    C.Acts (l.flatMap f) (l'.flatMap g) := by
  induction h with
  | nil => exact .nil
  | cons h _ ih => exact (hfg _ _ h).append ih

/-- Acts of lists are the same if those of the items are, and fail where the items are no longer compared. -/
theorem flatMap_lists {l l' : List Value} (h : C.Lists l l') {f g : Value → List Act}
    (hfg : ∀ v w, C.values v w → C.Acts (f v) (g w)) (fault : Fault) (hfault : fault.isBreach = false)
    (hf : ∀ v : Value, v.node? = none → f v = [.fail fault])
    (hg : ∀ v : Value, v.node? = none → g v = [.fail fault]) : C.Acts (l.flatMap f) (l'.flatMap g) := by
  induction h with
  | nil => exact .nil
  | cons h _ ih => exact (hfg _ _ h).append ih
  | bar hv hw =>
    rw [List.flatMap_cons, List.flatMap_cons, hf _ hv.1, hg _ hw.1]
    exact .fail (.same hfault) _ _

/-- The first failures are the same. -/
theorem fault {as bs : List Act} (h : C.Acts as bs) :
    Option.Rel C.Faults (as.findSome? Act.fault?) (bs.findSome? Act.fault?) := by
  induction h with
  | nil => exact .none
  | cons h _ ih => cases h <;> exact ih
  | fail h => exact .some h

/-- Without a failure all that is done is the same. -/
theorem steps {as bs : List Act} (h : C.Acts as bs) (hclean : Act.Clean as) : List.Forall₂ C.Steps as bs := by
  induction h with
  | nil => exact .nil
  | cons h _ ih => exact .cons h (ih hclean.of_cons)
  | fail => exact absurd List.mem_cons_self (hclean _)

/-- What is done before the first failure is the same. -/
theorem live {as bs : List Act} (h : C.Acts as bs) : List.Forall₂ C.Steps (Act.live as) (Act.live bs) := by
  induction h with
  | nil => exact .nil
  | cons h _ ih => cases h <;> exact .cons (by constructor <;> assumption) ih
  | fail h => exact .nil

end Acts

theorem Bounds.acts {b b' : Bound} (h : C.Bounds b b') {l l' : Nat} (hl : C.labels l l') :
    C.Acts (b.acts l) (b'.acts l') := by
  have hfault := h.fault
  unfold Bound.acts
  refine .append ?_ ?_
  · rw [h.names]
    generalize b.names = names
    induction names with
    | nil => exact .nil
    | cons x rest ih => exact .cons (.bind hl x) ih
  · rw [h.atName]
    generalize b.fault = o, b'.fault = o' at hfault
    cases hfault with
    | none => exact .nil
    | some hf =>
      cases b.atName with
      | true => exact .cons (.reach hl) (.fail hf _ _)
      | false => exact .fail hf _ _

theorem nameValues_null : C.nameValues .null .null := rfl

theorem nameValues.isNull {v w : Value} (h : C.nameValues v w) : w.isNull = v.isNull := by
  have hiff : ∀ u : Value, u.isNull = true ↔ u.name? = some .null := by
    intro u
    cases u <;> simp [Value.isNull, Value.name?]
  rw [Bool.eq_iff_iff, hiff, hiff, h, Option.map_eq_some_iff]
  simp [Name.rename_eq_null_iff]

theorem nameValues.bindActs {v w : Value} (h : C.nameValues v w) {l l' : Nat} (hl : C.labels l l') :
    C.Acts (v.bindActs l) (w.bindActs l') := (Bounds.ofName (.ok h)).acts hl

/-! ### The acts of a visit -/

namespace Faithful

variable (hC : C.Faithful) {n n' : Node} {v v' : Visit}
include hC

theorem ownName (h : C.nodes n n') : C.Results C.nameValues n.ownName n'.ownName := by
  have hid := hC.field h "id" (by decide)
  unfold Node.ownName
  simp only [hC.isNull hid]
  split
  · exact .ok nameValues_null
  · exact hC.member_name hid

theorem declare (h : C.nodes n n') {x y : Value} (hxy : C.nameValues x y) :
    C.Acts (n.declare x) (n'.declare y) :=
  .cons (.note _ _) (.cons (.create (hC.reads h).label) (hxy.bindActs (hC.reads h).label))

theorem bindOwnName (h : C.nodes n n') : C.Acts n.bindOwnName n'.bindOwnName := by
  refine .after (hC.ownName h) fun x y hxy => ?_
  rw [hxy.isNull]
  split
  · exact .nil
  · exact hxy.bindActs (hC.reads h).label

theorem functionActs (h : C.nodes n n')
    (hparams : Option.Rel C.values (n.fields.lookup "params") (n'.fields.lookup "params")) :
    C.Acts n.functionActs n'.functionActs := by
  have hl := (hC.reads h).label
  refine .cons (.create hl) (.after (hC.membersOf hparams) fun l l' hlists => ?_)
  refine .append (.flatMap_lists hlists ?_ .notAnObject rfl ?_ ?_) (hC.bindOwnName h)
  · exact fun p q hpq => (hC.bound hpq).acts hl
  · intro p hp
    rw [bound_of_node?_eq_none hp]
    rfl
  · intro p hp
    rw [bound_of_node?_eq_none hp]
    rfl

theorem classActs (h : C.nodes n n') : C.Acts n.classActs n'.classActs :=
  .cons (.create (hC.reads h).label) (hC.bindOwnName h)

theorem find? {l l' : List Node} (h : List.Forall₂ C.nodes l l') (test : Kind → Bool) :
    Option.Rel C.nodes (l.find? fun n => n.hasKind test) (l'.find? fun n => n.hasKind test) := by
  induction h with
  | nil => exact .none
  | cons h _ ih =>
    rw [List.find?_cons, List.find?_cons, hC.hasKind h test]
    split
    · exact .some h
    · exact ih

theorem nearest (h : C.Visits v v') (test : Kind → Bool) :
    C.Results C.nodes (v.nearest fun n => n.hasKind test) (v'.nearest fun n => n.hasKind test) := by
  have hfind := hC.find? h.around test
  unfold Visit.nearest
  generalize v.around.find? _ = o, v'.around.find? _ = o' at hfind
  cases hfind with
  | some h => exact .ok h
  | none => exact .error (hC.breach h.node (.noEnclosingScope (hC.type h.node)))

theorem declareOwnName (h : C.Visits v v') (test : Kind → Bool) :
    C.Acts (v.declareOwnName fun n => n.hasKind test) (v'.declareOwnName fun n => n.hasKind test) := by
  refine .after (hC.ownName h.node) fun x y hxy => ?_
  rw [hxy.isNull]
  split
  · exact .nil
  · exact .after (hC.nearest h test) fun scope scope' hs => hC.declare hs hxy

theorem member_id {x y : Value} (h : C.values x y) : C.Results C.values (x.member "id") (y.member "id") := by
  have hnode := hC.node? h
  unfold Value.member
  generalize x.node? = o, y.node? = o' at hnode
  cases hnode with
  | some h => exact hC.require h "id" (by decide)
  | none => exact .error (.same rfl)

theorem variableActs (h : C.Visits v v') : C.Acts v.variableActs v'.variableActs := by
  have hbar : ∀ (label : Nat) (d : Value), d.node? = none →
      Act.after (d.member "id") (fun pattern => (FreeNames.bound pattern).acts label) =
        [.fail .wrongSort] := by
    intro label d hd
    simp [Value.member, hd, Act.after]
  have hdeclare : ∀ test : Kind → Bool,
      C.Acts
        (Act.after (v.nearest fun n => n.hasKind test) fun scope =>
          .note ((v.node.field "kind").plain ++ " declaration bound in " ++ scope.type.plain) ::
          .create scope.label ::
          Act.after (v.node.membersOf "declarations") fun declarators => declarators.flatMap fun d =>
            Act.after (d.member "id") fun pattern => (FreeNames.bound pattern).acts scope.label)
        (Act.after (v'.nearest fun n => n.hasKind test) fun scope =>
          .note ((v'.node.field "kind").plain ++ " declaration bound in " ++ scope.type.plain) ::
          .create scope.label ::
          Act.after (v'.node.membersOf "declarations") fun declarators => declarators.flatMap fun d =>
            Act.after (d.member "id") fun pattern => (FreeNames.bound pattern).acts scope.label) := by
    intro test
    refine .after (hC.nearest h test) fun scope scope' hs => ?_
    have hl := (hC.reads hs).label
    refine .cons (.note _ _) (.cons (.create hl) ?_)
    refine .after (hC.membersOf ((hC.reads h.node).field "declarations" (by decide))) fun l l' hlists => ?_
    refine .flatMap_lists hlists (fun d d' hd => ?_) .wrongSort rfl (hbar _) (hbar _)
    exact .after (hC.member_id hd) fun p q hpq => (hC.bound hpq).acts hl
  unfold Visit.variableActs
  simp only [hC.isText (hC.field h.node "kind" (by decide))]
  split
  · exact hdeclare Kind.isScope
  · exact hdeclare Kind.isBlockScope

theorem tryActs (h : C.Visits v v') : C.Acts v.tryActs v'.tryActs := by
  have hhandler := hC.field h.node "handler" (by decide)
  unfold Visit.tryActs
  generalize v.node.field "handler" = handler, v'.node.field "handler" = handler' at hhandler
  cases hC.shape hhandler with
  | atom ha =>
    cases handler with
    | null => exact .nil
    | array => cases ha
    | object => cases ha
    | _ => exact .fail (.same rfl) _ _
  | array => exact .fail (.same rfl) _ _
  | @node n n' hr =>
    have hparam := hC.field (show C.nodes n n' from hhandler) "param" (by decide)
    refine .cons (.create hr.label) ?_
    show C.Acts (if (n.field "param").isNull then [] else (FreeNames.bound (n.field "param")).acts n.label)
      (if (n'.field "param").isNull then [] else (FreeNames.bound (n'.field "param")).acts n'.label)
    rw [hC.isNull hparam]
    split
    · exact .nil
    · exact (hC.bound hparam).acts hr.label

theorem importActs (h : C.Visits v v') {root root' : Node} (hroot : C.nodes root root') :
    C.Acts (v.importActs root) (v'.importActs root') := by
  refine .after (Results.bind (hC.require h.node "local" (by decide)) fun x y hxy => ?_)
    fun x y hxy => hC.declare hroot hxy
  exact hC.member_name hxy

/-- Corresponding visits ask for the same acts. -/
theorem acts (h : C.Visits v v') {root root' : Node} (hroot : C.nodes root root')
    (hparams : v.kind.isFunction →
      Option.Rel C.values (v.node.fields.lookup "params") (v'.node.fields.lookup "params")) :
    C.Acts (v.acts root) (v'.acts root') := by
  unfold Visit.acts
  rw [h.kind]
  cases hk : v.kind with
  | variableDeclaration => exact hC.variableActs h
  | functionDeclaration =>
    exact (hC.declareOwnName h Kind.isScope).append (hC.functionActs h.node (hparams (by rw [hk]; rfl)))
  | functionExpression => exact hC.functionActs h.node (hparams (by rw [hk]; rfl))
  | arrowFunctionExpression => exact hC.functionActs h.node (hparams (by rw [hk]; rfl))
  | classDeclaration => exact (hC.declareOwnName h Kind.isBlockScope).append (hC.classActs h.node)
  | classExpression => exact hC.classActs h.node
  | tryStatement => exact hC.tryActs h
  | importSpecifier => exact hC.importActs h hroot
  | importDefaultSpecifier => exact hC.importActs h hroot
  | importNamespaceSpecifier => exact hC.importActs h hroot
  | _ => exact .nil

end Faithful

/-! ### Tables -/

theorem Complete.walk (hC : C.Complete) {v w : Value} (h : C.values v w) :
    C.Traces (walk v) (FreeNames.walk w) := by
  cases hnull : v.isNull with
  | true =>
    have hnull' := (hC.isNull h).trans hnull
    cases v <;> cases hnull
    cases w <;> cases hnull'
    rw [walk_null]
    exact .failed (.same rfl)
  | false =>
    rw [walk_eq_visits hnull, walk_eq_visits ((hC.isNull h).trans hnull)]
    exact hC.visits h .nil

/-- Corresponding trees ask for the same acts. -/
theorem Complete.declarations (hC : C.Complete) {v w : Value} (h : C.values v w) :
    C.Acts (declarations v) (FreeNames.declarations w) := by
  have hwalk := hC.walk h
  have hnode := hC.node? h
  unfold FreeNames.declarations
  refine .append ?_ ?_
  · generalize v.node? = o, w.node? = o' at hnode
    cases hnode with
    | none => exact .nil
    | some hroot => exact .flatMap hwalk.visits fun x y hxy => hC.acts hxy hroot fun _ => hC.params hxy.node
  · have hfault := hwalk.fault
    generalize (FreeNames.walk v).fault = o, (FreeNames.walk w).fault = o' at hfault
    cases hfault with
    | none => exact .nil
    | some hf => exact .fail hf _ _

namespace Faithful

variable (hC : C.Faithful) {as bs : List Act} (h : List.Forall₂ C.Steps as bs) {l l' : Nat}
  (hl : C.labels l l')
include hC h hl

theorem create_mem_iff : .create l ∈ as ↔ .create l' ∈ bs := by
  induction h with
  | nil => simp
  | cons h _ ih =>
    rw [List.mem_cons, List.mem_cons, ih]
    refine or_congr_left ?_
    cases h with
    | create h => simpa using hC.unique hl h
    | _ => simp

theorem namesFor : Act.namesFor l' bs = (Act.namesFor l as).map (Name.rename C.names) := by
  induction h with
  | nil => rfl
  | cons h _ ih =>
    cases h with
    | bind h x =>
      rw [Act.namesFor_bind, Act.namesFor_bind, ih]
      have hiff := hC.unique h hl
      split
      · rename_i heq
        rw [if_pos (hiff.mpr heq), List.map_cons]
      · rename_i hne
        rw [if_neg fun heq => hne (hiff.mp heq)]
    | _ => simpa using ih

end Faithful

/-- Where no name is renamed, corresponding acts do the same to a table that keeps its label. -/
theorem Faithful.sameFor (hC : C.Faithful) (hnames : C.names = .identity) {label : Nat}
    (hl : C.labels label label) {as bs : List Act} (h : C.Acts as bs) (hclean : Act.Clean as) :
    Act.SameFor label as bs := by
  have hsteps := h.steps hclean
  refine ⟨hC.create_mem_iff hsteps hl, ?_⟩
  rw [hC.namesFor hsteps hl, hnames]
  exact (List.map_id'' Name.rename_identity _).symm

/-- Slots after the same acts: a table is in both trees, with the same names up to the renaming, or neither
slot was touched. -/
theorem Complete.slot?_buildScopes (hC : C.Complete) {v w : Value} (h : C.values v w) (t t' : Tables)
    {l l' : Nat} (hl : C.labels l l') :
    (∃ set : NameSet, (buildScopes t v).1.tables.slot? l = some (.names set) ∧
        (buildScopes t' w).1.tables.slot? l' = some (.names (set.rename C.names))) ∨
      (buildScopes t v).1.tables.slot? l = t.slot? l ∧
        (buildScopes t' w).1.tables.slot? l' = t'.slot? l' := by
  have hlive := (hC.declarations h).live
  have hp := performed_buildScopes t v
  have hp' := performed_buildScopes t' w
  have hcreate := hC.create_mem_iff hlive hl
  by_cases hmem : .create l ∈ Act.live (FreeNames.declarations v)
  · refine .inl ⟨_, hp.new l List.not_mem_nil hmem, ?_⟩
    rw [hp'.new l' List.not_mem_nil (hcreate.mp hmem), hC.namesFor hlive hl, NameSet.ofList_rename]
  · refine .inr ⟨hp.other l List.not_mem_nil hmem, ?_⟩
    exact hp'.other l' List.not_mem_nil fun hmem' => hmem (hcreate.mpr hmem')

/-- The tables give the same answers, up to the renaming. -/
def Answers (C : Correspondence) (t t' : Tables) : Prop :=
  ∀ l l', C.labels l l' → ∀ x : Name, t'.binds l' (x.rename C.names) = t.binds l x

/-- The tables give the same answers for nodes around a place. -/
def AnswersAround (C : Correspondence) (t t' : Tables) (around : List Node) : Prop :=
  ∀ n ∈ around, ∀ l', C.labels n.label l' → ∀ x : Name, t'.binds l' (x.rename C.names) = t.binds n.label x

theorem Answers.around {t t' : Tables} (ht : C.Answers t t') (around : List Node) :
    C.AnswersAround t t' around := fun n _ l' hl => ht n.label l' hl

theorem Complete.answers_buildScopes (hC : C.Complete) {v w : Value} (h : C.values v w) {t t' : Tables}
    (ht : C.Answers t t') : C.Answers (buildScopes t v).1.tables (buildScopes t' w).1.tables := by
  intro l l' hl x
  rcases hC.slot?_buildScopes h t t' hl with ⟨set, hs, hs'⟩ | ⟨hs, hs'⟩
  · rw [Tables.binds_of_slot?_eq_names hs, Tables.binds_of_slot?_eq_names hs']
    simp only [NameSet.mem_rename]
  · rw [Tables.binds, Tables.binds, hs, hs']
    exact ht l l' hl x

/-! ### References -/

/-- Corresponding references. -/
structure References (C : Correspondence) (r r' : Reference) : Prop where
  node : C.nodes r.node r'.node
  around : List.Forall₂ C.nodes r.around r'.around

namespace Faithful

variable (hC : C.Faithful) {t t' : Tables}
include hC

theorem boundAround {around around' : List Node} (ht : C.AnswersAround t t' around)
    (h : List.Forall₂ C.nodes around around') (x : Name) :
    Visit.boundAround t' (x.rename C.names) around' = Visit.boundAround t x around := by
  induction h with
  | nil => rfl
  | @cons n n' _ _ h _ ih =>
    obtain ⟨hn, ht⟩ := List.forall_mem_cons.mp ht
    have hreceiver : n'.bindsReceiver = n.bindsReceiver := hC.hasKind h _
    unfold Visit.boundAround
    simp only [ih ht, hn _ (hC.reads h).label, hreceiver, Name.rename_eq_text_iff C.names.arguments]

section

variable {v v' : Visit} (ht : C.AnswersAround t t' v.around) (h : C.Visits v v')
include ht h

theorem binds (x : Name) : v'.binds t' (x.rename C.names) = v.binds t x := by
  unfold Visit.binds
  simp only [hC.boundAround ht h.around, Name.rename_eq_text_iff C.names.undefined]

theorem reference? : C.Results (Option.Rel C.References) (v.reference? t) (v'.reference? t') := by
  have href : C.References ⟨v.node, v.around⟩ ⟨v'.node, v'.around⟩ := ⟨h.node, h.around⟩
  unfold Visit.reference?
  rw [h.kind]
  split
  · refine Results.bind (Results.bind (hC.require_name h.node) fun x y => asName) fun x y hxy => ?_
    rw [hxy, hC.binds ht h]
    cases hb : v.binds t x with
    | error fault => exact .error (.same (by rw [Visit.eq_wrongSort_of_binds hb]; rfl))
    | ok b =>
      cases b with
      | true => exact .ok .none
      | false => exact .ok (.some href)
  · have hany : v'.around.any Node.bindsReceiver = v.around.any Node.bindsReceiver := by
      have haround := h.around
      generalize v.around = l, v'.around = l' at haround
      induction haround with
      | nil => rfl
      | cons h _ ih => rw [List.any_cons, List.any_cons, ih, Node.bindsReceiver, hC.hasKind h]; rfl
    rw [hany]
    split
    · exact .ok .none
    · exact .ok (.some href)
  · exact .ok .none

theorem isUnbound_iff : v.IsUnbound t ↔ v'.IsUnbound t' := by
  have hiff : ∀ {t : Tables} {v : Visit}, v.IsUnbound t ↔ ∃ r, v.reference? t = .ok (some r) := by
    intro t v
    simp only [Visit.reference?_eq_ok_some_iff, exists_and_left, exists_eq, and_true]
  have href := hC.reference? ht h
  rw [hiff, hiff]
  generalize v.reference? t = r, v'.reference? t' = r' at href
  cases href with
  | error => simp
  | ok ho => cases ho <;> simp

end

theorem referencesOf {vs vs' : List Visit} (ht : C.Answers t t') (h : List.Forall₂ C.Visits vs vs') :
    C.Results (List.Forall₂ C.References) (referencesOf t vs) (FreeNames.referencesOf t' vs') := by
  induction h with
  | nil => exact .ok .nil
  | cons h _ ih =>
    refine Results.bind (hC.reference? (ht.around _) h) fun r r' hr => Results.bind ih fun rs rs' hrs => .ok ?_
    cases hr with
    | none => exact hrs
    | some hr => exact .cons hr hrs

theorem isThis {r r' : Reference} (h : C.References r r') : r'.isThis = r.isThis :=
  hC.isText (hC.type h.node) _

theorem referenceName {r r' : Reference} (h : C.References r r') :
    C.Results (fun x y => y = x.rename C.names) r.name r'.name := by
  unfold Reference.name
  rw [hC.isThis h]
  split
  · exact .ok ((Name.rename_eq_text_iff C.names.this).mpr rfl).symm
  · exact Results.bind (hC.require_name h.node) fun x y => asName

end Faithful

theorem Complete.references (hC : C.Complete) {v w : Value} (h : C.values v w) {t t' : Tables}
    (ht : C.Answers t t') :
    C.Results (List.Forall₂ C.References) (references t v) (FreeNames.references t' w) := by
  have hwalk := hC.walk h
  have hfound := hC.referencesOf ht hwalk.visits
  have hfault := hwalk.fault
  unfold FreeNames.references
  dsimp only
  generalize FreeNames.referencesOf t _ = r, FreeNames.referencesOf t' _ = r' at hfound
  generalize (FreeNames.walk v).fault = o, (FreeNames.walk w).fault = o' at hfault
  cases hfound with
  | error hf => exact .error hf
  | ok hrefs =>
    cases hfault with
    | none => exact .ok hrefs
    | some hf => exact .error hf

/-! ### Groups -/

/-- Corresponding groups. -/
structure Groups (C : Correspondence) (g g' : Group) : Prop where
  name : g'.name = g.name.rename C.names
  references : List.Forall₂ C.References g.references g'.references

/-- The same groups, in an order of their own. -/
def Reordered (C : Correspondence) (found found' : List Group) : Prop :=
  ∃ same, List.Forall₂ C.Groups found same ∧ found'.Perm same

theorem Results.mapM {α β γ δ : Type} {R : α → β → Prop} {S : γ → δ → Prop} {f : α → Except Fault γ}
    {g : β → Except Fault δ} {l : List α} {l' : List β} (h : List.Forall₂ R l l')
    (hfg : ∀ a b, R a b → C.Results S (f a) (g b)) :
    C.Results (List.Forall₂ S) (l.mapM f) (l'.mapM g) := by
  induction h with
  | nil => exact .ok .nil
  | cons h _ ih =>
    rw [List.mapM_cons, List.mapM_cons]
    exact Results.bind (hfg _ _ h) fun c d hcd => Results.bind ih fun cs ds hcds => .ok (.cons hcd hcds)

/-- Corresponding references with their names. -/
def Named (C : Correspondence) (p p' : Name × Reference) : Prop :=
  p'.1 = p.1.rename C.names ∧ C.References p.2 p'.2

theorem referencesNamed {named named' : List (Name × Reference)} (h : List.Forall₂ C.Named named named')
    (x : Name) : List.Forall₂ C.References (referencesNamed named x)
      (FreeNames.referencesNamed named' (x.rename C.names)) := by
  unfold FreeNames.referencesNamed
  rw [List.forall₂_map_left_iff, List.forall₂_map_right_iff]
  refine (List.rel_filter (fun p p' hp => ?_) h).imp fun p p' hp => hp.2
  simp only [hp.1, Name.same_rename]

theorem Faithful.groups (hC : C.Faithful) {refs refs' : List Reference}
    (h : List.Forall₂ C.References refs refs') :
    C.Results C.Reordered (groups refs) (FreeNames.groups refs') := by
  have hnamed : C.Results (List.Forall₂ C.Named) (refs.mapM Reference.withName)
      (refs'.mapM Reference.withName) :=
    .mapM h fun r r' hr => Results.bind (hC.referenceName hr) fun x y hxy => .ok ⟨hxy, hr⟩
  refine Results.bind hnamed fun named named' hn => ?_
  have hfst : named'.map Prod.fst = (named.map Prod.fst).map (Name.rename C.names) := by
    induction hn with
    | nil => rfl
    | cons h _ ih => rw [List.map_cons, ih, h.1]; rfl
  rw [hfst, NameSet.ofList_rename]
  generalize NameSet.ofList (named.map Prod.fst) = set
  dsimp only
  rw [NameSet.isUniform_rename]
  split
  · refine .ok ⟨(set.toList.map (Name.rename C.names)).map fun y => ⟨y, FreeNames.referencesNamed named' y⟩,
      ?_, set.toList_rename_perm.map _⟩
    rw [List.map_map, List.forall₂_map_left_iff, List.forall₂_map_right_iff]
    exact List.forall₂_same.mpr fun x _ => ⟨rfl, referencesNamed hn x⟩
  · exact .error (.same rfl)

/-! ### Analyses -/

theorem Faithful.isProgram (hC : C.Faithful) {t t' : Tree} (h : C.values t.root t'.root) :
    t'.isProgram = t.isProgram := by
  have hnode := hC.node? h
  unfold Tree.isProgram
  generalize t.root.node? = o, t'.root.node? = o' at hnode
  cases hnode with
  | none => rfl
  | some hn => exact hC.isText (hC.type hn) _

/-- Analyses of corresponding trees come to the same. -/
theorem Complete.analyze (hC : C.Complete) {t t' : Tree} (h : C.values t.root t'.root)
    (ht : C.Answers t.tables t'.tables) (name : Text) :
    C.Results C.Reordered (t.analyze name).result (t'.analyze name).result := by
  have hprogram := hC.isProgram h
  cases hp : t.isProgram with
  | false =>
    rw [Tree.analyze_result_of_not_isProgram name hp,
      Tree.analyze_result_of_not_isProgram name (hprogram.trans hp)]
    exact .error (.same rfl)
  | true =>
    rw [Tree.analyze_result_of_isProgram name hp, Tree.analyze_result_of_isProgram name (hprogram.trans hp)]
    have hfault := (hC.declarations h).fault
    rw [← buildScopes_fault t.tables, ← buildScopes_fault t'.tables] at hfault
    have hrefs := hC.references h (hC.answers_buildScopes h ht)
    generalize (buildScopes t.tables t.root).2 = o, (buildScopes t'.tables t'.root).2 = o' at hfault
    cases hfault with
    | some hf => exact .error hf
    | none => exact Results.bind hrefs fun refs refs' hr => hC.groups hr

end Correspondence

end FreeNames
