import FreeNames.Proofs.LeftoverTables
import FreeNames.Session

/-!
# Building and analysing again

In a session that leaves its tree as it is, the first build decides everything. Whether it succeeds or
not, and whichever builder it is done with, every build after it ends in the same way and leaves each
table as it is, and so all that is found from then on is the same.

What carries the proof is that the acts of a build depend on the tree alone. A new builder makes the
tables of these acts anew. A builder that has been at work in the session before finds the tables that
it knows as the acts have left them, and adds names to them that they have already.
-/

namespace FreeNames

/-! ### Operations of a session -/

/-- What can be done in a session without a change to its tree. -/
inductive Operation where
  /-- A build with a new builder. -/
  | build
  /-- A build with the builder of the session. -/
  | rebuild
  | classify
  | analyze (name : Text)

/-- Whether an operation builds tables. -/
def Operation.builds : Operation → Bool
  | classify => false
  | _ => true

namespace Session

/-- The session after an operation. -/
def next (s : Session) : Operation → Session
  | .build => s.build.1
  | .rebuild => s.rebuild.1
  | .classify => s
  | .analyze name => (s.analyze name).1

/-- The session after operations in order. -/
def after (s : Session) (operations : List Operation) : Session := operations.foldl next s

/-- The fault that ends the build of an operation, if one does. An analysis builds with a new builder. -/
def buildFault (s : Session) : Operation → Option Fault
  | .build | .analyze _ => s.build.2.1
  | .rebuild => s.rebuild.2.1
  | .classify => none

end Session

/-! ### What a build leaves -/

namespace Value

/-- A build of the tree gives the node of a label a table. -/
def Creates (root : Value) (label : Nat) : Prop := .create label ∈ Act.live (declarations root)

/-- The table that a build of the tree leaves on a node that it gives one. -/
def builtTable (root : Value) (label : Nat) : NameSet :=
  .ofList (Act.namesFor label (Act.live (declarations root)))

end Value

/-- The builder knows only nodes that get a table by a build of the tree, and their tables are as such a
build leaves them. -/
def Building.Resumes (b : Building) (root : Value) : Prop :=
  ∀ label ∈ b.known, root.Creates label ∧ b.tables.slot? label = some (.names (root.builtTable label))

/-- What a build leaves does not depend on what the builder knows. -/
theorem Building.Resumes.build {b : Building} {root : Value} (h : b.Resumes root) :
    (b.build root).2 = (declarations root).findSome? Act.fault? ∧
      (∀ label, root.Creates label →
        (b.build root).1.tables.slot? label = some (.names (root.builtTable label))) ∧
      (∀ label, ¬ root.Creates label → (b.build root).1.tables.slot? label = b.tables.slot? label) ∧
      ∀ label ∈ (b.build root).1.known, root.Creates label := by
  have hsound : b.Sound := fun label hk => ⟨_, (h label hk).2⟩
  obtain ⟨hfault, hp, -⟩ := run_eq hsound (guarded_declarations root b.known)
  refine ⟨hfault, fun label hc => ?_, fun label hc => ?_, fun label hk => ?_⟩
  · by_cases hk : label ∈ b.known
    · -- The names are in the table already.
      have hsame : (Act.namesFor label (Act.live (declarations root))).foldl NameSet.insert
          (root.builtTable label) = root.builtTable label :=
        NameSet.foldl_insert_of_forall_mem fun x hx => NameSet.mem_ofList.mpr ⟨x, hx, rfl⟩
      have hold := hp.old label _ hk (h label hk).2
      rwa [hsame] at hold
    · exact hp.new label hk hc
  · exact hp.other label (fun hk => hc (h label hk).1) hc
  · rcases (hp.known label).mp hk with hk | hc
    · exact (h label hk).1
    · exact hc

theorem Building.resumes_start (tables : Tables) (root : Value) : (start tables).Resumes root := by
  intro label h
  simp [start] at h

/-! ### The first build of a session -/

namespace Session

/-- The builder of the session can take up its work again. -/
def Resumes (s : Session) : Prop := (Building.mk s.tree.tables s.known []).Resumes s.tree.root

theorem resumes_start (t : Tree) : (start t).Resumes := by
  intro label h
  simp [start] at h

variable {s : Session} {op : Operation}

/-- An operation leaves the tree as it is, but for its tables. -/
theorem root_next (s : Session) (op : Operation) : (s.next op).tree.root = s.tree.root := by
  cases op with
  | build => rfl
  | rebuild => rfl
  | classify => rfl
  | analyze name =>
    simp only [next, analyze]
    split <;> exact s.tree.analyze_root name

/-- An operation that builds nothing changes nothing. -/
theorem next_of_not_builds (hop : op.builds = false) : s.next op = s := by
  cases op with
  | classify => rfl
  | build => cases hop
  | rebuild => cases hop
  | analyze name => cases hop

theorem after_of_not_builds {operations : List Operation} (h : ∀ op ∈ operations, op.builds = false) :
    s.after operations = s := by
  induction operations with
  | nil => rfl
  | cons op rest ih =>
    obtain ⟨hop, hrest⟩ := List.forall_mem_cons.mp h
    rw [after, List.foldl_cons, next_of_not_builds hop]
    exact ih hrest

theorem tables_analyze (hp : s.tree.isProgram) (name : Text) :
    (s.analyze name).1.tree.tables = (buildScopes s.tree.tables s.tree.root).1.tables := by
  rw [← Tree.analyze_tables name hp]
  simp only [analyze]
  split <;> rfl

theorem known_analyze (name : Text) : (s.analyze name).1.known = s.known := by
  simp only [analyze]
  split <;> rfl

/-- The builds of all operations end as the acts of the tree say. -/
theorem buildFault_of_builds (hs : s.Resumes) (hop : op.builds) :
    s.buildFault op = (declarations s.tree.root).findSome? Act.fault? := by
  have hnew := buildScopes_fault s.tree.tables s.tree.root
  cases op with
  | build => exact hnew
  | rebuild => exact (Building.Resumes.build hs).1
  | classify => cases hop
  | analyze name => exact hnew

/-- The builds of all operations leave the same tables. -/
theorem slot?_next_of_builds (hp : s.tree.isProgram) (hs : s.Resumes) (hop : op.builds) (label : Nat) :
    (s.tree.root.Creates label → (s.next op).tree.tables.slot? label =
        some (.names (s.tree.root.builtTable label))) ∧
      (¬ s.tree.root.Creates label → (s.next op).tree.tables.slot? label = s.tree.tables.slot? label) := by
  obtain ⟨-, hnew, hother, -⟩ := (Building.resumes_start s.tree.tables s.tree.root).build
  cases op with
  | build => exact ⟨hnew label, hother label⟩
  | rebuild =>
    obtain ⟨-, hnew, hother, -⟩ := Building.Resumes.build hs
    exact ⟨hnew label, hother label⟩
  | classify => cases hop
  | analyze name =>
    simp only [next, tables_analyze hp]
    exact ⟨hnew label, hother label⟩

/-- The tables are as a build leaves them, and the builder of the session can take up its work again. -/
structure Settled (s : Session) : Prop where
  resumes : s.Resumes
  built : ∀ label, s.tree.root.Creates label →
    s.tree.tables.slot? label = some (.names (s.tree.root.builtTable label))

theorem known_next_creates (hs : s.Resumes) {label : Nat} (h : label ∈ (s.next op).known) :
    s.tree.root.Creates label := by
  cases op with
  | build => exact (hs label h).1
  | rebuild =>
    obtain ⟨-, -, -, hknown⟩ := Building.Resumes.build hs
    exact hknown label h
  | classify => exact (hs label h).1
  | analyze name =>
    simp only [next, known_analyze] at h
    exact (hs label h).1

/-- A session is settled after its first build. -/
theorem settled_next_of_builds (hp : s.tree.isProgram) (hs : s.Resumes) (hop : op.builds) :
    (s.next op).Settled := by
  have hbuilt : ∀ label, (s.next op).tree.root.Creates label → (s.next op).tree.tables.slot? label =
      some (.names ((s.next op).tree.root.builtTable label)) := by
    intro label hc
    rw [root_next] at hc ⊢
    exact (slot?_next_of_builds hp hs hop label).1 hc
  refine ⟨fun label hk => ?_, hbuilt⟩
  have hc : (s.next op).tree.root.Creates label := by
    rw [root_next]
    exact known_next_creates hs hk
  exact ⟨hc, hbuilt label hc⟩

/-- In a settled session, no operation changes a table. -/
theorem Settled.slot?_next (h : s.Settled) (hp : s.tree.isProgram) (op : Operation) (label : Nat) :
    (s.next op).tree.tables.slot? label = s.tree.tables.slot? label := by
  cases hop : op.builds with
  | false => rw [next_of_not_builds hop]
  | true =>
    obtain ⟨hnew, hother⟩ := slot?_next_of_builds hp h.resumes hop label
    by_cases hc : s.tree.root.Creates label
    · rw [hnew hc, h.built label hc]
    · exact hother hc

theorem Settled.next (h : s.Settled) (hp : s.tree.isProgram) (op : Operation) : (s.next op).Settled := by
  cases hop : op.builds with
  | true => exact settled_next_of_builds hp h.resumes hop
  | false => rwa [next_of_not_builds hop]

theorem isProgram_next (hp : s.tree.isProgram) (op : Operation) : (s.next op).tree.isProgram := by
  unfold Tree.isProgram at hp ⊢
  rwa [root_next]

/-- Operations in order keep a session settled, its tree and its tables. -/
theorem Settled.after (h : s.Settled) (hp : s.tree.isProgram) (operations : List Operation) :
    (s.after operations).Settled ∧ (s.after operations).tree.root = s.tree.root ∧
      ∀ label, (s.after operations).tree.tables.slot? label = s.tree.tables.slot? label := by
  induction operations generalizing s with
  | nil => exact ⟨h, rfl, fun _ => rfl⟩
  | cons op rest ih =>
    obtain ⟨hsettled, hroot, hslots⟩ := ih (h.next hp op) (isProgram_next hp op)
    refine ⟨hsettled, hroot.trans (root_next s op), fun label => ?_⟩
    exact (hslots label).trans (h.slot?_next hp op label)

/-! ### What is found -/

theorem analyze_eq_result (s : Session) (name : Text) :
    (s.analyze name).2.1 = (s.tree.analyze name).result := by
  simp only [analyze]
  cases (s.tree.analyze name).result <;> rfl

end Session

/-- What is found in a program depends on its tree and the slots of its tables. -/
theorem Tree.references_congr {t : Tree} (hp : t.isProgram) {tables others : Tables}
    (h : ∀ label, tables.slot? label = others.slot? label) :
    references tables t.root = references others t.root := by
  unfold isProgram at hp
  cases hn : t.root.node? with
  | none => simp [hn] at hp
  | some n =>
    rw [Value.node?_eq_some_iff.mp hn]
    exact FreeNames.references_congr fun _ _ m _ => h m.label

/-- Analyses of one tree come to the same where the nodes that a build gives no table have the same
slots. -/
theorem Tree.analyze_result_congr {t t' : Tree} (hp : t.isProgram) (hroot : t'.root = t.root)
    (h : ∀ label, ¬ t.root.Creates label → t'.tables.slot? label = t.tables.slot? label) (name : Text) :
    (t'.analyze name).result = (t.analyze name).result := by
  have hp' : t'.isProgram := by
    unfold isProgram at hp ⊢
    rwa [hroot]
  have hslots : ∀ label, (buildScopes t'.tables t.root).1.tables.slot? label =
      (buildScopes t.tables t.root).1.tables.slot? label := by
    intro label
    obtain ⟨-, hnew, hother, -⟩ := (Building.resumes_start t.tables t.root).build
    obtain ⟨-, hnew', hother', -⟩ := (Building.resumes_start t'.tables t.root).build
    by_cases hc : t.root.Creates label
    · exact (hnew' label hc).trans (hnew label hc).symm
    · exact (hother' label hc).trans ((h label hc).trans (hother label hc).symm)
  rw [analyze_result_of_isProgram name hp', analyze_result_of_isProgram name hp, hroot,
    buildScopes_fault, buildScopes_fault, references_congr hp hslots]

/-- **After its first build, a session stays as it is.** Whatever was classified before, and whatever is
done after it: each later build ends as the first one did, with the same fault or without one, and
leaves every table as it is, each classification finds the same references in the same order, and each
analysis comes to what an analysis in the place of the first build comes to. -/
theorem settled_after_build {t : Tree} (hp : t.isProgram) {before : List Operation}
    (hbefore : ∀ op ∈ before, op.builds = false) {first : Operation} (hfirst : first.builds)
    (later : List Operation) :
    let s₀ := (Session.start t).after before
    let s₁ := s₀.next first
    let s := s₁.after later
    (∀ op, op.builds → s.buildFault op = s₀.buildFault first) ∧
    (∀ op label, (s.next op).tree.tables.slot? label = s₁.tree.tables.slot? label) ∧
    s.classify = s₁.classify ∧
    ∀ name, (s.analyze name).2.1 = (s₀.analyze name).2.1 := by
  intro s₀ s₁ s
  have hs₀ : s₀ = .start t := Session.after_of_not_builds hbefore
  have hp₀ : s₀.tree.isProgram := hs₀ ▸ hp
  have hresumes : s₀.Resumes := hs₀ ▸ Session.resumes_start t
  have hsettled : s₁.Settled := Session.settled_next_of_builds hp₀ hresumes hfirst
  have hp₁ : s₁.tree.isProgram := Session.isProgram_next hp₀ first
  obtain ⟨hs, hroot, hslots⟩ := hsettled.after hp₁ later
  have hp' : s.tree.isProgram := by
    unfold Tree.isProgram at hp₁ ⊢
    rwa [hroot]
  have hroot₀ : s.tree.root = s₀.tree.root := hroot.trans (Session.root_next s₀ first)
  refine ⟨fun op hop => ?_, fun op label => ?_, ?_, fun name => ?_⟩
  · rw [Session.buildFault_of_builds hs.resumes hop, Session.buildFault_of_builds hresumes hfirst, hroot₀]
  · exact (hs.slot?_next hp' op label).trans (hslots label)
  · show references s.tree.tables s.tree.root = references s₁.tree.tables s₁.tree.root
    rw [hroot]
    exact Tree.references_congr hp₁ hslots
  · rw [Session.analyze_eq_result, Session.analyze_eq_result]
    refine Tree.analyze_result_congr hp₀ hroot₀ (fun label hc => ?_) name
    exact (hslots label).trans ((Session.slot?_next_of_builds hp₀ hresumes hfirst label).2 hc)

/-- The program `var a; let 1; b`, with a table from before on its last statement. A build of it fails
after the first declaration. -/
def halfBuiltProgram : Tree :=
  .ofValue (Kind.program.object
    [("body", .array
      [Kind.variableDeclaration.object
        [("kind", .text "var"),
         ("declarations", .array [Kind.variableDeclarator.object [("id", .identifier "a")]])],
       Kind.variableDeclaration.object
        [("kind", .text "let"),
         ("declarations", .array [Kind.variableDeclarator.object [("id", Kind.literal.object [])]])],
       Kind.expressionStatement.object
        [("expression", .identifier "b"), (tableField, .array [.text "old"])]])])

theorem settled_after_build_halfBuiltProgram :
    let s₀ := (Session.start halfBuiltProgram).after [.classify]
    let s₁ := s₀.next .rebuild
    let s := s₁.after [.build, .classify, .analyze "s"]
    halfBuiltProgram.isProgram ∧ (s₀.buildFault .rebuild).isSome ∧ s₁.classify.toOption.isSome ∧
      s₁.tree.tables.slots.length = 2 ∧
      (∀ op, op.builds → s.buildFault op = s₀.buildFault .rebuild) ∧
      (∀ op label, (s.next op).tree.tables.slot? label = s₁.tree.tables.slot? label) ∧
      s.classify = s₁.classify ∧ ∀ name, (s.analyze name).2.1 = (s₀.analyze name).2.1 := by
  have hp : halfBuiltProgram.isProgram := by decide +kernel
  have hbefore : ∀ op ∈ [Operation.classify], op.builds = false := by
    intro op hop
    rw [List.mem_singleton.mp hop]
    rfl
  have hfirst : Operation.rebuild.builds := rfl
  have h := settled_after_build hp hbefore hfirst [.build, .classify, .analyze "s"]
  have hfails : (((Session.start halfBuiltProgram).after [.classify]).buildFault .rebuild).isSome := by
    decide +kernel
  have hfound :
      (((Session.start halfBuiltProgram).after [.classify]).next .rebuild).classify.toOption.isSome := by
    decide +kernel
  have htables :
      (((Session.start halfBuiltProgram).after [.classify]).next .rebuild).tree.tables.slots.length = 2 := by
    decide +kernel
  exact ⟨hp, hfails, hfound, htables, h⟩

end FreeNames
