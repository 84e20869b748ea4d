import FreeNames.Proofs.PatternSpots
import FreeNames.Proofs.BuilderReuse

/-!
# What a build leaves behind that fails

A build stops at the first failure and leaves the tables as they are by then. The declarations that were
met before are complete (`Node.StopsAt`), and have bound all their names. The one that fails has bound
the names that it comes to before it fails (`Visit.BindsEarly`): the name of a function or class in the scope
around it, and what stands to the left of the first fault in its patterns. The tables hold these names
and no others, on nodes that one of these declarations is for; all else in the tree is as it was.
-/

namespace FreeNames

/-! ### Acts in front of the first failure -/

namespace Act

variable {act : Act} {as bs : List Act}

theorem live_of_clean (h : Clean as) : live as = as := live_eq_self (clean_iff_findSome?_eq_none.mp h)

theorem live_subset : live as ⊆ as := List.takeWhile_subset _

theorem live_cons (h : act.fault? = none) : live (act :: as) = act :: live as := by simp [live, h]

theorem live_append_of_clean (h : Clean as) : live (as ++ bs) = as ++ live bs := by
  refine List.takeWhile_append_of_pos fun act hact => ?_
  cases act with
  | fail fault => exact absurd hact (h fault)
  | _ => rfl

/-- Nothing follows a failure. -/
theorem live_append_of_not_clean (h : ¬ Clean as) : live (as ++ bs) = live as := by
  induction as with
  | nil => exact absurd clean_nil h
  | cons act as ih =>
    cases hf : act.fault? with
    | some fault => simp [live, hf]
    | none =>
      rw [clean_cons_iff hf] at h
      rw [List.cons_append, live_cons hf, live_cons hf, ih h]

theorem mem_live_append_iff : act ∈ live (as ++ bs) ↔ act ∈ live as ∨ Clean as ∧ act ∈ live bs := by
  by_cases h : Clean as
  · rw [live_append_of_clean h, live_of_clean h, List.mem_append]
    simp [h]
  · rw [live_append_of_not_clean h]
    simp [h]

theorem mem_live_flatMap_iff {α : Type} {l : List α} {f : α → List Act} :
    act ∈ live (l.flatMap f) ↔ ∃ (i : Nat) (a : α), l[i]? = some a ∧ act ∈ live (f a) ∧
      ∀ j < i, ∀ b, l[j]? = some b → Clean (f b) := by
  refine iff_exists_getElem? (R := fun l => act ∈ live (l.flatMap f)) List.not_mem_nil (fun a l => ?_) l
  rw [List.flatMap_cons, mem_live_append_iff]

/-- Acts that follow from a value are performed once the value is there. -/
theorem mem_live_after_iff {α : Type} {r : Except Fault α} {next : α → List Act} :
    act ∈ live (after r next) ↔ ∃ a, r = .ok a ∧ act ∈ live (next a) := by
  cases r with
  | ok a => simp [after]
  | error fault => simp [after, live, fault?]

/-- Where acts fail that are asked for one after another, there is a first one that fails. -/
theorem exists_first_not_clean {α : Type} {l : List α} {f : α → List Act} (h : ¬ Clean (l.flatMap f)) :
    ∃ before a rest, l = before ++ a :: rest ∧ (∀ b ∈ before, Clean (f b)) ∧ ¬ Clean (f a) := by
  induction l with
  | nil => exact absurd clean_nil h
  | cons a l ih =>
    by_cases ha : Clean (f a)
    · have hl : ¬ Clean (l.flatMap f) := by
        intro hl
        exact h (List.flatMap_cons ▸ Clean.append_iff.mpr ⟨ha, hl⟩)
      obtain ⟨before, b, rest, rfl, hbefore, hb⟩ := ih hl
      exact ⟨a :: before, b, rest, rfl, List.forall_mem_cons.mpr ⟨ha, hbefore⟩, hb⟩
    · exact ⟨[], a, l, rfl, by simp, ha⟩

end Act

open Act (live)

/-! ### Names in front of the first failure -/

section

variable {label other : Nat} {x : Name}

theorem Bound.bind_mem_live_acts_iff {b : Bound} :
    .bind other x ∈ live (b.acts label) ↔ other = label ∧ x ∈ b.names := by
  constructor
  · exact fun h => bind_mem_acts_iff.mp (Act.live_subset h)
  · rintro ⟨rfl, hx⟩
    have hnames : Act.Clean (b.names.map (.bind other)) := by
      intro fault hf
      obtain ⟨y, -, hy⟩ := List.mem_map.mp hf
      cases hy
    rw [acts, Act.live_append_of_clean hnames]
    exact List.mem_append_left _ (List.mem_map_of_mem hx)

/-- The acts of a spot, or the failure to get there. -/
theorem after_bound_acts (q : Spot) :
    Act.after q (fun p => (bound p).acts label) = (boundAt q).acts label := by
  cases q <;> rfl

/-- Spots that are bound one after another bind what a reading of them comes to. -/
theorem bind_mem_live_spots_iff {l : List Spot} :
    .bind other x ∈ live (l.flatMap fun q => (boundAt q).acts label) ↔
      other = label ∧ Spot.MeetsIn l (.ok (.name x)) := by
  simp only [Act.mem_live_flatMap_iff, Bound.bind_mem_live_acts_iff, Bound.clean_acts_iff]
  rw [← exists_boundAt_iff_meetsIn (P := fun b => x ∈ b.names) fun q _ => mem_names_boundAt_iff]
  constructor
  · rintro ⟨i, q, hq, ⟨hl, hx⟩, hbefore⟩
    exact ⟨hl, i, q, hq, hx, hbefore⟩
  · rintro ⟨hl, i, q, hq, hx, hbefore⟩
    exact ⟨i, q, hq, ⟨hl, hx⟩, hbefore⟩

/-- Members of a field that are bound one after another. Names are met only in members that are items of
an array, since the members of anything else are no objects. -/
theorem bind_mem_live_members_iff {n : Node} {name : String} (f : Value → Spot)
    (hf : ∀ (v : Value) (m : Node), f v = .ok m.toValue → ∃ q : Node, v = q.toValue) :
    (∃ l, n.membersOf name = .ok l ∧ .bind other x ∈ live (l.flatMap fun v => (boundAt (f v)).acts label)) ↔
      other = label ∧ ∃ l, n.field name = .array l ∧ Spot.MeetsIn (l.map f) (.ok (.name x)) := by
  have hspots : ∀ l : List Value, .bind other x ∈ live (l.flatMap fun v => (boundAt (f v)).acts label) ↔
      other = label ∧ Spot.MeetsIn (l.map f) (.ok (.name x)) := by
    intro l
    rw [← bind_mem_live_spots_iff, List.flatMap_map]
  constructor
  · rintro ⟨l, hl, hb⟩
    obtain ⟨hlabel, hmeets⟩ := (hspots l).mp hb
    refine ⟨hlabel, l, ?_, hmeets⟩
    obtain ⟨i, q, hq, ⟨path, hpath, -⟩, -⟩ := hmeets
    obtain ⟨m, rfl⟩ := Spot.exists_node_of_foundAt hpath
    obtain ⟨v, hv, hspot⟩ := List.mem_map.mp (List.mem_of_getElem? hq)
    obtain ⟨q, rfl⟩ := hf v m hspot
    exact Node.field_eq_array_of_membersOf hl hv
  · rintro ⟨hlabel, l, hl, hmeets⟩
    exact ⟨l, Node.membersOf_of_field_eq_array hl, (hspots l).mpr ⟨hlabel, hmeets⟩⟩

end

/-! ### What a declaration that fails has bound -/

namespace Visit

/-- `v.BindsEarly scope x`: the declaration that is met as `v`, which fails, has bound the name `x`
in the node `scope` by then. -/
inductive BindsEarly (v : Visit) : Node → Name → Prop where
  /-- The names to the left of the first fault in the patterns of a variable declaration. -/
  | declarator {scope : Node} {x : Name} {declarators : List Value} (hk : v.kind = .variableDeclaration)
      (hs : v.Nearest v.variableScope scope) (hd : v.node.field "declarations" = .array declarators)
      (hx : Spot.MeetsIn (declarators.map fun d => d.member "id") (.ok (.name x))) : BindsEarly v scope x
  /-- The name of a function declaration is bound around it before its parameters are read. -/
  | functionName {scope : Node} {x : Name} (hk : v.kind = .functionDeclaration) (hx : v.node.OwnName x)
      (hs : v.Nearest Node.isScope scope) : BindsEarly v scope x
  /-- The names to the left of the first fault in the parameters, if there was none in the name. -/
  | parameter {x : Name} {params : List Value} (hk : v.kind.isFunction)
      (hname : v.kind = .functionDeclaration → Act.Clean (v.declareOwnName Node.isScope))
      (hp : v.node.field "params" = .array params)
      (hx : Spot.MeetsIn (params.map .ok) (.ok (.name x))) : BindsEarly v v.node x
  /-- The names to the left of the first fault in a catch parameter. -/
  | catchParameter {handler : Node} {x : Name} (hk : v.kind = .tryStatement)
      (hh : v.node.field "handler" = handler.toValue)
      (hx : Spot.Meets (.ok (handler.field "param")) (.ok (.name x))) : BindsEarly v handler x

variable {v : Visit} {root scope : Node} {accepts : Node → Bool} {label : Nat} {x : Name}

theorem targets_of_variableScope (hk : v.kind = .variableDeclaration)
    (hs : v.Nearest v.variableScope scope) : v.Targets root scope := by
  cases hv : v.isVar with
  | true => exact .var hk hv (by simpa [variableScope, hv] using hs)
  | false => exact .lexical hk hv (by simpa [variableScope, hv] using hs)

/-- Names are bound early in targets only. -/
theorem BindsEarly.targets (h : v.BindsEarly scope x) : v.Targets root scope := by
  cases h with
  | declarator hk hs _ _ => exact targets_of_variableScope hk hs
  | functionName hk hx hs => exact .functionName hk ⟨x, hx⟩ hs
  | parameter hk _ _ _ => exact .own (.inl hk)
  | catchParameter hk hh _ => exact .handler hk hh

theorem bind_mem_live_variableActs_iff :
    .bind label x ∈ live v.variableActs ↔ ∃ scope, v.Nearest v.variableScope scope ∧ label = scope.label ∧
      ∃ declarators, v.node.field "declarations" = .array declarators ∧
        Spot.MeetsIn (declarators.map fun d => d.member "id") (.ok (.name x)) := by
  have hitem : ∀ (d : Value) (m : Node), d.member "id" = .ok m.toValue → ∃ q : Node, d = q.toValue := by
    intro d m hd
    obtain ⟨q, hq, -⟩ := Value.exists_of_member_eq_ok hd
    exact ⟨q, hq⟩
  unfold variableActs
  rw [Act.mem_live_after_iff]
  refine exists_congr fun scope => and_congr nearest_eq_ok_iff ?_
  rw [Act.live_cons rfl, Act.live_cons rfl, List.mem_cons, List.mem_cons, Act.mem_live_after_iff,
    ← bind_mem_live_members_iff (fun d => d.member "id") hitem]
  simp only [reduceCtorEq, false_or, after_bound_acts]

end Visit

/-- A name of its own that cannot be bound is not bound. -/
theorem Node.bind_not_mem_live_bindOwnName {n : Node} {label : Nat} {x : Name}
    (h : ¬ Act.Clean n.bindOwnName) : .bind label x ∉ live n.bindOwnName := by
  intro hb
  obtain ⟨-, hx⟩ := bind_mem_bindOwnName_iff.mp (Act.live_subset hb)
  exact h (clean_bindOwnName_iff.mpr ⟨x, (ownName_eq_ok_iff.mpr hx).1⟩)

theorem Node.bind_not_mem_live_classActs {n : Node} {label : Nat} {x : Name}
    (h : ¬ Act.Clean n.classActs) : .bind label x ∉ live n.classActs := by
  rw [classActs, Act.clean_cons_iff rfl] at h
  rw [classActs, Act.live_cons rfl, List.mem_cons]
  simpa using bind_not_mem_live_bindOwnName h

theorem Node.bind_mem_live_functionActs_iff {n : Node} {label : Nat} {x : Name}
    (h : ¬ Act.Clean n.functionActs) :
    .bind label x ∈ live n.functionActs ↔ label = n.label ∧
      ∃ params, n.field "params" = .array params ∧ Spot.MeetsIn (params.map .ok) (.ok (.name x)) := by
  rw [functionActs, Act.clean_cons_iff rfl] at h
  rw [functionActs, Act.live_cons rfl, List.mem_cons, Act.mem_live_after_iff,
    ← bind_mem_live_members_iff .ok fun v m hv => ⟨m, Except.ok.inj hv⟩]
  simp only [reduceCtorEq, false_or, Act.mem_live_append_iff, boundAt]
  refine exists_congr fun params => and_congr_right fun hparams => ?_
  -- The node's own name comes last: if it is bound, nothing has failed.
  refine or_iff_left ?_
  rintro ⟨hclean, hb⟩
  rw [hparams, Act.after, Act.Clean.append_iff] at h
  exact bind_not_mem_live_bindOwnName (fun hname => h ⟨hclean, hname⟩) hb

namespace Visit

variable {v : Visit} {root scope : Node} {accepts : Node → Bool} {label : Nat} {x : Name}

theorem exists_ownName_of_clean (h : Act.Clean (v.declareOwnName accepts)) :
    ∃ y : Name, v.node.ownName = .ok y.toValue := by
  obtain ⟨name, hname, hclean⟩ := h.exists_of_after
  split at hclean
  · rename_i hnull
    obtain ⟨y, rfl⟩ := Value.exists_name_of_isNull hnull
    exact ⟨y, hname⟩
  · obtain ⟨scope, -, hclean⟩ := hclean.exists_of_after
    obtain ⟨y, rfl⟩ := Node.clean_declare_iff.mp hclean
    exact ⟨y, hname⟩

/-- A function or class whose name cannot be bound around it is not bound there. -/
theorem bind_not_mem_live_declareOwnName (h : ¬ Act.Clean (v.declareOwnName accepts)) :
    .bind label x ∉ live (v.declareOwnName accepts) := by
  intro hb
  obtain ⟨hx, scope, hs, -⟩ := bind_mem_declareOwnName_iff.mp (Act.live_subset hb)
  exact h ((clean_declareOwnName_iff ⟨scope, hs.mem_around, List.find?_some hs⟩).mpr
    ⟨x, (Node.ownName_eq_ok_iff.mpr hx).1⟩)

theorem bind_mem_live_tryActs_iff :
    .bind label x ∈ live v.tryActs ↔
      ∃ handler : Node, v.node.field "handler" = handler.toValue ∧ label = handler.label ∧
        Spot.Meets (.ok (handler.field "param")) (.ok (.name x)) := by
  have hhandler : ∀ {handler : Node}, v.node.field "handler" = handler.toValue →
      (.bind label x ∈ live v.tryActs ↔
        label = handler.label ∧ Spot.Meets (.ok (handler.field "param")) (.ok (.name x))) := by
    intro handler hh
    rw [tryActs_of_handler hh, Act.live_cons rfl, List.mem_cons]
    simp only [reduceCtorEq, false_or]
    split
    · rename_i hnull
      refine iff_of_false List.not_mem_nil ?_
      rintro ⟨-, path, hpath, -⟩
      -- A clause without a parameter has no names to come to.
      obtain ⟨m, hm⟩ := Spot.exists_node_of_foundAt hpath
      rw [Except.ok.inj hm] at hnull
      cases hnull
    · rw [Bound.bind_mem_live_acts_iff, ← mem_names_boundAt_iff]
      rfl
  constructor
  · intro hb
    obtain ⟨handler, hh⟩ := exists_handler_of_mem_tryActs rfl (Act.live_subset hb)
    exact ⟨handler, hh, (hhandler hh).mp hb⟩
  · rintro ⟨handler, hh, hb⟩
    exact (hhandler hh).mpr hb

theorem bind_not_mem_live_importActs (h : ¬ Act.Clean (v.importActs root)) :
    .bind label x ∉ live (v.importActs root) := by
  intro hb
  obtain ⟨-, m, hl, hx⟩ := bind_mem_importActs_iff.mp (Act.live_subset hb)
  exact h (clean_importActs_iff.mpr ⟨m, x, hl, hx⟩)

/-- Of a declaration that fails, what is bound by then is bound early. -/
theorem bind_mem_live_acts_iff (h : ¬ Act.Clean (v.acts root)) :
    .bind label x ∈ live (v.acts root) ↔ ∃ scope, v.BindsEarly scope x ∧ label = scope.label := by
  constructor
  · intro hb
    unfold acts at h hb
    split at hb <;> rename_i hk
    · obtain ⟨scope, hs, hl, declarators, hd, hx⟩ := bind_mem_live_variableActs_iff.mp hb
      exact ⟨scope, .declarator hk hs hd hx, hl⟩
    · simp only [hk] at h
      rcases Act.mem_live_append_iff.mp hb with hb | ⟨hclean, hb⟩
      · obtain ⟨hx, scope, hs, hl⟩ := bind_mem_declareOwnName_iff.mp (Act.live_subset hb)
        exact ⟨scope, .functionName hk hx hs, hl⟩
      · have hfunction : ¬ Act.Clean v.node.functionActs :=
          fun hf => h (Act.Clean.append_iff.mpr ⟨hclean, hf⟩)
        obtain ⟨hl, params, hp, hx⟩ := (Node.bind_mem_live_functionActs_iff hfunction).mp hb
        exact ⟨v.node, .parameter (by rw [hk]; rfl) (fun _ => hclean) hp hx, hl⟩
    · simp only [hk] at h
      obtain ⟨hl, params, hp, hx⟩ := (Node.bind_mem_live_functionActs_iff h).mp hb
      exact ⟨v.node, .parameter (by rw [hk]; rfl) (by simp [hk]) hp hx, hl⟩
    · simp only [hk] at h
      obtain ⟨hl, params, hp, hx⟩ := (Node.bind_mem_live_functionActs_iff h).mp hb
      exact ⟨v.node, .parameter (by rw [hk]; rfl) (by simp [hk]) hp hx, hl⟩
    · simp only [hk] at h
      -- A name that can be bound around the class can be bound in it, so nothing fails after that.
      have hname : ¬ Act.Clean (v.declareOwnName Node.isBlockScope) := by
        intro hclean
        obtain ⟨y, hy⟩ := exists_ownName_of_clean hclean
        exact h (Act.Clean.append_iff.mpr ⟨hclean, Node.clean_classActs_iff.mpr ⟨y, hy⟩⟩)
      rw [Act.live_append_of_not_clean hname] at hb
      exact absurd hb (bind_not_mem_live_declareOwnName hname)
    · simp only [hk] at h
      exact absurd hb (Node.bind_not_mem_live_classActs h)
    · obtain ⟨handler, hh, hl, hx⟩ := bind_mem_live_tryActs_iff.mp hb
      exact ⟨handler, .catchParameter hk hh hx, hl⟩
    · simp only [hk] at h
      exact absurd hb (bind_not_mem_live_importActs h)
    · simp only [hk] at h
      exact absurd hb (bind_not_mem_live_importActs h)
    · simp only [hk] at h
      exact absurd hb (bind_not_mem_live_importActs h)
    · cases hb
  · rintro ⟨scope, hearly, rfl⟩
    cases hearly with
    | declarator hk hs hd hx =>
      rw [acts, hk]
      exact bind_mem_live_variableActs_iff.mpr ⟨scope, hs, rfl, _, hd, hx⟩
    | functionName hk hx hs =>
      rw [acts, hk]
      have hb : .bind scope.label x ∈ v.declareOwnName Node.isScope :=
        bind_mem_declareOwnName_iff.mpr ⟨hx, scope, hs, rfl⟩
      have hclean : Act.Clean (v.declareOwnName Node.isScope) :=
        (clean_declareOwnName_iff ⟨scope, hs.mem_around, List.find?_some hs⟩).mpr
          ⟨x, (Node.ownName_eq_ok_iff.mpr hx).1⟩
      rw [Act.live_append_of_clean hclean]
      exact List.mem_append_left _ hb
    | parameter hk hname hp hx =>
      have hfunction : ¬ Act.Clean v.node.functionActs →
          .bind v.node.label x ∈ live v.node.functionActs :=
        fun hf => (Node.bind_mem_live_functionActs_iff hf).mpr ⟨rfl, _, hp, hx⟩
      unfold acts at h ⊢
      split <;> rename_i hkind
      · rw [hkind] at hk; cases hk
      · simp only [hkind] at h
        have hclean := hname hkind
        refine Act.mem_live_append_iff.mpr (.inr ⟨hclean, hfunction fun hf => ?_⟩)
        exact h (Act.Clean.append_iff.mpr ⟨hclean, hf⟩)
      · simp only [hkind] at h
        exact hfunction h
      · simp only [hkind] at h
        exact hfunction h
      all_goals simp_all [Kind.isFunction]
    | catchParameter hk hh hx =>
      rw [acts, hk]
      exact bind_mem_live_tryActs_iff.mpr ⟨scope, hh, rfl, hx⟩

end Visit

theorem Value.exists_text_of_isAnyText {v : Value} (h : v.isAnyText) : ∃ t, v = .text t := by
  cases v with
  | text t => exact ⟨t, rfl⟩
  | _ => cases h

namespace Visit

variable {v : Visit} {root : Node} {label : Nat}

/-- The acts of a visit create tables of its targets, also where they fail, if the name of a function or
class is a text. -/
theorem exists_targets_of_create
    (hname : ∀ m : Node, v.node.field "id" = m.toValue → ∀ w ∈ m.fields.lookup "name", w.isAnyText)
    (h : .create label ∈ v.acts root) : ∃ scope, v.Targets root scope ∧ label = scope.label := by
  have hown : ∀ {accepts : Node → Bool}, .create label ∈ v.declareOwnName accepts → v.HasOwnName := by
    intro accepts hc
    obtain ⟨name, hread, hc⟩ := (Act.mem_after_iff rfl).mp hc
    split at hc
    · cases hc
    · rename_i hnull
      unfold Node.ownName at hread
      simp only at hread
      split at hread
      · obtain rfl := Except.ok.inj hread
        exact absurd rfl hnull
      · obtain ⟨m, hid, rfl⟩ := Value.exists_of_member_eq_ok hread
        rw [hid, Value.member, Node.node?_toValue] at hread
        have hlookup := Node.require_eq_ok_iff.mp hread
        obtain ⟨t, ht⟩ := Value.exists_text_of_isAnyText (hname m hid _ hlookup)
        rw [ht] at hlookup
        exact ⟨.text t, m, hid, hlookup, by simp⟩
  cases mem_acts_iff.mp h with
  | ofVariables hk hc =>
    obtain ⟨scope, hs, hl⟩ := create_mem_variableActs_iff.mp hc
    exact ⟨scope, targets_of_variableScope hk hs, hl⟩
  | functionName hk hc =>
    obtain ⟨scope, hs, hl⟩ := exists_nearest_of_create hc
    exact ⟨scope, .functionName hk (hown hc) hs, hl⟩
  | className hk hc =>
    obtain ⟨scope, hs, hl⟩ := exists_nearest_of_create hc
    exact ⟨scope, .className hk (hown hc) hs, hl⟩
  | ofFunction hk hc => exact ⟨v.node, .own (.inl hk), Node.create_mem_functionActs_iff.mp hc⟩
  | ofClass hk hc => exact ⟨v.node, .own (.inr hk), Node.create_mem_classActs_iff.mp hc⟩
  | ofHandler hk hc =>
    obtain ⟨handler, hh, hl⟩ := create_mem_tryActs_iff.mp hc
    exact ⟨handler, .handler hk hh, hl⟩
  | ofImport hk hc =>
    obtain ⟨name, -, hc⟩ := (Act.mem_after_iff rfl).mp hc
    exact ⟨root, .importName hk, Node.create_mem_declare_iff.mp hc⟩

end Visit

/-! ### Where a build stops -/

/-- The build of the tree below `n` stops with a fault: the declarations that are met in `before` are complete,
and the next one fails; or none fails, and the walk cannot go on. -/
structure Node.StopsAt (n : Node) (fault : Fault) (before : List Visit) (failing : Option Visit) : Prop where
  met : before ++ failing.toList <+: n.entered
  complete : ∀ v ∈ before, Act.Clean (v.acts n)
  fails : ∀ v ∈ failing, (v.acts n).findSome? Act.fault? = some fault
  walk : failing = none → before = n.entered ∧ (visits n.toValue []).fault = some fault

theorem Node.exists_stopsAt {n : Node} {fault : Fault}
    (h : (declarations n.toValue).findSome? Act.fault? = some fault) :
    ∃ before failing, n.StopsAt fault before failing ∧
      live (declarations n.toValue) =
        before.flatMap (Visit.acts n) ++ failing.toList.flatMap fun v => live (v.acts n) := by
  rw [declarations_toValue] at h ⊢
  by_cases hclean : Act.Clean (n.entered.flatMap (Visit.acts n))
  · -- No declaration fails, so the fault is that of the walk.
    rw [List.findSome?_append, Act.clean_iff_findSome?_eq_none.mp hclean, Option.none_or] at h
    cases hwalk : (visits n.toValue []).fault with
    | none => simp [hwalk] at h
    | some other =>
      obtain rfl : other = fault := by simpa [hwalk, Act.fault?] using h
      refine ⟨n.entered, none, ⟨by simp, Act.clean_flatMap_iff.mp hclean, by simp, fun _ => ⟨rfl, hwalk⟩⟩, ?_⟩
      rw [Act.live_append_of_clean hclean]
      simp [live, Act.fault?]
  · obtain ⟨before, v, rest, hentered, hbefore, hv⟩ := Act.exists_first_not_clean hclean
    have hcomplete : Act.Clean (before.flatMap (Visit.acts n)) := Act.clean_flatMap_iff.mpr hbefore
    obtain ⟨other, hother⟩ : ∃ other, (v.acts n).findSome? Act.fault? = some other :=
      Option.ne_none_iff_exists'.mp (mt Act.clean_iff_findSome?_eq_none.mpr hv)
    have hfault : other = fault := by
      rw [hentered, List.flatMap_append, List.flatMap_cons, List.append_assoc, List.findSome?_append,
        Act.clean_iff_findSome?_eq_none.mp hcomplete, List.append_assoc, List.findSome?_append, hother] at h
      simpa using h
    subst hfault
    refine ⟨before, some v, ⟨⟨rest, by simp [hentered]⟩, hbefore, ?_, by simp⟩, ?_⟩
    · rintro u hu
      cases hu
      exact hother
    · rw [Act.live_append_of_not_clean hclean, hentered, List.flatMap_append, List.flatMap_cons,
        Act.live_append_of_clean hcomplete, Act.live_append_of_not_clean hv]
      simp

/-- `n.BoundBy before failing m x`: the name `x` is bound in the node `m` by a complete declaration, or early by
the one that fails. Names of one key are the same name. -/
def Node.BoundBy (n : Node) (before : List Visit) (failing : Option Visit) (m : Node) (x : Name) : Prop :=
  (∃ v ∈ before, ∃ y, v.Binds n m y ∧ y.key = x.key) ∨
    ∃ v ∈ failing, ∃ y, v.BindsEarly m y ∧ y.key = x.key

section

variable {n m : Node} {fault : Fault} {before : List Visit} {failing : Option Visit} {label : Nat}
  (hstop : n.StopsAt fault before failing)
include hstop

theorem Node.StopsAt.mem_entered {v : Visit} (hv : v ∈ before ++ failing.toList) : v ∈ n.entered :=
  hstop.met.subset hv

theorem Node.StopsAt.not_clean {v : Visit} (hv : v ∈ failing) : ¬ Act.Clean (v.acts n) := by
  intro hclean
  have hnone := Act.clean_iff_findSome?_eq_none.mp hclean
  rw [hstop.fails v hv] at hnone
  cases hnone

/-- The names that are bound up to where a build stops. -/
theorem Node.StopsAt.bind_mem_iff {x : Name} :
    .bind label x ∈ before.flatMap (Visit.acts n) ++ failing.toList.flatMap (fun v => live (v.acts n)) ↔
      (∃ v ∈ before, ∃ scope, v.Binds n scope x ∧ label = scope.label) ∨
        ∃ v ∈ failing, ∃ scope, v.BindsEarly scope x ∧ label = scope.label := by
  rw [List.mem_append, List.mem_flatMap, List.mem_flatMap]
  refine or_congr (exists_congr fun v => and_congr_right fun hv => ?_)
    (exists_congr fun v => ?_)
  · exact Visit.bind_mem_acts_iff (hstop.complete v hv)
  · rw [Option.mem_toList]
    exact and_congr_right fun hv => Visit.bind_mem_live_acts_iff (hstop.not_clean hv)

/-- The tables that are created up to where a build stops are those of targets. -/
theorem Node.StopsAt.exists_targets_of_create (hname : n.toValue.NamedByTexts)
    (h : .create label ∈ before.flatMap (Visit.acts n) ++ failing.toList.flatMap (fun v => live (v.acts n))) :
    ∃ v ∈ before ++ failing.toList, ∃ scope, v.Targets n scope ∧ label = scope.label := by
  have hvisit : ∀ v ∈ before ++ failing.toList, .create label ∈ v.acts n →
      ∃ v ∈ before ++ failing.toList, ∃ scope, v.Targets n scope ∧ label = scope.label := by
    intro v hv hc
    refine ⟨v, hv, Visit.exists_targets_of_create (fun m hm => hname m ?_) hc⟩
    have hin := (enters_of_mem_visits (hstop.mem_entered hv)).mem_nodes
    refine Value.nodes_subset hin (List.mem_cons_of_mem _ ?_)
    exact Node.mem_nodesOfFields_of_field hm (Value.mem_nodes_toValue m)
  rcases List.mem_append.mp h with h | h
  · obtain ⟨v, hv, hc⟩ := List.mem_flatMap.mp h
    exact hvisit v (List.mem_append_left _ hv) hc
  · obtain ⟨v, hv, hc⟩ := List.mem_flatMap.mp h
    exact hvisit v (List.mem_append_right _ hv) (Act.live_subset hc)

theorem Node.StopsAt.mem_namesFor_iff (hl : n.toValue.WellLabelled) (hm : m ∈ n.toValue.nodes) {x : Name} :
    (∃ y ∈ Act.namesFor m.label
        (before.flatMap (Visit.acts n) ++ failing.toList.flatMap fun v => live (v.acts n)), y.key = x.key) ↔
      n.BoundBy before failing m x := by
  -- Labels tell the nodes of the tree apart, and names are bound in nodes of the tree.
  have heq : ∀ {v : Visit} {scope : Node}, v ∈ before ++ failing.toList → v.Targets n scope →
      m.label = scope.label → scope = m :=
    fun hv ht hlabel => (hl.eq_of_label_eq hm (ht.mem_nodes (hstop.mem_entered hv)) hlabel).symm
  simp only [Act.mem_namesFor, hstop.bind_mem_iff]
  constructor
  · rintro ⟨y, ⟨v, hv, scope, hb, hlabel⟩ | ⟨v, hv, scope, hb, hlabel⟩, hkey⟩
    · obtain rfl := heq (List.mem_append_left _ hv) hb.targets hlabel
      exact .inl ⟨v, hv, y, hb, hkey⟩
    · obtain rfl := heq (List.mem_append_right _ (Option.mem_toList.mpr hv)) hb.targets hlabel
      exact .inr ⟨v, hv, y, hb, hkey⟩
  · rintro (⟨v, hv, y, hb, hkey⟩ | ⟨v, hv, y, hb, hkey⟩)
    · exact ⟨y, .inl ⟨v, hv, m, hb, rfl⟩, hkey⟩
    · exact ⟨y, .inr ⟨v, hv, m, hb, rfl⟩, hkey⟩

end

/-- An analysis leaves the tree with the tables of the build. The search for references takes no part in
it, whether it finds them or fails. -/
theorem Tree.tree_analyze {t : Tree} (hp : t.isProgram) (name : Text) :
    (t.analyze name).tree = { t with tables := (buildScopes t.tables t.root).1.tables } := by
  simp only [analyze, hp, Bool.not_true, Bool.false_eq_true, if_false]
  split
  · rfl
  · split <;> rfl

/-- **What a build leaves behind that fails.** Up to the fault there are complete declarations and at most
one that fails. With the tables in its fields, the tree is as before but for the tables of their targets: if
these pass a test, and the tables of all nodes that pass it are taken away, what is left is the same. So a
table has changed only on a target of one of these declarations; and it holds the names that the complete
ones bind there, and those that the failing one has bound early. The search for references changes
nothing. -/
theorem failed_build {t : Tree} {n : Node} (hroot : t.root = n.toValue) (hl : t.root.WellLabelled)
    (hname : t.root.NamedByTexts) :
    (∀ fault, (buildScopes t.tables t.root).2 = some fault →
      ∃ before failing, n.StopsAt fault before failing ∧
        (∀ p : Nat → Bool, (∀ m, (∃ v ∈ before ++ failing.toList, v.Targets n m) → p m.label) →
          (t.root.withTables (buildScopes t.tables t.root).1.tables).bareAt p =
            (t.root.withTables t.tables).bareAt p) ∧
        (∀ m ∈ t.root.nodes,
          (buildScopes t.tables t.root).1.tables.slot? m.label ≠ t.tables.slot? m.label →
            ∃ v ∈ before ++ failing.toList, v.Targets n m) ∧
        ∀ m ∈ t.root.nodes,
          ((buildScopes t.tables t.root).1.tables.slot? m.label ≠ t.tables.slot? m.label ∨
            ∃ v ∈ before, v.Targets n m) →
          ∃ set, (buildScopes t.tables t.root).1.tables.slot? m.label = some (.names set) ∧
            ∀ x, x ∈ set ↔ n.BoundBy before failing m x) ∧
    ∀ name, t.isProgram →
      (t.analyze name).tree = { t with tables := (buildScopes t.tables t.root).1.tables } := by
  refine ⟨fun fault hf => ?_, fun name hp => Tree.tree_analyze hp name⟩
  rw [hroot] at hf hl hname ⊢
  rw [buildScopes_fault] at hf
  obtain ⟨before, failing, hstop, hlive⟩ := Node.exists_stopsAt hf
  have hperformed := performed_buildScopes t.tables n.toValue
  rw [hlive] at hperformed
  -- A slot is touched only by creating a table.
  have hcreate : ∀ label,
      (buildScopes t.tables n.toValue).1.tables.slot? label ≠ t.tables.slot? label →
      .create label ∈ before.flatMap (Visit.acts n) ++ failing.toList.flatMap fun v => live (v.acts n) := by
    intro label hchanged
    exact Classical.byContradiction fun hc => hchanged (hperformed.other label List.not_mem_nil hc)
  refine ⟨before, failing, hstop, fun p => ?_, fun m hm hchanged => ?_, fun m hm hgiven => ?_⟩
  · refine Value.bareAt_withTables_of_changed (fun label hchanged => ?_) n.toValue
    obtain ⟨v, hv, scope, ht, hlabel⟩ := hstop.exists_targets_of_create hname (hcreate label hchanged)
    exact ⟨scope, ⟨v, hv, ht⟩, hlabel⟩
  · obtain ⟨v, hv, scope, ht, hlabel⟩ := hstop.exists_targets_of_create hname (hcreate m.label hchanged)
    obtain rfl := hl.eq_of_label_eq hm (ht.mem_nodes (hstop.mem_entered hv)) hlabel
    exact ⟨v, hv, ht⟩
  · have hc : .create m.label ∈
        before.flatMap (Visit.acts n) ++ failing.toList.flatMap fun v => live (v.acts n) := by
      rcases hgiven with hchanged | ⟨v, hv, ht⟩
      · exact hcreate m.label hchanged
      · have hv' := (Visit.create_mem_acts_iff (hstop.complete v hv)).mpr ⟨m, ht, rfl⟩
        exact List.mem_append_left _ (List.mem_flatMap.mpr ⟨v, hv, hv'⟩)
    refine ⟨_, hperformed.new m.label List.not_mem_nil hc, fun x => ?_⟩
    rw [NameSet.mem_ofList]
    exact hstop.mem_namesFor_iff hl hm

/-- A program that declares a variable, a function with a literal in place of its second parameter, and one
more variable. -/
def halfDeclaredProgram : Tree :=
  .ofStatements
    [Kind.variableDeclaration.object
      [("kind", .text "var"),
       ("declarations", .array [Kind.variableDeclarator.object [("id", .identifier "a")]])],
     Kind.functionDeclaration.object
      [("id", .identifier "f"), ("params", .array [.identifier "b", Kind.literal.object [("value", .int 5)]]),
       ("body", Kind.blockStatement.object [("body", .array [])])],
     Kind.variableDeclaration.object
      [("kind", .text "var"),
       ("declarations", .array [Kind.variableDeclarator.object [("id", .identifier "c")]])]]

/-- By the failure, the program knows `a` and the function, and the function its first parameter. -/
theorem failed_build_halfDeclaredProgram :
    halfDeclaredProgram.root.WellLabelled ∧ halfDeclaredProgram.root.NamedByTexts ∧
      ∃ n : Node, halfDeclaredProgram.root = n.toValue ∧
        ∃ fault, (buildScopes halfDeclaredProgram.tables halfDeclaredProgram.root).2 = some fault ∧
          ∃ before failing, n.StopsAt fault before failing ∧
            n.BoundBy before failing n (.text "f") ∧ ¬ n.BoundBy before failing n (.text "c") := by
  have hl : halfDeclaredProgram.root.WellLabelled := Tree.wellLabelled_ofValue _
  have hname : halfDeclaredProgram.root.NamedByTexts := by
    unfold Value.NamedByTexts
    decide +kernel
  obtain ⟨n, hnode, hlabel⟩ : ∃ n, halfDeclaredProgram.root.node? = some n ∧ n.label = 0 :=
    Option.map_eq_some_iff.mp (by decide +kernel)
  have hn := Value.node?_eq_some_iff.mp hnode
  have htable : (buildScopes halfDeclaredProgram.tables halfDeclaredProgram.root).1.tables.table? 0 =
      some (.ofList [.text "a", .text "f"]) := by decide +kernel
  obtain ⟨fault, hf⟩ : ∃ fault,
      (buildScopes halfDeclaredProgram.tables halfDeclaredProgram.root).2 = some fault :=
    Option.isSome_iff_exists.mp (by decide +kernel)
  obtain ⟨before, failing, hstop, -, -, hnames⟩ := (failed_build hn hl hname).1 fault hf
  have hmem : n ∈ halfDeclaredProgram.root.nodes := by
    rw [hn]
    exact Value.mem_nodes_toValue n
  have hchanged : (buildScopes halfDeclaredProgram.tables halfDeclaredProgram.root).1.tables.slot? n.label ≠
      halfDeclaredProgram.tables.slot? n.label := by
    have hbefore : (halfDeclaredProgram.tables.slot? 0).isNone := by decide +kernel
    rw [hlabel, Option.isNone_iff_eq_none.mp hbefore]
    intro h
    simp [Tables.table?, h] at htable
  obtain ⟨set, hset, hx⟩ := hnames n hmem (.inl hchanged)
  obtain rfl : set = .ofList [.text "a", .text "f"] := by
    simpa [Tables.table?, ← hlabel, hset] using htable
  exact ⟨hl, hname, n, hn, fault, hf, before, failing, hstop, (hx _).mp (by decide +kernel),
    mt (hx _).mpr (by decide +kernel)⟩

end FreeNames
