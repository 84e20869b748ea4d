import FreeNames.Proofs.Acceptance
import FreeNames.Proofs.BindingTables

/-!
# Patterns spot by spot

A pattern has spots: the pattern itself, the spots that its properties, elements or target are, and so
on down. A spot is named by the path that leads to it, the index of the next spot at each step, and
paths are ordered as lists: what stands further left comes first. At each spot there is a name, a list of
further spots, or a fault (`Found`).

Reading a pattern goes from left to right up to the first fault. So the names that it binds are those
with no fault to their left (`mem_names_boundAt_iff`), and its fault is the one with no fault to its left
(`boundAt_fault_eq_some_iff`). A reading that ends early has bound the names that stand to the left of
where it ended.
-/

namespace FreeNames

/-! ### Spots -/

/-- A spot in a pattern: what stands there, or why nothing does. -/
abbrev Spot := Except Fault Value

/-- What is found at a spot: the name of an identifier, or the spots that a pattern hands its binding on
to, from left to right. -/
inductive Found where
  | name (x : Name)
  | spots (l : List Spot)

/-- Where a property of an object pattern leads: to its value if it has one, or else to the target of a
rest property. -/
def Value.propertySpot (p : Value) : Spot :=
  match p.node? with
  | none => .error .notAnObject
  | some q => if (q.field "value").isTrue then .ok (q.field "value") else q.require "argument"

/-- What a node is that is read as a pattern of a kind. -/
def Node.foundAs (n : Node) : Option Kind → Except Fault Found
  | some .identifier => (n.require "name" >>= Value.asName).map .name
  | some .objectPattern => (n.membersOf "properties").map fun l => .spots (l.map Value.propertySpot)
  | some .arrayPattern =>
    (n.membersOf "elements").map fun l => .spots ((l.filter fun e => !e.isNull).map .ok)
  | some .restElement => .ok (.spots [n.require "argument"])
  | some .assignmentPattern => .ok (.spots [n.require "left"])
  | _ => .error (n.breach (.unrecognizedPattern n.type))

/-- What a node is as a pattern. -/
def Node.found (n : Node) : Except Fault Found := n.foundAs n.kind?

namespace Spot

/-- What is found at a spot. -/
def found (p : Spot) : Except Fault Found := p >>= Value.asNode >>= Node.found

/-- The spot to which a path leads. -/
def descend (p : Spot) : List Nat → Option Spot
  | [] => some p
  | i :: path =>
    match p.found with
    | .ok (.spots l) => l[i]?.bind fun q => descend q path
    | _ => none

/-- What is found where a path leads. -/
def foundAt (p : Spot) (path : List Nat) : Option (Except Fault Found) := (p.descend path).map found

/-- There is no fault to the left of a path. -/
def Clear (p : Spot) (path : List Nat) : Prop :=
  ∀ before, before < path → ∀ fault, p.foundAt before ≠ some (.error fault)

/-- What a reading from left to right comes to: what is found somewhere with no fault to the left of it. -/
def Meets (p : Spot) (r : Except Fault Found) : Prop := ∃ path, p.foundAt path = some r ∧ p.Clear path

/-- What a reading of several spots one after another comes to. -/
def MeetsIn (l : List Spot) (r : Except Fault Found) : Prop :=
  ∃ (i : Nat) (q : Spot), l[i]? = some q ∧ q.Meets r ∧
    ∀ j < i, ∀ q', l[j]? = some q' → ∀ before fault, q'.foundAt before ≠ some (.error fault)

/-- Two spots are alike if the same names are found at the same paths, and faults at the same paths. -/
def Alike (p q : Spot) : Prop :=
  ∀ path, (∀ x, p.foundAt path = some (.ok (.name x)) ↔ q.foundAt path = some (.ok (.name x))) ∧
    ((∃ fault, p.foundAt path = some (.error fault)) ↔ ∃ fault, q.foundAt path = some (.error fault))

/-! ### Paths -/

variable {p q : Spot} {l : List Spot} {r : Except Fault Found} {i : Nat} {path : List Nat}

@[simp] theorem foundAt_nil (p : Spot) : p.foundAt [] = some p.found := rfl

theorem descend_cons (h : p.found = .ok (.spots l)) :
    p.descend (i :: path) = l[i]?.bind fun q => q.descend path := by
  rw [descend, h]

theorem foundAt_cons_eq_some_iff (h : p.found = .ok (.spots l)) :
    p.foundAt (i :: path) = some r ↔ ∃ q, l[i]? = some q ∧ q.foundAt path = some r := by
  unfold foundAt
  rw [descend_cons h]
  cases l[i]? with
  | none => simp
  | some q => simp

/-- Only a list of spots is gone into. -/
theorem exists_spots_of_foundAt_cons (h : p.foundAt (i :: path) = some r) :
    ∃ l q, p.found = .ok (.spots l) ∧ l[i]? = some q ∧ q.foundAt path = some r := by
  obtain ⟨spot, hspot, -⟩ := Option.map_eq_some_iff.mp h
  rw [descend] at hspot
  split at hspot
  · rename_i l hl
    obtain ⟨q, hq⟩ := (foundAt_cons_eq_some_iff hl).mp h
    exact ⟨l, q, hl, hq⟩
  · cases hspot

theorem clear_nil (p : Spot) : p.Clear [] := fun before h => absurd h (List.not_lt_nil before)

/-- Left of a path is what stands in the spots before its first one, and what stands left of it in that
spot. -/
theorem clear_cons_iff (h : p.found = .ok (.spots l)) :
    p.Clear (i :: path) ↔
      (∀ j < i, ∀ q, l[j]? = some q → ∀ before fault, q.foundAt before ≠ some (.error fault)) ∧
        ∀ q, l[i]? = some q → q.Clear path := by
  constructor
  · intro hc
    refine ⟨fun j hj q hq before fault hb => ?_, fun q hq before hlt fault hb => ?_⟩
    · exact hc (j :: before) (List.cons_lt_cons_iff.mpr (.inl hj)) fault
        ((foundAt_cons_eq_some_iff h).mpr ⟨q, hq, hb⟩)
    · exact hc (i :: before) (List.cons_lt_cons_iff.mpr (.inr ⟨rfl, hlt⟩)) fault
        ((foundAt_cons_eq_some_iff h).mpr ⟨q, hq, hb⟩)
  · rintro ⟨hbefore, hin⟩ before hlt fault hb
    cases before with
    | nil => simp [h] at hb
    | cons j before =>
      obtain ⟨q, hq, hb⟩ := (foundAt_cons_eq_some_iff h).mp hb
      rcases List.cons_lt_cons_iff.mp hlt with hj | ⟨rfl, hrest⟩
      · exact hbefore j hj q hq before fault hb
      · exact hin q hq before hrest fault hb

/-! ### What is met, spot by spot -/

theorem meets_iff_of_not_spots (h : ∀ l, p.found ≠ .ok (.spots l)) : p.Meets r ↔ p.found = r := by
  constructor
  · rintro ⟨path, hr, -⟩
    cases path with
    | nil => simpa using hr
    | cons i path =>
      obtain ⟨l, -, hl, -⟩ := exists_spots_of_foundAt_cons hr
      exact absurd hl (h l)
  · rintro rfl
    exact ⟨[], foundAt_nil p, clear_nil p⟩

/-- A reading of a pattern comes to what a reading of its spots comes to. -/
theorem meets_iff_of_spots (h : p.found = .ok (.spots l)) (hr : r ≠ .ok (.spots l)) :
    p.Meets r ↔ MeetsIn l r := by
  constructor
  · rintro ⟨path, hfound, hclear⟩
    cases path with
    | nil => exact absurd (by simpa [h] using hfound.symm) hr
    | cons i path =>
      obtain ⟨q, hq, hfound⟩ := (foundAt_cons_eq_some_iff h).mp hfound
      obtain ⟨hbefore, hin⟩ := (clear_cons_iff h).mp hclear
      exact ⟨i, q, hq, ⟨path, hfound, hin q hq⟩, hbefore⟩
  · rintro ⟨i, q, hq, ⟨path, hfound, hclear⟩, hbefore⟩
    refine ⟨i :: path, (foundAt_cons_eq_some_iff h).mpr ⟨q, hq, hfound⟩, (clear_cons_iff h).mpr ⟨hbefore, ?_⟩⟩
    rintro q' hq'
    rw [hq] at hq'
    cases hq'
    exact hclear

/-- What is met left of the first fault is what stands left of it. -/
theorem meets_name_iff_of_first {fault : Fault} {first : List Nat}
    (hfault : p.foundAt first = some (.error fault)) (hclear : p.Clear first) {x : Name} :
    p.Meets (.ok (.name x)) ↔ ∃ path, path < first ∧ p.foundAt path = some (.ok (.name x)) := by
  constructor
  · rintro ⟨path, hfound, hpath⟩
    refine ⟨path, ?_, hfound⟩
    by_cases hlt : path < first
    · exact hlt
    by_cases hgt : first < path
    · exact absurd hfault (hpath first hgt fault)
    obtain rfl : path = first := Std.Trichotomous.trichotomous _ _ hlt hgt
    rw [hfault] at hfound
    cases hfound
  · rintro ⟨path, hlt, hfound⟩
    exact ⟨path, hfound, fun before hbefore => hclear before (List.lt_trans hbefore hlt)⟩

theorem Alike.clear_iff (h : p.Alike q) : p.Clear path ↔ q.Clear path := by
  have hside : ∀ {p q : Spot}, (∀ path, (∃ fault, p.foundAt path = some (.error fault)) ↔
      ∃ fault, q.foundAt path = some (.error fault)) → p.Clear path → q.Clear path := by
    intro p q h hp before hlt fault hfault
    obtain ⟨other, hother⟩ := (h before).mpr ⟨fault, hfault⟩
    exact hp before hlt other hother
  exact ⟨hside fun path => (h path).2, hside fun path => (h path).2.symm⟩

theorem Alike.meets_name_iff (h : p.Alike q) {x : Name} :
    p.Meets (.ok (.name x)) ↔ q.Meets (.ok (.name x)) :=
  exists_congr fun path => and_congr ((h path).1 x) h.clear_iff

/-! ### Spots are smaller than what they are spots of -/

/-- The size of what stands at a spot. -/
def size : Spot → Nat
  | .ok v => v.size
  | .error _ => 0

theorem found_toValue (n : Node) : found (.ok n.toValue) = n.found := by
  simp [found, bind, Except.bind, Value.asNode]

theorem found_of_node?_eq_none {v : Value} (h : v.node? = none) : found (.ok v) = .error .notAnObject := by
  simp [found, bind, Except.bind, Value.asNode, h]

end Spot

theorem Node.size_require_lt (n : Node) (name : String) : Spot.size (n.require name) < n.toValue.size := by
  cases h : n.require name with
  | error fault => simp only [Spot.size, toValue, Value.size]; omega
  | ok v => exact size_lt_of_require h

theorem Value.size_propertySpot_le (p : Value) : p.propertySpot.size ≤ p.size := by
  unfold propertySpot
  split
  · exact Nat.zero_le _
  · rename_i q hq
    obtain rfl := node?_eq_some_iff.mp hq
    split
    · rename_i ht
      exact Nat.le_of_lt (Node.size_lt_of_isTrue ht)
    · exact Nat.le_of_lt (q.size_require_lt "argument")

/-- The patterns that have spots, and what these are. -/
theorem Node.found_eq_spots_cases {n : Node} {l : List Spot} (h : n.found = .ok (.spots l)) :
    (n.kind? = some .objectPattern ∧
      ∃ properties, n.membersOf "properties" = .ok properties ∧ l = properties.map Value.propertySpot) ∨
    (n.kind? = some .arrayPattern ∧
      ∃ elements, n.membersOf "elements" = .ok elements ∧
        l = (elements.filter fun e => !e.isNull).map .ok) ∨
    (n.kind? = some .restElement ∧ l = [n.require "argument"]) ∨
    (n.kind? = some .assignmentPattern ∧ l = [n.require "left"]) := by
  unfold found foundAs at h
  split at h <;> rename_i hk
  · cases hn : n.require "name" >>= Value.asName <;> simp [hn, Except.map] at h
  · cases hm : n.membersOf "properties" with
    | error fault => simp [hm, Except.map] at h
    | ok properties =>
      simp only [hm, Except.map, Except.ok.injEq, Found.spots.injEq] at h
      exact .inl ⟨hk, properties, rfl, h.symm⟩
  · cases hm : n.membersOf "elements" with
    | error fault => simp [hm, Except.map] at h
    | ok elements =>
      simp only [hm, Except.map, Except.ok.injEq, Found.spots.injEq] at h
      exact .inr (.inl ⟨hk, elements, rfl, h.symm⟩)
  · cases h
    exact .inr (.inr (.inl ⟨hk, rfl⟩))
  · cases h
    exact .inr (.inr (.inr ⟨hk, rfl⟩))
  · cases h

theorem Node.size_lt_of_found {n : Node} {l : List Spot} (h : n.found = .ok (.spots l)) {q : Spot}
    (hq : q ∈ l) : q.size < n.toValue.size := by
  rcases found_eq_spots_cases h with
    ⟨-, properties, hm, rfl⟩ | ⟨-, elements, hm, rfl⟩ | ⟨-, rfl⟩ | ⟨-, rfl⟩
  · obtain ⟨p, hp, rfl⟩ := List.mem_map.mp hq
    exact Nat.lt_of_le_of_lt p.size_propertySpot_le (size_lt_of_mem_membersOf hm hp)
  · obtain ⟨e, he, rfl⟩ := List.mem_map.mp hq
    exact size_lt_of_mem_membersOf hm (List.mem_of_mem_filter he)
  · obtain rfl := List.mem_singleton.mp hq
    exact n.size_require_lt "argument"
  · obtain rfl := List.mem_singleton.mp hq
    exact n.size_require_lt "left"

/-- Induction over spots, by what is found there. -/
theorem Spot.found_induction {P : Spot → Prop} (fault : ∀ p fault, p.found = .error fault → P p)
    (name : ∀ p x, p.found = .ok (.name x) → P p)
    (spots : ∀ p l, p.found = .ok (.spots l) → (∀ q ∈ l, P q) → P p) (p : Spot) : P p := by
  induction hs : p.size using Nat.strongRecOn generalizing p with
  | ind size ih =>
    cases hp : p.found with
    | error f => exact fault p f hp
    | ok r =>
      cases r with
      | name x => exact name p x hp
      | spots l =>
        refine spots p l hp fun q hq => ih q.size ?_ q rfl
        cases p with
        | error f => cases hp
        | ok v =>
          cases hn : v.node? with
          | none => rw [found_of_node?_eq_none hn] at hp; cases hp
          | some n =>
            obtain rfl := Value.node?_eq_some_iff.mp hn
            rw [found_toValue] at hp
            exact hs ▸ Node.size_lt_of_found hp hq

/-! ### Readings one after another, by index -/

/-- What holds of a list through its first item, or through the others if the first one lets it pass, holds
through an item that all items before it let pass. -/
theorem iff_exists_getElem? {α : Type} {R : List α → Prop} {P Q : α → Prop} (hnil : ¬ R [])
    (hcons : ∀ a l, R (a :: l) ↔ P a ∨ Q a ∧ R l) (l : List α) :
    R l ↔ ∃ (i : Nat) (a : α), l[i]? = some a ∧ P a ∧ ∀ j < i, ∀ b, l[j]? = some b → Q b := by
  induction l with
  | nil => simpa using hnil
  | cons a l ih =>
    rw [hcons, ih]
    constructor
    · rintro (ha | ⟨ha, i, b, hb, hP, hbefore⟩)
      · exact ⟨0, a, rfl, ha, fun j hj => absurd hj (Nat.not_lt_zero j)⟩
      · refine ⟨i + 1, b, by simpa using hb, hP, fun j hj c hc => ?_⟩
        cases j with
        | zero => cases hc; exact ha
        | succ j => exact hbefore j (by omega) c (by simpa using hc)
    · rintro ⟨i, b, hb, hP, hbefore⟩
      cases i with
      | zero => cases hb; exact .inl hP
      | succ i =>
        refine .inr ⟨hbefore 0 (by omega) a rfl, i, b, by simpa using hb, hP, fun j hj c hc => ?_⟩
        exact hbefore (j + 1) (by omega) c (by simpa using hc)

namespace Bound

variable {α : Type} {f : α → Bound} {l : List α}

theorem concat_map_fault_eq_some_iff {fault : Fault} :
    (concat (l.map f)).fault = some fault ↔ ∃ (i : Nat) (a : α), l[i]? = some a ∧ (f a).fault = some fault ∧
      ∀ j < i, ∀ b, l[j]? = some b → (f b).fault = none := by
  refine iff_exists_getElem? (R := fun l => (concat (l.map f)).fault = some fault) (by simp [empty])
    (fun a l => ?_) l
  rw [List.map_cons, concat_cons]
  cases ha : (f a).fault with
  | none => simp [append_of_fault_eq_none _ ha]
  | some other => simp [append_of_fault_eq_some _ ha, ha]

theorem mem_names_concat_map_iff {x : Name} :
    x ∈ (concat (l.map f)).names ↔ ∃ (i : Nat) (a : α), l[i]? = some a ∧ x ∈ (f a).names ∧
      ∀ j < i, ∀ b, l[j]? = some b → (f b).fault = none := by
  refine iff_exists_getElem? (R := fun l => x ∈ (concat (l.map f)).names) (by simp [empty])
    (fun a l => ?_) l
  rw [List.map_cons, concat_cons]
  cases ha : (f a).fault with
  | none => simp [append_of_fault_eq_none _ ha]
  | some other => simp [append_of_fault_eq_some _ ha]

theorem concat_singleton (b : Bound) :
    b.names = (concat [b]).names ∧ b.fault = (concat [b]).fault := by
  rw [concat_cons, concat_nil]
  cases hb : b.fault with
  | none => simp [append_of_fault_eq_none _ hb, empty]
  | some fault => simp [append_of_fault_eq_some _ hb, hb]

/-- Readings of nothing can be left out. -/
theorem concat_map_boundElement (elements : List Value) :
    concat (elements.map boundElement) = concat ((elements.filter fun e => !e.isNull).map bound) := by
  induction elements with
  | nil => rfl
  | cons e elements ih =>
    rw [List.map_cons, concat_cons, ih, List.filter_cons, boundElement]
    cases he : e.isNull with
    | true => exact append_of_fault_eq_none _ rfl
    | false => rfl

end Bound

/-! ### What is bound at a spot -/

/-- What a spot binds. -/
def boundAt : Spot → Bound
  | .error fault => .failed fault
  | .ok v => bound v

theorem boundField_eq_boundAt (n : Node) (name : String) : boundField n name = boundAt (n.require name) := by
  unfold boundField
  cases n.require name <;> rfl

theorem boundProperty_eq_boundAt (p : Value) : boundProperty p = boundAt p.propertySpot := by
  unfold boundProperty Value.propertySpot
  cases p.node? with
  | none => rfl
  | some q =>
    simp only
    split
    · rfl
    · exact boundField_eq_boundAt q "argument"

/-- What is bound, as what is found says. -/
def Found.Binds : Except Fault Found → Bound → Prop
  | .error fault, b => b.names = [] ∧ b.fault = some fault
  | .ok (.name x), b => b.names = [x] ∧ b.fault = none
  | .ok (.spots l), b =>
    b.names = (Bound.concat (l.map boundAt)).names ∧ b.fault = (Bound.concat (l.map boundAt)).fault

theorem Node.binds_found (n : Node) : Found.Binds n.found (bound n.toValue) := by
  rw [bound_toValue, found]
  generalize n.kind? = kind
  fun_cases boundAs n kind
  · rw [foundAs, Bound.ofName]
    cases n.require "name" >>= Value.asName <;> exact ⟨rfl, rfl⟩
  · rename_i fault hm
    rw [foundAs, hm]
    exact ⟨rfl, rfl⟩
  · rename_i properties hm
    rw [foundAs, hm]
    simp only [Except.map, Found.Binds, List.map_map]
    have hproperties : properties.map boundProperty = properties.map (boundAt ∘ Value.propertySpot) :=
      List.map_congr_left fun p _ => boundProperty_eq_boundAt p
    rw [hproperties]
    exact ⟨rfl, rfl⟩
  · rename_i fault hm
    rw [foundAs, hm]
    exact ⟨rfl, rfl⟩
  · rename_i elements hm
    rw [foundAs, hm]
    simp only [Except.map, Found.Binds, List.map_map]
    rw [Bound.concat_map_boundElement]
    exact ⟨rfl, rfl⟩
  · rw [foundAs, boundField_eq_boundAt]
    exact Bound.concat_singleton _
  · rw [foundAs, boundField_eq_boundAt]
    exact Bound.concat_singleton _
  · rw [foundAs]
    · exact ⟨rfl, rfl⟩
    all_goals assumption

theorem binds_found (p : Spot) : Found.Binds p.found (boundAt p) := by
  cases p with
  | error fault => exact ⟨rfl, rfl⟩
  | ok v =>
    cases hn : v.node? with
    | none =>
      rw [Spot.found_of_node?_eq_none hn, boundAt, bound_of_node?_eq_none hn]
      exact ⟨rfl, rfl⟩
    | some n =>
      obtain rfl := Value.node?_eq_some_iff.mp hn
      rw [Spot.found_toValue]
      exact n.binds_found

/-- A spot binds without a fault if there is none to find. -/
theorem boundAt_fault_eq_none_iff (p : Spot) :
    (boundAt p).fault = none ↔ ∀ path fault, p.foundAt path ≠ some (.error fault) := by
  have hb := binds_found p
  induction p using Spot.found_induction with
  | fault p fault hp =>
    rw [hp] at hb
    exact iff_of_false (by simp [hb.2]) fun h => h [] fault (by simp [hp])
  | name p x hp =>
    rw [hp] at hb
    refine iff_of_true hb.2 fun path fault hf => ?_
    cases path with
    | nil => simp [hp] at hf
    | cons i path =>
      obtain ⟨l, -, hl, -⟩ := Spot.exists_spots_of_foundAt_cons hf
      rw [hp] at hl
      cases hl
  | spots p l hp ih =>
    rw [hp] at hb
    rw [hb.2, Bound.concat_fault_eq_none_iff, List.forall_mem_map]
    constructor
    · intro hl path fault hf
      cases path with
      | nil => simp [hp] at hf
      | cons i path =>
        obtain ⟨q, hq, hf⟩ := (Spot.foundAt_cons_eq_some_iff hp).mp hf
        have hmem := List.mem_of_getElem? hq
        exact (ih q hmem (binds_found q)).mp (hl q hmem) path fault hf
    · intro h q hmem
      obtain ⟨i, hq⟩ := List.getElem?_of_mem hmem
      exact (ih q hmem (binds_found q)).mpr fun path fault hf =>
        h (i :: path) fault ((Spot.foundAt_cons_eq_some_iff hp).mpr ⟨q, hq, hf⟩)

/-- Spots that are read one after another: what each of them comes to counts if no spot before it has a
fault. -/
theorem exists_boundAt_iff_meetsIn {l : List Spot} {r : Except Fault Found} {P : Bound → Prop}
    (h : ∀ q ∈ l, P (boundAt q) ↔ q.Meets r) :
    (∃ (i : Nat) (q : Spot), l[i]? = some q ∧ P (boundAt q) ∧
      ∀ j < i, ∀ q', l[j]? = some q' → (boundAt q').fault = none) ↔ Spot.MeetsIn l r := by
  refine exists_congr fun i => exists_congr fun q => and_congr_right fun hq => ?_
  refine and_congr (h q (List.mem_of_getElem? hq)) ?_
  simp only [boundAt_fault_eq_none_iff]

/-- The fault of a reading is the one that it comes to. -/
theorem boundAt_fault_eq_some_iff {p : Spot} {fault : Fault} :
    (boundAt p).fault = some fault ↔ p.Meets (.error fault) := by
  have hb := binds_found p
  induction p using Spot.found_induction with
  | fault p other hp =>
    rw [hp] at hb
    rw [hb.2, Spot.meets_iff_of_not_spots (by simp [hp]), hp]
    simp
  | name p x hp =>
    rw [hp] at hb
    rw [hb.2, Spot.meets_iff_of_not_spots (by simp [hp]), hp]
    simp
  | spots p l hp ih =>
    rw [hp] at hb
    rw [hb.2, Bound.concat_map_fault_eq_some_iff, Spot.meets_iff_of_spots hp (by simp)]
    exact exists_boundAt_iff_meetsIn (P := fun b => b.fault = some fault) fun q hq => ih q hq (binds_found q)

/-- The names of a reading are those that it comes to. -/
theorem mem_names_boundAt_iff {p : Spot} {x : Name} :
    x ∈ (boundAt p).names ↔ p.Meets (.ok (.name x)) := by
  have hb := binds_found p
  induction p using Spot.found_induction with
  | fault p fault hp =>
    rw [hp] at hb
    rw [hb.1, Spot.meets_iff_of_not_spots (by simp [hp]), hp]
    simp
  | name p y hp =>
    rw [hp] at hb
    rw [hb.1, Spot.meets_iff_of_not_spots (by simp [hp]), hp]
    simp [eq_comm]
  | spots p l hp ih =>
    rw [hp] at hb
    rw [hb.1, Bound.mem_names_concat_map_iff, Spot.meets_iff_of_spots hp (by simp)]
    exact exists_boundAt_iff_meetsIn (P := fun b => x ∈ b.names) fun q hq => ih q hq (binds_found q)

theorem Spot.Alike.boundAt_fault_eq_none_iff {p q : Spot} (h : p.Alike q) :
    (boundAt p).fault = none ↔ (boundAt q).fault = none := by
  rw [FreeNames.boundAt_fault_eq_none_iff, FreeNames.boundAt_fault_eq_none_iff]
  refine forall_congr' fun path => ?_
  simpa only [not_exists] using not_congr (h path).2

/-! ### Leaves stand at spots -/

theorem Node.found_eq_name_iff {n : Node} {x : Name} :
    n.found = .ok (.name x) ↔ n.kind? = some .identifier ∧ n.Named x := by
  constructor
  · intro h
    unfold found foundAs at h
    split at h
    · rename_i hk
      refine ⟨hk, require_eq_ok_iff.mp (Bound.mem_names_ofName_iff.mp ?_)⟩
      cases hn : n.require "name" >>= Value.asName with
      | error fault => simp [hn, Except.map] at h
      | ok y =>
        simp only [hn, Except.map, Except.ok.injEq, Found.name.injEq] at h
        simp [Bound.ofName, hn, h]
    · cases hm : n.membersOf "properties" <;> simp [hm, Except.map] at h
    · cases hm : n.membersOf "elements" <;> simp [hm, Except.map] at h
    all_goals cases h
  · rintro ⟨hk, hx⟩
    rw [found, hk, foundAs, require_eq_ok_iff.mpr hx]
    simp [bind, Except.bind, Value.asName, Except.map]

/-- A property leads to its value, or else to its target. -/
theorem Value.propertySpot_eq_ok_iff {p w : Value} :
    p.propertySpot = .ok w ↔ ∃ q : Node, p = q.toValue ∧
      ((q.field "value").isTrue ∧ w = q.field "value" ∨
        (q.field "value").isTrue = false ∧ q.require "argument" = .ok w) := by
  constructor
  · intro h
    unfold propertySpot at h
    split at h
    · cases h
    · rename_i q hq
      refine ⟨q, node?_eq_some_iff.mp hq, ?_⟩
      split at h
      · rename_i ht
        exact .inl ⟨ht, (Except.ok.inj h).symm⟩
      · rename_i ht
        exact .inr ⟨by simpa using ht, h⟩
  · rintro ⟨q, rfl, ⟨ht, rfl⟩ | ⟨ht, h⟩⟩ <;> simp [propertySpot, *]

theorem Node.require_eq_ok_of_field {n m : Node} {name : String} (h : n.field name = m.toValue) :
    n.require name = .ok m.toValue := by
  unfold field at h
  unfold require
  cases hl : n.fields.lookup name with
  | none => rw [hl] at h; cases h
  | some v => rw [hl, Option.getD_some] at h; rw [h]

/-- A part that is an object stands at one of the spots. -/
theorem Part.exists_spot {n m : Node} (h : Part n m.toValue) :
    ∃ l, n.found = .ok (.spots l) ∧ .ok m.toValue ∈ l := by
  generalize hv : m.toValue = v at h
  have hproperty : ∀ {q : Node} {properties : List Value}, n.kind? = some .objectPattern →
      n.field "properties" = .array properties → q.toValue ∈ properties →
      q.toValue.propertySpot = .ok v → ∃ l, n.found = .ok (.spots l) ∧ .ok v ∈ l := by
    intro q properties hk hp hq hspot
    refine ⟨properties.map Value.propertySpot, ?_, List.mem_map.mpr ⟨_, hq, hspot⟩⟩
    rw [Node.found, hk, Node.foundAs, Node.membersOf_of_field_eq_array hp, Except.map]
  cases h with
  | property hk hp hq ht =>
    exact hproperty hk hp hq (Value.propertySpot_eq_ok_iff.mpr ⟨_, rfl, .inl ⟨ht, rfl⟩⟩)
  | restProperty hk hp hq ht =>
    refine hproperty hk hp hq (Value.propertySpot_eq_ok_iff.mpr ⟨_, rfl, .inr ⟨ht, ?_⟩⟩)
    rw [← hv]
    exact Node.require_eq_ok_of_field hv.symm
  | @element _ elements hk he hmem =>
    refine ⟨(elements.filter fun e => !e.isNull).map .ok, ?_, ?_⟩
    · rw [Node.found, hk, Node.foundAs, Node.membersOf_of_field_eq_array he, Except.map]
    · subst hv
      exact List.mem_map_of_mem (List.mem_filter.mpr ⟨hmem, rfl⟩)
  | target hk =>
    refine ⟨_, by rw [Node.found, hk, Node.foundAs], List.mem_singleton.mpr ?_⟩
    rw [← hv, Node.require_eq_ok_of_field hv.symm]
  | defaulted hk =>
    refine ⟨_, by rw [Node.found, hk, Node.foundAs], List.mem_singleton.mpr ?_⟩
    rw [← hv, Node.require_eq_ok_of_field hv.symm]

/-- An object at one of the spots is a part. -/
theorem Node.part_of_found {n m : Node} {l : List Spot} (h : n.found = .ok (.spots l))
    (hm : .ok m.toValue ∈ l) : Part n m.toValue := by
  rcases found_eq_spots_cases h with
    ⟨hk, properties, hp, rfl⟩ | ⟨hk, elements, he, rfl⟩ | ⟨hk, rfl⟩ | ⟨hk, rfl⟩
  · obtain ⟨p, hmem, hspot⟩ := List.mem_map.mp hm
    obtain ⟨q, rfl, ⟨ht, hw⟩ | ⟨ht, hw⟩⟩ := Value.propertySpot_eq_ok_iff.mp hspot
    · exact hw ▸ .property hk (field_eq_array_of_membersOf hp hmem) hmem ht
    · rw [← field_of_require hw]
      exact .restProperty hk (field_eq_array_of_membersOf hp hmem) hmem ht
  · obtain ⟨e, hmem, hok⟩ := List.mem_map.mp hm
    obtain rfl : e = m.toValue := Except.ok.inj hok
    have hmem := List.mem_of_mem_filter hmem
    exact .element hk (field_eq_array_of_membersOf he hmem) hmem
  · rw [← field_of_require (List.mem_singleton.mp hm).symm]
    exact .target hk
  · rw [← field_of_require (List.mem_singleton.mp hm).symm]
    exact .defaulted hk

/-- Only at an object there is anything but a fault. -/
theorem Spot.exists_node_of_foundAt {p : Spot} {path : List Nat} {r : Found}
    (h : p.foundAt path = some (.ok r)) : ∃ n : Node, p = .ok n.toValue := by
  have hok : ∃ r, p.found = .ok r := by
    cases path with
    | nil => exact ⟨r, by simpa using h⟩
    | cons i path =>
      obtain ⟨l, -, hl, -⟩ := exists_spots_of_foundAt_cons h
      exact ⟨_, hl⟩
  obtain ⟨r, hr⟩ := hok
  cases p with
  | error fault => cases hr
  | ok v =>
    cases hn : v.node? with
    | none => rw [found_of_node?_eq_none hn] at hr; cases hr
    | some n => exact ⟨n, by rw [Value.node?_eq_some_iff.mp hn]⟩

/-- The names that are found somewhere in a pattern are those of its leaves. -/
theorem exists_foundAt_name_iff {v : Value} {x : Name} :
    (∃ path, Spot.foundAt (.ok v) path = some (.ok (.name x))) ↔ ∃ m, Leaf v m ∧ m.Named x := by
  constructor
  · rintro ⟨path, h⟩
    induction path generalizing v with
    | nil =>
      obtain ⟨n, hn⟩ := Spot.exists_node_of_foundAt h
      obtain rfl := Except.ok.inj hn
      rw [Spot.foundAt_nil, Option.some.injEq, Spot.found_toValue, Node.found_eq_name_iff] at h
      exact ⟨n, .identifier h.1, h.2⟩
    | cons i path ih =>
      obtain ⟨n, hn⟩ := Spot.exists_node_of_foundAt h
      obtain rfl := Except.ok.inj hn
      obtain ⟨l, q, hl, hq, hfound⟩ := Spot.exists_spots_of_foundAt_cons h
      obtain ⟨m, rfl⟩ := Spot.exists_node_of_foundAt hfound
      obtain ⟨leaf, hleaf, hx⟩ := ih hfound
      rw [Spot.found_toValue] at hl
      exact ⟨leaf, .part (Node.part_of_found hl (List.mem_of_getElem? hq)) hleaf, hx⟩
  · rintro ⟨m, hm, hx⟩
    induction hm with
    | identifier hk => exact ⟨[], by simp [Spot.found_toValue, Node.found_eq_name_iff.mpr ⟨hk, hx⟩]⟩
    | part hp hm ih =>
      obtain ⟨q, rfl⟩ := hm.exists_eq_toValue
      obtain ⟨l, hl, hmem⟩ := hp.exists_spot
      obtain ⟨i, hi⟩ := List.getElem?_of_mem hmem
      obtain ⟨path, hpath⟩ := ih hx
      refine ⟨i :: path, (Spot.foundAt_cons_eq_some_iff (l := l) ?_).mpr ⟨_, hi, hpath⟩⟩
      rw [Spot.found_toValue, hl]

/-! ### What a pattern declares -/

/-- The kinds of nodes that are patterns. -/
def Kind.isPattern : Kind → Bool
  | identifier | objectPattern | arrayPattern | restElement | assignmentPattern => true
  | _ => false

/-- The fields by which the node is read as a pattern hold values of the right sort. -/
structure Node.PatternShaped (n : Node) : Prop where
  properties : n.HoldsList "properties"
  elements : n.HoldsList "elements"
  name : ∀ v ∈ n.fields.lookup "name", v.isAnyText

instance (n : Node) : Decidable n.PatternShaped :=
  decidable_of_iff
    (n.HoldsList "properties" ∧ n.HoldsList "elements" ∧ ∀ v ∈ n.fields.lookup "name", v.isAnyText)
    ⟨fun ⟨hproperties, helements, hname⟩ => ⟨hproperties, helements, hname⟩,
      fun h => ⟨h.properties, h.elements, h.name⟩⟩

/-- An object of another kind is not recognised, which is reported at its position. -/
theorem Node.found_of_not_isPattern {n : Node} (h : n.hasKind Kind.isPattern = false) :
    n.found = .error (n.breach (.unrecognizedPattern n.type)) := by
  unfold found foundAs
  unfold hasKind at h
  split <;> simp_all [Kind.isPattern]

theorem Bound.mem_addTo_iff {b : Bound} {table : NameSet} {x : Name} :
    x ∈ b.addTo table ↔ x ∈ table ∨ ∃ y ∈ b.names, y.key = x.key := by
  rw [addTo, NameSet.mem_foldl_insert, or_comm]

/-- All names in a value are texts. -/
def Value.NamedByTexts (p : Value) : Prop := ∀ m ∈ p.nodes, ∀ v ∈ m.fields.lookup "name", v.isAnyText

/-- Where all names are texts, a pattern adds the names that it binds. -/
theorem mem_addTo_bound_iff {p : Value} (hname : p.NamedByTexts) {table : NameSet} {x : Name} :
    x ∈ (bound p).addTo table ↔ x ∈ table ∨ x ∈ (bound p).names := by
  rw [Bound.mem_addTo_iff]
  refine or_congr Iff.rfl ⟨?_, fun h => ⟨x, h, rfl⟩⟩
  rintro ⟨y, hy, hkey⟩
  obtain ⟨m, hm, hnamed⟩ := exists_leaf_of_mem_names_bound hy
  have htext := hname m hm.mem_nodes y.toValue hnamed
  cases y with
  | text t => rwa [Name.eq_text_of_key hkey.symm]
  | _ => cases htext

/-- A reading that fails ends at a path: the first fault is found there, and exactly the names to the left of
it are added to the table. -/
structure Node.EndsAt (n : Node) (table : NameSet) (fault : Fault) (first : List Nat) : Prop where
  ends : (bound n.toValue).fault = some fault
  found : Spot.foundAt (.ok n.toValue) first = some (.error fault)
  clear : Spot.Clear (.ok n.toValue) first
  names : ∀ x, x ∈ (bound n.toValue).addTo table ↔
    x ∈ table ∨ ∃ path, path < first ∧ Spot.foundAt (.ok n.toValue) path = some (.ok (.name x))
  /-- An object there that is no pattern is reported as such, at its position if that can be read. -/
  unrecognized : ∀ m : Node, Spot.descend (.ok n.toValue) first = some (.ok m.toValue) →
    m.hasKind Kind.isPattern = false →
      (∀ position, m.position = .ok position →
        fault = .breach (.unrecognizedPattern m.type) (some position) ∧
        fault.message? =
          some ("Unrecognized pattern type: " ++ m.type.plain ++ Fault.placeText (some position))) ∧
      ∀ other, m.position = .error other → fault = other

theorem Node.exists_endsAt {n : Node} (hname : n.toValue.NamedByTexts) (table : NameSet) {fault : Fault}
    (hf : (bound n.toValue).fault = some fault) : ∃ first, n.EndsAt table fault first := by
  obtain ⟨first, hfound, hclear⟩ := boundAt_fault_eq_some_iff (p := .ok n.toValue).mp hf
  refine ⟨first, hf, hfound, hclear, fun x => ?_, fun m hm hk => ?_⟩
  · rw [mem_addTo_bound_iff hname, ← Spot.meets_name_iff_of_first hfound hclear]
    exact or_congr Iff.rfl (mem_names_boundAt_iff (p := .ok n.toValue))
  · have hfault : fault = m.breach (.unrecognizedPattern m.type) := by
      rw [Spot.foundAt, hm, Option.map_some, Spot.found_toValue, found_of_not_isPattern hk] at hfound
      exact (Except.error.inj (Option.some.inj hfound)).symm
    refine ⟨fun position hposition => ?_, fun other hother => ?_⟩
    · have hbreach : fault = .breach (.unrecognizedPattern m.type) (some position) := by
        rw [hfault, breach, hposition]
      exact ⟨hbreach, by rw [hbreach]; rfl⟩
    · rw [hfault, breach, hother]

/-- **A pattern declares the names that it binds.** It is read if it is in the grammar, and then the names of
its leaves are added to the table and nothing else. A reading that fails ends at the first fault from left to
right, and has added the names to the left of it. If an object that is no pattern stands there, this is what is
reported, but only where the position of the object can be read. What is added depends on nothing but the names
and faults that are found in the pattern: not on keys, defaults or any other field. -/
theorem pattern_declares (n : Node) (hshape : ∀ m ∈ n.toValue.nodes, m.PatternShaped) (table : NameSet) :
    ((bound n.toValue).fault = none ↔ BindingPattern n.toValue) ∧
    (BindingPattern n.toValue → ∀ x, x ∈ (bound n.toValue).addTo table ↔
      x ∈ table ∨ ∃ m, Leaf n.toValue m ∧ m.Named x) ∧
    (∀ x, (∃ path, Spot.foundAt (.ok n.toValue) path = some (.ok (.name x))) ↔
      ∃ m, Leaf n.toValue m ∧ m.Named x) ∧
    (¬ BindingPattern n.toValue → ∃ fault first, n.EndsAt table fault first) ∧
    ∀ q : Value, Spot.Alike (.ok n.toValue) (.ok q) →
      ((bound q).fault = none ↔ (bound n.toValue).fault = none) ∧
      ∀ x, x ∈ (bound q).addTo table ↔ x ∈ (bound n.toValue).addTo table := by
  have hname : n.toValue.NamedByTexts := fun m hm => (hshape m hm).name
  have hfault : (bound n.toValue).fault = none ↔ BindingPattern n.toValue :=
    bound_fault_eq_none_iff fun m hm => ⟨(hshape m hm).properties, (hshape m hm).elements⟩
  refine ⟨hfault, fun hp x => ?_, fun x => exists_foundAt_name_iff, fun hp => ?_, fun q hq => ⟨?_, fun x => ?_⟩⟩
  · rw [mem_addTo_bound_iff hname, mem_names_bound_iff (hfault.mpr hp)]
  · obtain ⟨fault, hf⟩ := Option.ne_none_iff_exists'.mp (mt hfault.mp hp)
    obtain ⟨first, hends⟩ := n.exists_endsAt hname table hf
    exact ⟨fault, first, hends⟩
  · exact (hq.boundAt_fault_eq_none_iff).symm
  · rw [Bound.mem_addTo_iff, Bound.mem_addTo_iff]
    refine or_congr Iff.rfl (exists_congr fun y => and_congr ?_ Iff.rfl)
    exact (mem_names_boundAt_iff (p := .ok q)).trans
      (hq.meets_name_iff.symm.trans (mem_names_boundAt_iff (p := .ok n.toValue)).symm)

/-- An object pattern with two properties, of which the second leads to a number. -/
def brokenPattern : Node :=
  ⟨0, [("type", .text Kind.objectPattern.name),
    ("properties", .array
      [Kind.property.object [("key", .identifier "k"), ("value", .identifier "a")],
       Kind.property.object [("value", .int 5)],
       Kind.property.object [("value", .identifier "b")]])]⟩

theorem pattern_declares_brokenPattern :
    (∀ m ∈ brokenPattern.toValue.nodes, m.PatternShaped) ∧ ¬ BindingPattern brokenPattern.toValue ∧
      (bound brokenPattern.toValue).names = [.text "a"] ∧
      ∃ fault first, brokenPattern.EndsAt ∅ fault first := by
  have hshape : ∀ m ∈ brokenPattern.toValue.nodes, m.PatternShaped := by decide +kernel
  have hp : ¬ BindingPattern brokenPattern.toValue := by
    rw [← (pattern_declares brokenPattern hshape ∅).1, ← Option.isNone_iff_eq_none]
    decide +kernel
  exact ⟨hshape, hp, by decide +kernel, (pattern_declares brokenPattern hshape ∅).2.2.2.1 hp⟩

/-- An object of no kind, with a number for a location. -/
def strayPattern : Node := ⟨0, [("type", .text "X"), ("loc", .int 5)]⟩

/-- An object that is no pattern is not reported as such if its location cannot be read. -/
theorem strayPattern_not_unrecognized :
    (∀ m ∈ strayPattern.toValue.nodes, m.PatternShaped) ∧ strayPattern.hasKind Kind.isPattern = false ∧
      ∀ position, (bound strayPattern.toValue).fault ≠
        some (.breach (.unrecognizedPattern strayPattern.type) position) := by
  refine ⟨by decide +kernel, by decide +kernel, fun position => ?_⟩
  have hb : (bound strayPattern.toValue).fault = some .notAnObject := by
    rw [bound_toValue]
    rfl
  rw [hb]
  simp

end FreeNames
