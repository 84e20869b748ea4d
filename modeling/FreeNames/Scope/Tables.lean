import FreeNames.Fault

/-!
# Binding tables

A binding table is the set of names that one node declares. The tables of a tree are kept beside it,
under the labels of the nodes. What stands in the *slot* of a node is its table, or a value that came
with the tree in the place of one. A null in the slot is no table, which is not the same as having no
slot.
-/

namespace FreeNames

/-! ### What can stand for a table -/

namespace Value

/-- Whether a value that stands for a table has a name. A text has the texts that stand somewhere in
it, an object the names of its fields. -/
def hasName (v : Value) (name : Name) : Except Fault Bool :=
  match v, name with
  | null, _ => .ok false
  | names set, _ => .ok (decide (name ∈ set))
  | array items, _ => .ok (items.any fun item => item.name?.any fun own => own.same name)
  | object _ fields, .text t => .ok (fields.any fun field => t == field.1)
  | object .., _ => .ok false
  | text whole, .text t => .ok (t.standsIn whole.points)
  | _, _ => .error .wrongSort

/-- The names that a value has which stands for a table, in order; none if it is null. Names without
an order among each other cannot be listed. -/
def listedNames : Value → Except Fault (Option (List Name))
  | null => .ok none
  | names set => if set.isUniform then .ok (some set.toList) else .error .wrongSort
  | object _ fields => .ok (some ((fields.map Prod.fst).mergeSort.map fun (name : String) => .text name))
  | text t => .ok (some (t.points.mergeSort.map fun p => .text ⟨[p]⟩))
  | _ => .error .wrongSort

end Value

/-! ### Tables by label -/

/-- The slots of the nodes of a tree, by label. -/
structure Tables where
  slots : List (Nat × Value)

namespace Tables

/-- No node has a slot. -/
def empty : Tables := ⟨[]⟩

instance : Inhabited Tables := ⟨empty⟩

/-- The slot of a node. -/
def slot? (t : Tables) (label : Nat) : Option Value := t.slots.lookup label

/-- The table of a node. -/
def table? (t : Tables) (label : Nat) : Option NameSet :=
  match t.slot? label with
  | some (.names set) => some set
  | _ => none

/-- Whether the table of a node has a name, or what stands for it. -/
def binds (t : Tables) (label : Nat) (name : Name) : Except Fault Bool :=
  ((t.slot? label).getD .null).hasName name

/-- The slots with one of them taken away. -/
def erase (t : Tables) (label : Nat) : Tables := ⟨t.slots.filter fun entry => entry.1 != label⟩

/-- Slots in which the first one of a label is exchanged. -/
def exchange (label : Nat) (slot : Value) : List (Nat × Value) → List (Nat × Value)
  | [] => []
  | entry :: rest =>
    if label == entry.1 then (label, slot) :: rest else entry :: exchange label slot rest

/-- The slots with one of them set. -/
def set (t : Tables) (label : Nat) (slot : Value) : Tables :=
  match t.slot? label with
  | some _ => ⟨exchange label slot t.slots⟩
  | none => ⟨(label, slot) :: t.slots⟩

theorem slot?_erase (t : Tables) (label other : Nat) :
    (t.erase label).slot? other = if other = label then none else t.slot? other := by
  obtain ⟨slots⟩ := t
  simp only [slot?, erase]
  induction slots with
  | nil => simp
  | cons entry rest ih =>
    obtain ⟨l, s⟩ := entry
    by_cases hl : l = label
    · subst hl
      rw [List.filter_cons_of_neg (by simp), ih]
      split
      · rfl
      · rename_i h
        rw [List.lookup_cons, beq_false_of_ne h]
    · rw [List.filter_cons_of_pos (by simpa using hl), List.lookup_cons, List.lookup_cons, ih]
      by_cases ho : other = l
      · subst ho; simp [hl]
      · simp [beq_false_of_ne ho]

theorem lookup_exchange (label other : Nat) (slot : Value) (slots : List (Nat × Value)) :
    (exchange label slot slots).lookup other =
      if other = label then (slots.lookup label).map fun _ => slot else slots.lookup other := by
  induction slots with
  | nil => simp [exchange]
  | cons entry rest ih =>
    obtain ⟨l, s⟩ := entry
    by_cases hl : label = l
    · subst hl
      by_cases ho : other = label
      · simp [exchange, ho]
      · simp [exchange, List.lookup_cons, beq_false_of_ne ho, ho]
    · by_cases ho : other = l
      · subst ho; simp [exchange, hl, Ne.symm hl]
      · simp [exchange, List.lookup_cons, beq_false_of_ne hl, beq_false_of_ne ho, ih]

@[simp] theorem slot?_set (t : Tables) (label other : Nat) (slot : Value) :
    (t.set label slot).slot? other = if other = label then some slot else t.slot? other := by
  unfold set
  split
  · rename_i old h
    rw [slot?] at h
    simp [slot?, lookup_exchange, h]
  · by_cases ho : other = label
    · simp [slot?, ho]
    · simp [slot?, List.lookup_cons, beq_false_of_ne ho, ho]

@[simp] theorem slot?_empty (label : Nat) : empty.slot? label = none := rfl

end Tables

end FreeNames
