import FreeNames.Name

/-!
# Sets of names

A set of names is kept as its members in the order of their keys, each name once. A name that is
added again keeps the form in which it came first.
-/

namespace FreeNames

/-- A finite set of names. -/
structure NameSet where
  toList : List Name
  sorted : toList.Pairwise fun a b => a.key < b.key

namespace NameSet

/-- The set without members. -/
def empty : NameSet := ⟨[], .nil⟩

instance : EmptyCollection NameSet := ⟨empty⟩

instance : Inhabited NameSet := ⟨empty⟩

/-- A set has a name if one of its members has the key of the name. -/
instance : Membership Name NameSet := ⟨fun s name => ∃ x ∈ s.toList, x.key = name.key⟩

theorem mem_def {s : NameSet} {name : Name} : name ∈ s ↔ ∃ x ∈ s.toList, x.key = name.key := Iff.rfl

/-- Whether a set has a name. -/
def contains (s : NameSet) (name : Name) : Bool := s.toList.any fun x => x.same name

theorem contains_iff {s : NameSet} {name : Name} : s.contains name ↔ name ∈ s := by
  simp only [contains, List.any_eq_true, Name.same_iff, mem_def]

instance (s : NameSet) (name : Name) : Decidable (name ∈ s) := decidable_of_iff _ contains_iff

instance : DecidableEq NameSet := fun s t =>
  decidable_of_iff (s.toList = t.toList) ⟨fun h => by cases s; cases t; cases h; rfl, congrArg _⟩

/-- Whether a set has no member. -/
def isEmpty (s : NameSet) : Bool := s.toList.isEmpty

/-- Whether all members are of one sort, so that they have an order. -/
def isUniform (s : NameSet) : Bool :=
  match s.toList with
  | [] => true
  | first :: rest => rest.all fun name => name.sort = first.sort

/-- The keys of the members, in order. -/
def keys (s : NameSet) : List (List Int) := s.toList.map Name.key

theorem mem_iff_key_mem {s : NameSet} {name : Name} : name ∈ s ↔ name.key ∈ s.keys := by
  simp [mem_def, keys]

theorem sorted_keys (s : NameSet) : s.keys.Pairwise (· < ·) := List.pairwise_map.mpr s.sorted

/-! ### Adding a name -/

/-- A name put into an increasing list, unless it is there. -/
def insertInto (name : Name) : List Name → List Name
  | [] => [name]
  | other :: rest =>
    if name.precedes other then name :: other :: rest
    else if name.same other then other :: rest
    else other :: insertInto name rest

theorem key_mem_insertInto {name : Name} {k : List Int} : ∀ {l : List Name},
    k ∈ (insertInto name l).map Name.key ↔ k = name.key ∨ k ∈ l.map Name.key
  | [] => by simp [insertInto]
  | other :: rest => by
    unfold insertInto
    split
    · simp
    · split
      · rename_i h; rw [Name.same_iff.mp h, List.map_cons, List.mem_cons]; grind
      · rw [List.map_cons, List.mem_cons, List.map_cons, List.mem_cons,
          key_mem_insertInto (l := rest)]
        constructor
        · rintro (h | h | h) <;> simp [h]
        · rintro (h | h | h) <;> simp [h]

theorem sorted_insertInto (name : Name) : ∀ {l : List Name},
    (l.map Name.key).Pairwise (· < ·) → ((insertInto name l).map Name.key).Pairwise (· < ·)
  | [], _ => by simp [insertInto]
  | other :: rest, h => by
    obtain ⟨hother, hrest⟩ := List.pairwise_cons.mp h
    unfold insertInto
    split
    · rename_i hlt
      refine List.pairwise_cons.mpr ⟨fun x hx => ?_, h⟩
      rcases List.mem_cons.mp hx with rfl | hx
      · exact Name.precedes_iff.mp hlt
      · exact List.lt_trans (Name.precedes_iff.mp hlt) (hother x hx)
    · split
      · exact h
      · rename_i hnlt hne
        refine List.pairwise_cons.mpr ⟨fun x hx => ?_, sorted_insertInto name hrest⟩
        rcases key_mem_insertInto.mp hx with rfl | hx
        · rw [Name.precedes_iff] at hnlt
          rw [Name.same_iff] at hne
          exact Classical.byContradiction fun hngt =>
            hne (Std.Trichotomous.trichotomous _ _ hnlt hngt)
        · exact hother x hx

/-- The set with one more name. -/
def insert (s : NameSet) (name : Name) : NameSet :=
  ⟨insertInto name s.toList,
    List.pairwise_map.mp (sorted_insertInto name (List.pairwise_map.mpr s.sorted))⟩

theorem key_mem_insert {s : NameSet} {name : Name} {k : List Int} :
    k ∈ (s.insert name).keys ↔ k = name.key ∨ k ∈ s.keys := key_mem_insertInto

@[simp] theorem mem_insert {s : NameSet} {name x : Name} :
    x ∈ s.insert name ↔ x.key = name.key ∨ x ∈ s := by
  simp only [mem_iff_key_mem, key_mem_insert]

@[simp] theorem not_mem_empty (x : Name) : x ∉ (∅ : NameSet) := by
  simp [mem_def, EmptyCollection.emptyCollection, empty]

theorem insertInto_of_key_mem {name : Name} : ∀ {l : List Name}, (l.map Name.key).Pairwise (· < ·) →
    name.key ∈ l.map Name.key → insertInto name l = l
  | [], _, hmem => absurd hmem List.not_mem_nil
  | other :: rest, h, hmem => by
    obtain ⟨hother, hrest⟩ := List.pairwise_cons.mp h
    unfold insertInto
    rcases List.mem_cons.mp hmem with heq | hmem
    · rw [if_neg, if_pos (Name.same_iff.mpr heq)]
      rw [Name.precedes_iff, heq]
      exact List.lt_irrefl _
    · have hlt := hother _ hmem
      rw [if_neg, if_neg, insertInto_of_key_mem hrest hmem]
      · rw [Name.same_iff]
        exact fun heq => List.lt_irrefl _ (heq ▸ hlt)
      · rw [Name.precedes_iff]
        exact fun hgt => List.lt_irrefl _ (List.lt_trans hlt hgt)

/-- A name that is there already changes nothing. -/
theorem insert_of_mem {s : NameSet} {name : Name} (h : name ∈ s) : s.insert name = s := by
  obtain ⟨l, hl⟩ := s
  have hmem : name.key ∈ l.map Name.key := mem_iff_key_mem.mp h
  simp only [insert, insertInto_of_key_mem (List.pairwise_map.mpr hl) hmem]

/-- The set of the names in a list. -/
def ofList (names : List Name) : NameSet := names.foldl insert ∅

theorem mem_foldl_insert {x : Name} : ∀ {names : List Name} {s : NameSet},
    x ∈ names.foldl insert s ↔ (∃ name ∈ names, name.key = x.key) ∨ x ∈ s
  | [], s => by simp
  | name :: rest, s => by
    rw [List.foldl_cons, mem_foldl_insert, mem_insert]
    simp only [List.mem_cons, exists_eq_or_imp]
    constructor
    · rintro (h | h | h)
      · exact .inl (.inr h)
      · exact .inl (.inl h.symm)
      · exact .inr h
    · rintro ((h | h) | h)
      · exact .inr (.inl h.symm)
      · exact .inl h
      · exact .inr (.inr h)

theorem foldl_insert_of_forall_mem {names : List Name} {s : NameSet} (h : ∀ name ∈ names, name ∈ s) :
    names.foldl insert s = s := by
  induction names with
  | nil => rfl
  | cons name rest ih =>
    obtain ⟨hname, hrest⟩ := List.forall_mem_cons.mp h
    rw [List.foldl_cons, insert_of_mem hname, ih hrest]

@[simp] theorem mem_ofList {x : Name} {names : List Name} :
    x ∈ ofList names ↔ ∃ name ∈ names, name.key = x.key := by
  simp [ofList, mem_foldl_insert]

end NameSet

end FreeNames
