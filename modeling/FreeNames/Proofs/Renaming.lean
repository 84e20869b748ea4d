import FreeNames.Proofs.Grouping
import Mathlib.Data.List.Sort

/-!
# Renamings

A renaming gives every text another, no two the same, and leaves `undefined`, `arguments` and `this` as they
are. It changes neither which names are the same nor of which sort they are, but it may change their order.
So the names of a set, renamed, are the names of the renamed set, in an order of its own.
-/

namespace FreeNames

/-- A change of texts that keeps them apart, and those that mean something to the analysis as they are. -/
structure Renaming where
  map : Text → Text
  injective : ∀ {s t : Text}, map s = map t → s = t
  undefined : map "undefined" = "undefined"
  arguments : map "arguments" = "arguments"
  this : map "this" = "this"

namespace Renaming

/-- Nothing is renamed. -/
def identity : Renaming := ⟨id, id, rfl, rfl, rfl⟩

end Renaming

/-! ### Renamed names -/

namespace Name

variable {f : Renaming} {x y : Name} {t : Text}

/-- The name after a renaming. Names other than texts stay. -/
def rename (f : Renaming) : Name → Name
  | text t => text (f.map t)
  | x => x

theorem rename_identity (x : Name) : x.rename .identity = x := by cases x <;> rfl

@[simp] theorem sort_rename : (x.rename f).sort = x.sort := by cases x <;> rfl

theorem rename_eq_null_iff : x.rename f = .null ↔ x = .null := by cases x <;> simp [rename]

/-- A text that is kept is the renamed form of itself alone. -/
theorem rename_eq_text_iff (ht : f.map t = t) : x.rename f = text t ↔ x = text t := by
  cases x with
  | text s =>
    simp only [rename, text.injEq]
    exact ⟨fun h => f.injective (h.trans ht.symm), fun h => h ▸ ht⟩
  | _ => simp [rename]

theorem key_rename_eq_iff : (x.rename f).key = (y.rename f).key ↔ x.key = y.key := by
  cases x with
  | text s =>
    constructor
    · intro h
      obtain ⟨z, rfl⟩ : ∃ z, y = text z := by
        have := eq_text_of_key h.symm
        cases y <;> simp [rename] at this
        exact ⟨_, rfl⟩
      rw [f.injective (key_text_inj.mp h)]
    · intro h
      rw [eq_text_of_key h.symm]
  | _ =>
    cases y with
    | text s =>
      refine iff_of_false (fun h => ?_) fun h => ?_ <;> exact absurd (eq_text_of_key h) (by simp [rename])
    | _ => rfl

theorem same_rename : (x.rename f).same (y.rename f) = x.same y := by
  rw [Bool.eq_iff_iff, same_iff, same_iff, key_rename_eq_iff]

end Name

/-! ### Sets by their members -/

namespace NameSet

variable {s t : NameSet} {x y : Name}

theorem nodup_keys (s : NameSet) : s.keys.Nodup :=
  s.sorted_keys.imp fun {a b} h (heq : a = b) => List.lt_irrefl b (heq ▸ h)

theorem nodup_toList (s : NameSet) : s.toList.Nodup := .of_map _ s.nodup_keys

/-- A set is known by its members in the form that they have. -/
theorem ext_toList (h : ∀ x, x ∈ s.toList ↔ x ∈ t.toList) : s = t := by
  have hperm : s.toList.Perm t.toList := (List.perm_ext_iff_of_nodup s.nodup_toList t.nodup_toList).mpr h
  have heq : s.toList = t.toList :=
    hperm.eq_of_pairwise (fun a b _ _ hab hba => absurd (List.lt_trans hab hba) (List.lt_irrefl _)) s.sorted
      t.sorted
  cases s
  cases t
  cases heq
  rfl

theorem mem_insertInto_of_not_mem : ∀ {l : List Name}, y.key ∉ l.map Name.key →
    (x ∈ insertInto y l ↔ x = y ∨ x ∈ l)
  | [], _ => by simp [insertInto]
  | z :: l, h => by
    rw [List.map_cons, List.mem_cons, not_or] at h
    unfold insertInto
    split
    · simp
    · rw [if_neg (fun hs => h.1 (Name.same_iff.mp hs)), List.mem_cons, mem_insertInto_of_not_mem h.2,
        List.mem_cons, or_left_comm]

/-- A name is added unless it is there already, perhaps in another form. -/
theorem mem_toList_insert : x ∈ (s.insert y).toList ↔ x ∈ s.toList ∨ x = y ∧ y ∉ s := by
  by_cases h : y ∈ s
  · simp [insert_of_mem h, h]
  · have hkey : y.key ∉ s.toList.map Name.key := fun hk => h (mem_iff_key_mem.mpr hk)
    rw [insert, mem_insertInto_of_not_mem hkey, or_comm]
    simp [h]

theorem mem_toList_foldl_insert : ∀ {names : List Name} {s : NameSet},
    x ∈ (names.foldl insert s).toList ↔
      x ∈ s.toList ∨ x ∉ s ∧ names.find? (fun y => y.same x) = some x
  | [], s => by simp
  | y :: rest, s => by
    rw [List.foldl_cons, mem_toList_foldl_insert, mem_toList_insert, mem_insert, List.find?_cons]
    have hmem : x ∈ s.toList → x ∈ s := fun h => mem_def.mpr ⟨x, h, rfl⟩
    by_cases hkey : y.key = x.key
    · have hs : y ∈ s ↔ x ∈ s := by rw [mem_iff_key_mem, mem_iff_key_mem, hkey]
      simp only [Name.same_iff.mpr hkey, hkey.symm, true_or, not_true, false_and, or_false, hs,
        Option.some.injEq]
      exact or_congr_right ⟨fun h => ⟨h.2, h.1.symm⟩, fun h => ⟨h.2.symm, h.1⟩⟩
    · have hne : ¬ x = y := fun h => hkey (h ▸ rfl)
      simp only [Bool.eq_false_iff.mpr (mt Name.same_iff.mp hkey), hne, false_and, or_false,
        show ¬ x.key = y.key from fun h => hkey h.symm, false_or]

/-- A set that is made of a list has of each name the form that comes first. -/
theorem mem_toList_ofList {names : List Name} :
    x ∈ (ofList names).toList ↔ names.find? (fun y => y.same x) = some x := by
  rw [ofList, mem_toList_foldl_insert]
  simp [EmptyCollection.emptyCollection, empty, mem_def]

/-- A set is made of its own members. -/
theorem ofList_toList (s : NameSet) : ofList s.toList = s := by
  refine ext_toList fun x => mem_toList_ofList.trans ⟨List.mem_of_find?_eq_some, fun hx => ?_⟩
  obtain ⟨y, hy⟩ : ∃ y, s.toList.find? (fun y => y.same x) = some y := by
    rw [← Option.isSome_iff_exists, List.find?_isSome]
    exact ⟨x, hx, Name.same_iff.mpr rfl⟩
  have hsame : y.same x := List.find?_some (p := fun z : Name => z.same x) hy
  rw [hy, List.inj_on_of_nodup_map s.nodup_keys (List.mem_of_find?_eq_some hy) hx (Name.same_iff.mp hsame)]

/-! ### Renamed sets -/

/-- The set of the renamed names. -/
def rename (f : Renaming) (s : NameSet) : NameSet := ofList (s.toList.map (Name.rename f))

variable {f : Renaming}

theorem mem_toList_ofList_rename {names : List Name} :
    x ∈ (ofList (names.map (Name.rename f))).toList ↔ ∃ y ∈ (ofList names).toList, y.rename f = x := by
  simp only [mem_toList_ofList, List.find?_map, Option.map_eq_some_iff, Function.comp_def]
  refine exists_congr fun y => and_congr_left ?_
  rintro rfl
  simp only [Name.same_rename]

/-- A set that is made of renamed names is the renamed set. -/
theorem ofList_rename (names : List Name) : ofList (names.map (Name.rename f)) = (ofList names).rename f := by
  refine ext_toList fun x => ?_
  rw [rename, mem_toList_ofList_rename, mem_toList_ofList_rename, ofList_toList]

theorem mem_toList_rename : x ∈ (s.rename f).toList ↔ ∃ y ∈ s.toList, y.rename f = x := by
  rw [rename, mem_toList_ofList_rename, ofList_toList]

theorem mem_rename : x.rename f ∈ s.rename f ↔ x ∈ s := by
  simp only [mem_def, mem_toList_rename]
  constructor
  · rintro ⟨z, ⟨y, hy, rfl⟩, hkey⟩
    exact ⟨y, hy, Name.key_rename_eq_iff.mp hkey⟩
  · rintro ⟨y, hy, hkey⟩
    exact ⟨_, ⟨y, hy, rfl⟩, Name.key_rename_eq_iff.mpr hkey⟩

theorem rename_identity (s : NameSet) : s.rename .identity = s := by
  refine ext_toList fun x => ?_
  simp [mem_toList_rename, Name.rename_identity]

/-- The members of a renamed set are the renamed members, in an order of their own. -/
theorem toList_rename_perm (s : NameSet) : (s.rename f).toList.Perm (s.toList.map (Name.rename f)) := by
  refine (List.perm_ext_iff_of_nodup (nodup_toList _) ?_).mpr fun x => ?_
  · refine List.Pairwise.map _ (fun a b h heq => ?_) s.sorted
    exact List.lt_irrefl _ (Name.key_rename_eq_iff.mp (congrArg Name.key heq) ▸ h)
  · rw [mem_toList_rename, List.mem_map]

theorem isUniform_rename : (s.rename f).isUniform = s.isUniform := by
  rw [Bool.eq_iff_iff, isUniform_iff, isUniform_iff]
  refine exists_congr fun sort => ⟨fun h x hx => ?_, fun h x hx => ?_⟩
  · rw [← Name.sort_rename (f := f)]
    exact h _ (mem_toList_rename.mpr ⟨x, hx, rfl⟩)
  · obtain ⟨y, hy, rfl⟩ := mem_toList_rename.mp hx
    rw [Name.sort_rename, h y hy]

end NameSet

end FreeNames
