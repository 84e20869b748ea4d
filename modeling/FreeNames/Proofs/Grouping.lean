import FreeNames.Group
import Mathlib.Data.List.Forall2

/-!
# References in groups

Grouping gives every reference its name and puts those of one name together (`exists_names_of_groups`). The
groups hold nothing but references that were given, and if all of these have names, the only thing that can go
wrong is that names of different sorts have no order. So references can be grouped if and only if they have
names of one sort (`exists_groups_iff`).
-/

namespace FreeNames

/-! ### Going through a list -/

section

variable {ε α β : Type} {f : α → Except ε β}

/-- A list is gone through without a failure if each item gives what stands at its place. -/
theorem mapM_eq_ok_iff : ∀ {l : List α} {bs : List β},
    l.mapM f = .ok bs ↔ List.Forall₂ (fun a b => f a = .ok b) l bs
  | [], bs => by
    rw [List.forall₂_nil_left_iff, List.mapM_nil]
    exact ⟨fun h => (Except.ok.inj h).symm, fun h => h ▸ rfl⟩
  | a :: rest, bs => by
    rw [List.forall₂_cons_left_iff, List.mapM_cons]
    cases ha : f a with
    | error e => simp [bind, Except.bind]
    | ok b =>
      simp only [← mapM_eq_ok_iff, Except.ok.injEq, exists_and_left, exists_eq_left']
      cases hrest : rest.mapM f with
      | error e => simp [bind, Except.bind]
      | ok others => simp [bind, Except.bind, pure, Except.pure, eq_comm]

theorem exists_mapM_eq_ok {l : List α} (h : ∀ a ∈ l, ∃ b, f a = .ok b) : ∃ bs, l.mapM f = .ok bs := by
  induction l with
  | nil => exact ⟨[], rfl⟩
  | cons a rest ih =>
    obtain ⟨⟨b, hb⟩, hrest⟩ := List.forall_mem_cons.mp h
    obtain ⟨bs, hbs⟩ := ih hrest
    exact ⟨b :: bs, mapM_eq_ok_iff.mpr (.cons hb (mapM_eq_ok_iff.mp hbs))⟩

theorem exists_of_mem_right {R : α → β → Prop} {l : List α} {bs : List β} (h : List.Forall₂ R l bs) {b : β}
    (hb : b ∈ bs) : ∃ a ∈ l, R a b := by
  induction h with
  | nil => simp at hb
  | cons ha _ ih =>
    rcases List.mem_cons.mp hb with rfl | hb
    · exact ⟨_, List.mem_cons_self, ha⟩
    · obtain ⟨a, hmem, ha⟩ := ih hb
      exact ⟨a, List.mem_cons_of_mem _ hmem, ha⟩

end

/-! ### References with names -/

theorem Reference.withName_eq_ok_iff {r : Reference} {p : Name × Reference} :
    r.withName = .ok p ↔ r.name = .ok p.1 ∧ p.2 = r := by
  obtain ⟨x, s⟩ := p
  unfold withName
  cases r.name with
  | error fault => simp [bind, Except.bind]
  | ok y => simp [bind, Except.bind, pure, Except.pure, eq_comm]

/-- References that are given their names stay what they are, and in order. -/
theorem map_snd_of_mapM_withName {refs : List Reference} {named : List (Name × Reference)}
    (h : refs.mapM Reference.withName = .ok named) : named.map Prod.snd = refs := by
  have hsame : List.Forall₂ (fun (p : Name × Reference) r => p.2 = r) named refs :=
    ((mapM_eq_ok_iff.mp h).imp fun _ _ hp => (Reference.withName_eq_ok_iff.mp hp).2).flip
  rwa [← List.forall₂_map_left_iff, List.forall₂_eq_eq_eq] at hsame

theorem exists_mapM_withName {refs : List Reference} (h : ∀ r ∈ refs, ∃ x, r.name = .ok x) :
    ∃ named, refs.mapM Reference.withName = .ok named :=
  exists_mapM_eq_ok fun r hr =>
    (h r hr).elim fun x hx => ⟨(x, r), Reference.withName_eq_ok_iff.mpr ⟨hx, rfl⟩⟩

/-- References are given their own names. -/
theorem name_of_mem_mapM_withName {refs : List Reference} {named : List (Name × Reference)}
    (h : refs.mapM Reference.withName = .ok named) : ∀ p ∈ named, p.2.name = .ok p.1 := by
  intro p hp
  obtain ⟨r, -, hr⟩ := exists_of_mem_right (mapM_eq_ok_iff.mp h) hp
  obtain ⟨hname, hsame⟩ := Reference.withName_eq_ok_iff.mp hr
  rw [hsame, hname]

/-- Whether the reference has a name, and it is the same as `x`. -/
def Reference.isNamed (x : Name) (r : Reference) : Bool := r.name.toOption.any fun own => own.same x

theorem Reference.isNamed_iff {x : Name} {r : Reference} :
    r.isNamed x ↔ ∃ own, r.name = .ok own ∧ own.key = x.key := by
  unfold isNamed
  cases r.name with
  | error fault => simp [Except.toOption]
  | ok own => simp [Except.toOption, Name.same_iff]

/-- There is a group for each name that some reference has. It holds the references of the name, in order. -/
theorem exists_names_of_groups {refs : List Reference} {found : List Group} (h : groups refs = .ok found) :
    ∃ names : NameSet, found = names.toList.map (fun x => ⟨x, refs.filter (Reference.isNamed x)⟩) ∧
      ∀ x, x ∈ names ↔ ∃ r ∈ refs, r.isNamed x := by
  unfold groups at h
  cases hnamed : refs.mapM Reference.withName with
  | error fault => simp [hnamed, bind, Except.bind] at h
  | ok named =>
    simp only [hnamed, bind, Except.bind] at h
    split at h
    · obtain rfl := Except.ok.inj h
      have hrefs := map_snd_of_mapM_withName hnamed
      have hown : ∀ p ∈ named, ∀ x, p.2.isNamed x = p.1.same x := by
        intro p hp x
        rw [Reference.isNamed, name_of_mem_mapM_withName hnamed p hp]
        rfl
      refine ⟨NameSet.ofList (named.map Prod.fst), List.map_congr_left fun x _ => ?_, fun x => ?_⟩
      · rw [referencesNamed, ← hrefs, List.filter_map]
        congr 2
        exact List.filter_congr fun p hp => (hown p hp x).symm
      · rw [NameSet.mem_ofList, ← hrefs]
        constructor
        · rintro ⟨own, hmem, hkey⟩
          obtain ⟨p, hp, rfl⟩ := List.mem_map.mp hmem
          exact ⟨p.2, List.mem_map_of_mem hp, by rw [hown p hp]; exact Name.same_iff.mpr hkey⟩
        · rintro ⟨r, hmem, hr⟩
          obtain ⟨p, hp, rfl⟩ := List.mem_map.mp hmem
          rw [hown p hp] at hr
          exact ⟨p.1, List.mem_map_of_mem hp, Name.same_iff.mp hr⟩
    · cases h

/-- A group holds nothing but references that were given. -/
theorem mem_of_mem_groups {refs : List Reference} {found : List Group} (h : groups refs = .ok found)
    {g : Group} (hg : g ∈ found) {r : Reference} (hr : r ∈ g.references) : r ∈ refs := by
  obtain ⟨names, rfl, -⟩ := exists_names_of_groups h
  obtain ⟨name, -, rfl⟩ := List.mem_map.mp hg
  exact (List.mem_filter.mp hr).1

/-- References that have names can be grouped, if their names have an order. -/
theorem eq_wrongSort_of_groups {refs : List Reference} (h : ∀ r ∈ refs, ∃ x, r.name = .ok x)
    {fault : Fault} (hg : groups refs = .error fault) : fault = .wrongSort := by
  obtain ⟨named, hnamed⟩ := exists_mapM_withName h
  unfold groups at hg
  simp only [hnamed, bind, Except.bind] at hg
  split at hg
  · cases hg
  · exact (Except.error.inj hg).symm

/-! ### Names of one sort -/

/-- What the key of a name of a sort begins with. -/
def NameSort.rank : NameSort → Int
  | null => 0
  | number => 1
  | text => 2

theorem NameSort.rank_injective {a b : NameSort} (h : a.rank = b.rank) : a = b := by
  cases a <;> cases b <;> simp [rank] at h <;> rfl

theorem Name.head?_key (x : Name) : x.key.head? = some x.sort.rank := by
  cases x with
  | float bits =>
    simp only [key]
    split <;> rfl
  | _ => rfl

/-- Names of one key are of one sort. -/
theorem Name.sort_eq_of_key_eq {x y : Name} (h : x.key = y.key) : x.sort = y.sort := by
  have hhead := congrArg List.head? h
  rw [head?_key, head?_key] at hhead
  exact NameSort.rank_injective (Option.some.inj hhead)

theorem NameSet.isUniform_iff {s : NameSet} : s.isUniform ↔ ∃ sort, ∀ x ∈ s.toList, x.sort = sort := by
  unfold isUniform
  split
  · rename_i h
    exact iff_of_true rfl ⟨.text, by simp [h]⟩
  · rename_i first rest h
    simp only [h, List.all_eq_true, decide_eq_true_eq, List.forall_mem_cons]
    exact ⟨fun hall => ⟨first.sort, rfl, hall⟩, fun ⟨sort, hfirst, hall⟩ x hx => by rw [hall x hx, hfirst]⟩

theorem NameSet.isUniform_ofList_iff {names : List Name} :
    (ofList names).isUniform ↔ ∃ sort, ∀ x ∈ names, x.sort = sort := by
  rw [isUniform_iff]
  constructor
  · rintro ⟨sort, h⟩
    refine ⟨sort, fun x hx => ?_⟩
    obtain ⟨y, hy, hkey⟩ := mem_def.mp (mem_ofList.mpr ⟨x, hx, rfl⟩)
    rw [← h y hy, Name.sort_eq_of_key_eq hkey]
  · rintro ⟨sort, h⟩
    refine ⟨sort, fun y hy => ?_⟩
    obtain ⟨x, hx, hkey⟩ := mem_ofList.mp (mem_def.mpr ⟨y, hy, rfl⟩)
    rw [← h x hx, Name.sort_eq_of_key_eq hkey]

/-- References can be grouped if they have names of one sort. -/
theorem exists_groups_iff {refs : List Reference} :
    (∃ found, groups refs = .ok found) ↔ ∃ sort, ∀ r ∈ refs, ∃ x, r.name = .ok x ∧ x.sort = sort := by
  constructor
  · rintro ⟨found, h⟩
    unfold groups at h
    cases hnamed : refs.mapM Reference.withName with
    | error fault => simp [hnamed, bind, Except.bind] at h
    | ok named =>
      simp only [hnamed, bind, Except.bind] at h
      split at h
      · rename_i huniform
        obtain ⟨sort, hsort⟩ := NameSet.isUniform_ofList_iff.mp huniform
        refine ⟨sort, fun r hr => ?_⟩
        rw [← map_snd_of_mapM_withName hnamed] at hr
        obtain ⟨p, hp, rfl⟩ := List.mem_map.mp hr
        exact ⟨p.1, name_of_mem_mapM_withName hnamed p hp, hsort _ (List.mem_map_of_mem hp)⟩
      · cases h
  · rintro ⟨sort, h⟩
    obtain ⟨named, hnamed⟩ := exists_mapM_withName fun r hr => (h r hr).imp fun _ hx => hx.1
    have huniform : (NameSet.ofList (named.map Prod.fst)).isUniform := by
      refine NameSet.isUniform_ofList_iff.mpr ⟨sort, fun x hx => ?_⟩
      obtain ⟨p, hp, rfl⟩ := List.mem_map.mp hx
      have hmem : p.2 ∈ refs := map_snd_of_mapM_withName hnamed ▸ List.mem_map_of_mem hp
      obtain ⟨y, hy, hsort⟩ := h _ hmem
      have hname := name_of_mem_mapM_withName hnamed p hp
      rw [hy] at hname
      rw [← Except.ok.inj hname, hsort]
    simp only [groups, hnamed, bind, Except.bind, huniform, if_true]
    exact ⟨_, rfl⟩

/-- Groups come in the order of their names. -/
theorem sorted_of_groups {refs : List Reference} {found : List Group} (h : groups refs = .ok found) :
    found.Pairwise fun g g' => g.name.key < g'.name.key := by
  obtain ⟨names, rfl, -⟩ := exists_names_of_groups h
  exact List.Pairwise.map _ (fun _ _ h => h) names.sorted

end FreeNames
