import FreeNames.Analysis
import FreeNames.Proofs.Grouping
import FreeNames.Proofs.Renaming
import Mathlib.Data.List.Induction
import Mathlib.Data.Set.List

/-!
# Groups as a partition

`groups` collects the names first and picks the references of each name after that. It comes to the same to go
through the references once and put each at the end of the group of its name (`Group.put`), with a new group where
the name is met for the first time (`groups_eq_foldl_put`). Each step adds one reference and leaves the others where
they are, so nothing is lost and nothing is there twice.

Where all names are texts, grouping never fails, and its result is known by the references of each name in their
order. So it does not matter how references of different names are mixed (`groups_of_keepsOrder`).
-/

namespace FreeNames

/-! ### One reference after another -/

namespace Group

/-- Groups with one more reference of a name. It is put at the end of the group of its name; without such a group
there is a new one, at the place that the name has in the order. -/
def put (x : Name) (r : Reference) : List Group → List Group
  | [] => [⟨x, [r]⟩]
  | g :: rest =>
    if x.precedes g.name then ⟨x, [r]⟩ :: g :: rest
    else if x.same g.name then { g with references := g.references ++ [r] } :: rest
    else g :: put x r rest

/-- A step adds the reference and nothing else. -/
theorem perm_put (x : Name) (r : Reference) (found : List Group) :
    ((put x r found).flatMap references).Perm (found.flatMap references ++ [r]) := by
  induction found with
  | nil => exact .refl _
  | cons g rest ih =>
    unfold put
    split
    · exact (List.perm_append_singleton r _).symm
    · split
      · rw [List.flatMap_cons, List.flatMap_cons, List.append_assoc, List.append_assoc]
        exact List.perm_append_comm.append_left g.references
      · rw [List.flatMap_cons, List.flatMap_cons, List.append_assoc]
        exact ih.append_left g.references

/-- A step makes of the groups of some names those of the names with one more. -/
theorem put_map {x : Name} {r : Reference} {of : Name → List Reference} :
    ∀ {l : List Name}, (l.map Name.key).Pairwise (· < ·) → (x.key ∉ l.map Name.key → of x = []) →
      put x r (l.map fun y => ⟨y, of y⟩) =
        (NameSet.insertInto x l).map fun y => ⟨y, of y ++ if x.same y then [r] else []⟩
  | [], _, hnew => by
    have hsame : x.same x := Name.same_iff.mpr rfl
    simp [put, NameSet.insertInto, hnew, hsame]
  | y :: rest, hsorted, hnew => by
    obtain ⟨hy, hrest⟩ := List.pairwise_cons.mp hsorted
    -- Names behind one that is not before `x` are other names than `x`, and keep their references.
    have hkeep : ∀ l : List Name, (∀ z ∈ l, x.key ≠ z.key) →
        (l.map fun z => (⟨z, of z ++ if x.same z then [r] else []⟩ : Group)) = l.map fun z => ⟨z, of z⟩ := by
      intro l hl
      refine List.map_congr_left fun z hz => ?_
      rw [if_neg (mt Name.same_iff.mp (hl z hz)), List.append_nil]
    rw [List.map_cons, put, NameSet.insertInto]
    split
    · rename_i hlt
      rw [Name.precedes_iff] at hlt
      have hne : ∀ z ∈ y :: rest, x.key ≠ z.key := by
        intro z hz heq
        rcases List.mem_cons.mp hz with rfl | hz
        · exact List.lt_irrefl _ (heq ▸ hlt)
        · exact List.lt_irrefl _ (heq ▸ List.lt_trans hlt (hy _ (List.mem_map_of_mem hz)))
      have hnil : of x = [] := hnew fun hmem => by
        obtain ⟨z, hz, heq⟩ := List.mem_map.mp hmem
        exact hne z hz heq.symm
      rw [List.map_cons, hkeep _ hne, hnil, if_pos (Name.same_iff.mpr rfl), List.map_cons]
      rfl
    · split
      · rename_i hsame
        rw [List.map_cons, if_pos hsame, hkeep rest]
        intro z hz heq
        have hlt := hy _ (List.mem_map_of_mem hz)
        rw [← heq, Name.same_iff.mp hsame] at hlt
        exact List.lt_irrefl _ hlt
      · rename_i hother
        rw [List.map_cons, if_neg hother, List.append_nil, put_map hrest]
        intro hmem
        refine hnew fun h => ?_
        rcases List.mem_cons.mp h with heq | h
        · exact hother (Name.same_iff.mpr heq)
        · exact hmem h

end Group

theorem referencesNamed_append (named : List (Name × Reference)) (x y : Name) (r : Reference) :
    referencesNamed (named ++ [(x, r)]) y = referencesNamed named y ++ if x.same y then [r] else [] := by
  rw [referencesNamed, List.filter_append, List.map_append, ← referencesNamed]
  by_cases h : x.same y <;> simp [h]

theorem referencesNamed_eq_nil {named : List (Name × Reference)} {x : Name}
    (h : x ∉ NameSet.ofList (named.map Prod.fst)) : referencesNamed named x = [] := by
  rw [referencesNamed, List.map_eq_nil_iff, List.filter_eq_nil_iff]
  intro p hp hsame
  exact h (NameSet.mem_ofList.mpr ⟨p.1, List.mem_map_of_mem hp, Name.same_iff.mp hsame⟩)

/-- References that are put one after another come to the groups of their names. -/
theorem foldl_put (named : List (Name × Reference)) :
    named.foldl (fun found p => Group.put p.1 p.2 found) [] =
      (NameSet.ofList (named.map Prod.fst)).toList.map fun x => ⟨x, referencesNamed named x⟩ := by
  induction named using List.reverseRecOn with
  | nil => rfl
  | append_singleton named p ih =>
    obtain ⟨x, r⟩ := p
    have hinsert : NameSet.ofList ((named ++ [(x, r)]).map Prod.fst) =
        (NameSet.ofList (named.map Prod.fst)).insert x := by
      rw [List.map_append, NameSet.ofList, List.foldl_append]
      rfl
    rw [List.foldl_append, List.foldl_cons, List.foldl_nil, ih, hinsert]
    simp only [referencesNamed_append]
    exact Group.put_map (NameSet.sorted_keys _) fun h =>
      referencesNamed_eq_nil fun hmem => h (NameSet.mem_iff_key_mem.mp hmem)

/-- Grouping comes to the same as putting the references one after another. -/
theorem groups_eq_foldl_put {refs : List Reference} {found : List Group} (h : groups refs = .ok found) :
    ∃ named, refs.mapM Reference.withName = .ok named ∧
      found = named.foldl (fun found p => Group.put p.1 p.2 found) [] := by
  unfold groups at h
  cases hnamed : refs.mapM Reference.withName with
  | error fault => simp [hnamed, bind, Except.bind] at h
  | ok named =>
    simp only [hnamed, bind, Except.bind] at h
    split at h
    · exact ⟨named, rfl, (Except.ok.inj h).symm.trans (foldl_put named).symm⟩
    · cases h

/-- All groups together have the references that were given, each as often as it was. -/
theorem perm_of_groups {refs : List Reference} {found : List Group} (h : groups refs = .ok found) :
    (found.flatMap Group.references).Perm refs := by
  obtain ⟨named, hnamed, rfl⟩ := groups_eq_foldl_put h
  rw [← map_snd_of_mapM_withName hnamed]
  clear h hnamed
  induction named using List.reverseRecOn with
  | nil => exact .refl _
  | append_singleton named p ih =>
    rw [List.foldl_append, List.map_append]
    exact (Group.perm_put p.1 p.2 _).trans (ih.append_right [p.2])

/-- A group is never empty. -/
theorem references_ne_nil_of_groups {refs : List Reference} {found : List Group} (h : groups refs = .ok found)
    {g : Group} (hg : g ∈ found) : g.references ≠ [] := by
  obtain ⟨names, rfl, hnames⟩ := exists_names_of_groups h
  obtain ⟨x, hx, rfl⟩ := List.mem_map.mp hg
  obtain ⟨r, hr, hnamed⟩ := (hnames x).mp (NameSet.mem_def.mpr ⟨x, hx, rfl⟩)
  exact List.ne_nil_of_mem (List.mem_filter.mpr ⟨hr, hnamed⟩)

/-! ### Names that are texts -/

/-- The references of a text, in order. -/
def referencesOfText (refs : List Reference) (t : Text) : List Reference :=
  refs.filter (Reference.isNamed (.text t))

theorem Reference.isNamed_text_iff {t : Text} {r : Reference} :
    r.isNamed (.text t) ↔ r.name = .ok (.text t) := by
  rw [isNamed_iff]
  constructor
  · rintro ⟨own, hown, hkey⟩
    rw [hown, Name.eq_text_of_key hkey]
  · exact fun h => ⟨_, h, rfl⟩

theorem mem_referencesOfText {refs : List Reference} {t : Text} {r : Reference} :
    r ∈ referencesOfText refs t ↔ r ∈ refs ∧ r.name = .ok (.text t) := by
  rw [referencesOfText, List.mem_filter, Reference.isNamed_text_iff]

section

variable {refs : List Reference} (h : ∀ r ∈ refs, ∃ t : Text, r.name = .ok (.text t))
include h

/-- References whose names are texts can be grouped. There is a group for each text that is a name, in the order of
the texts, and it has the references of this name. -/
theorem exists_groups_of_texts :
    ∃ texts : List Text, groups refs = .ok (texts.map fun t => ⟨.text t, referencesOfText refs t⟩) ∧
      (texts.Pairwise fun s t => s.points < t.points) ∧
      ∀ t, t ∈ texts ↔ ∃ r ∈ refs, r.name = .ok (.text t) := by
  obtain ⟨found, hfound⟩ := exists_groups_iff.mpr
    ⟨.text, fun r hr => (h r hr).elim fun t ht => ⟨.text t, ht, rfl⟩⟩
  obtain ⟨names, rfl, hnames⟩ := exists_names_of_groups hfound
  have hmem : ∀ x ∈ names.toList, ∃ r ∈ refs, ∃ t : Text, r.name = .ok (.text t) ∧ Name.text t = x := by
    intro x hx
    obtain ⟨r, hr, hnamed⟩ := (hnames x).mp (NameSet.mem_def.mpr ⟨x, hx, rfl⟩)
    obtain ⟨own, hown, hkey⟩ := Reference.isNamed_iff.mp hnamed
    obtain ⟨t, ht⟩ := h r hr
    obtain rfl : own = .text t := Except.ok.inj (hown.symm.trans ht)
    exact ⟨r, hr, t, ht, (Name.eq_text_of_key hkey.symm).symm⟩
  have hrange : names.toList ∈ Set.range (List.map Name.text) := by
    rw [Set.range_list_map]
    exact fun x hx => (hmem x hx).elim fun _ hr => hr.2.imp fun _ ht => ht.2
  obtain ⟨texts, htexts⟩ := hrange
  have hsorted := names.sorted
  rw [← htexts] at hmem hfound hsorted
  rw [List.map_map] at hfound
  refine ⟨texts, hfound, ?_, fun t => ⟨fun ht => ?_, ?_⟩⟩
  · rw [List.pairwise_map] at hsorted
    refine hsorted.imp fun {s t} hlt => ?_
    have hprecedes : (Name.text s).precedes (.text t) := Name.precedes_iff.mpr hlt
    exact of_decide_eq_true hprecedes
  · obtain ⟨r, hr, s, hname, hs⟩ := hmem _ (List.mem_map_of_mem ht)
    exact ⟨r, hr, hname.trans (congrArg Except.ok hs)⟩
  · rintro ⟨r, hr, hname⟩
    obtain ⟨x, hx, hkey⟩ := NameSet.mem_def.mp
      ((hnames (.text t)).mpr ⟨r, hr, Reference.isNamed_text_iff.mpr hname⟩)
    rw [← htexts, Name.eq_text_of_key hkey] at hx
    obtain ⟨s, hs, heq⟩ := List.mem_map.mp hx
    exact Name.text.inj heq ▸ hs

end

/-- Among groups of texts, only a text finds one, and it finds its own. -/
theorem findGroup?_eq_some_iff {texts : List Text} {of : Text → List Reference} {v : Value} {g : Group} :
    findGroup? (texts.map fun t => ⟨.text t, of t⟩) v = some g ↔
      ∃ t ∈ texts, v = .text t ∧ g = ⟨.text t, of t⟩ := by
  have hfound : ∀ {x : Name} {g : Group},
      (texts.map fun t => (⟨.text t, of t⟩ : Group)).find? (fun g => g.name.same x) = some g →
        ∃ t ∈ texts, x = .text t ∧ g = ⟨.text t, of t⟩ := by
    intro x g hg
    obtain ⟨t, ht, rfl⟩ := List.mem_map.mp (List.mem_of_find?_eq_some hg)
    have hsame := List.find?_some hg
    exact ⟨t, ht, Name.eq_text_of_key (Name.same_iff.mp hsame).symm, rfl⟩
  unfold findGroup?
  constructor
  · intro h
    obtain ⟨x, hx, hg⟩ := Option.bind_eq_some_iff.mp h
    obtain ⟨t, ht, rfl, rfl⟩ := hfound hg
    exact ⟨t, ht, Value.name?_eq_some_iff.mp hx, rfl⟩
  · rintro ⟨t, ht, rfl, rfl⟩
    have hsome : ((texts.map fun t => (⟨.text t, of t⟩ : Group)).find? fun g => g.name.same (.text t)).isSome := by
      rw [List.find?_isSome]
      exact ⟨⟨.text t, of t⟩, List.mem_map_of_mem ht, Name.same_iff.mpr rfl⟩
    obtain ⟨g, hg⟩ := Option.isSome_iff_exists.mp hsome
    obtain ⟨s, -, hs, rfl⟩ := hfound hg
    obtain rfl := Name.text.inj hs
    exact hg

/-! ### Other orders of the references -/

/-- The same references in another order, in which those of each name keep theirs. -/
def KeepsOrder (refs refs' : List Reference) : Prop :=
  refs'.Perm refs ∧ ∀ t : Text, referencesOfText refs' t = referencesOfText refs t

/-- How references of different names are mixed makes no difference. -/
theorem groups_of_keepsOrder {refs refs' : List Reference} (h : ∀ r ∈ refs, ∃ t : Text, r.name = .ok (.text t))
    (hkeeps : KeepsOrder refs refs') : groups refs' = groups refs := by
  obtain ⟨hperm, hsame⟩ := hkeeps
  obtain ⟨texts, hgroups, hsorted, hmem⟩ := exists_groups_of_texts h
  obtain ⟨texts', hgroups', hsorted', hmem'⟩ := exists_groups_of_texts fun r hr => h r (hperm.mem_iff.mp hr)
  have htexts : texts' = texts := by
    have : Std.Irrefl fun s t : Text => s.points < t.points := ⟨fun t => List.lt_irrefl t.points⟩
    have : Std.Antisymm fun s t : Text => s.points < t.points :=
      ⟨fun s t hst hts => absurd (List.lt_trans hst hts) (List.lt_irrefl s.points)⟩
    refine hsorted'.eq_of_mem_iff hsorted fun t => ?_
    rw [hmem, hmem']
    exact exists_congr fun r => and_congr_left fun _ => hperm.mem_iff
  rw [hgroups, hgroups', htexts]
  simp only [hsame]

/-- The references of a name that are picked from those of a name are all of them, or none. -/
theorem referencesOfText_referencesOfText (refs : List Reference) (s t : Text) :
    referencesOfText (referencesOfText refs s) t = if s = t then referencesOfText refs t else [] := by
  split
  · rename_i h
    subst h
    exact (List.filter_filter ..).trans (List.filter_congr fun r _ => Bool.and_self _)
  · rename_i h
    rw [referencesOfText, List.filter_eq_nil_iff]
    intro r hr hnamed
    have hs := (mem_referencesOfText.mp hr).2
    have ht := Reference.isNamed_text_iff.mp hnamed
    exact h (Name.text.inj (Except.ok.inj (hs.symm.trans ht)))

theorem referencesOfText_flatMap (refs : List Reference) (t : Text) :
    ∀ {texts : List Text}, texts.Nodup → referencesOfText (texts.flatMap (referencesOfText refs)) t =
      if t ∈ texts then referencesOfText refs t else []
  | [], _ => by simp [referencesOfText]
  | s :: rest, hnodup => by
    obtain ⟨hs, hrest⟩ := List.nodup_cons.mp hnodup
    rw [List.flatMap_cons, referencesOfText, List.filter_append, ← referencesOfText, ← referencesOfText,
      referencesOfText_referencesOfText, referencesOfText_flatMap refs t hrest]
    by_cases heq : s = t
    · subst heq
      simp [hs]
    · simp [heq, Ne.symm heq]

/-- References that are taken group by group keep the order of each name. -/
theorem keepsOrder_flatMap {refs : List Reference} {texts : List Text}
    (hgroups : groups refs = .ok (texts.map fun t => ⟨.text t, referencesOfText refs t⟩))
    (hsorted : texts.Pairwise fun s t => s.points < t.points)
    (hmem : ∀ t, t ∈ texts ↔ ∃ r ∈ refs, r.name = .ok (.text t)) :
    KeepsOrder refs (texts.flatMap (referencesOfText refs)) := by
  refine ⟨?_, fun t => ?_⟩
  · have hperm := perm_of_groups hgroups
    rwa [List.flatMap_map] at hperm
  · have hnodup : texts.Nodup := hsorted.imp fun {s t} hlt (heq : s = t) => by
      rw [heq] at hlt
      exact List.lt_irrefl _ hlt
    rw [referencesOfText_flatMap refs t hnodup]
    split
    · rfl
    · rename_i ht
      symm
      rw [List.eq_nil_iff_forall_not_mem]
      exact fun r hr => ht ((hmem t).mpr ⟨r, mem_referencesOfText.mp hr⟩)

/-- **Grouping is a stable partition, sorted by name.** References whose names are texts are put into one group for
each name, the names in strictly ascending order of their code points. A group has exactly the references of its
name, in order; so it is not empty, and the groups together have every reference as often as it was given. A value
finds a group only if it is one of the names, and then the group of this name. The groups are the same for the
references taken group by group, and for any other order in which the references of each name keep theirs. -/
theorem stable_partition {refs : List Reference} (h : ∀ r ∈ refs, ∃ t : Text, r.name = .ok (.text t)) :
    ∃ (texts : List Text) (found : List Group), groups refs = .ok found ∧
      (found = texts.map fun t => ⟨.text t, referencesOfText refs t⟩) ∧
      (texts.Pairwise fun s t => s.points < t.points) ∧
      (∀ t, t ∈ texts ↔ ∃ r ∈ refs, r.name = .ok (.text t)) ∧
      (∀ g ∈ found, g.references ≠ []) ∧
      (found.flatMap Group.references).Perm refs ∧
      (∀ f : Findings, f.groups = found → ∀ (v : Value) (g : Group), f.get? v = some g ↔
        ∃ t : Text, v = .text t ∧ (∃ r ∈ refs, r.name = .ok (.text t)) ∧
          g = ⟨.text t, referencesOfText refs t⟩) ∧
      groups (found.flatMap Group.references) = .ok found ∧
      ∀ refs', KeepsOrder refs refs' → groups refs' = .ok found := by
  obtain ⟨texts, hgroups, hsorted, hmem⟩ := exists_groups_of_texts h
  refine ⟨texts, _, hgroups, rfl, hsorted, hmem, fun g => references_ne_nil_of_groups hgroups,
    perm_of_groups hgroups, fun f hf v g => ?_, ?_, fun refs' hkeeps => ?_⟩
  · rw [Findings.get?, hf, findGroup?_eq_some_iff]
    refine exists_congr fun t => ?_
    rw [hmem, and_left_comm]
  · rw [List.flatMap_map, groups_of_keepsOrder h (keepsOrder_flatMap hgroups hsorted hmem), hgroups]
  · rw [groups_of_keepsOrder h hkeeps, hgroups]

/-- The references `b`, a `this`, `a`, `b` and an identifier that is called `this`. -/
def mixedReferences : List Reference :=
  [⟨⟨1, [("type", .text "Identifier"), ("name", .text "b")]⟩, []⟩,
   ⟨⟨2, [("type", .text "ThisExpression")]⟩, []⟩,
   ⟨⟨3, [("type", .text "Identifier"), ("name", .text "a")]⟩, []⟩,
   ⟨⟨4, [("type", .text "Identifier"), ("name", .text "b")]⟩, []⟩,
   ⟨⟨5, [("type", .text "Identifier"), ("name", .text "this")]⟩, []⟩]

theorem stable_partition_mixedReferences :
    (∀ r ∈ mixedReferences, ∃ t : Text, r.name = .ok (.text t)) ∧
      ∃ found, groups mixedReferences = .ok found ∧
        found.map (fun g => (g.name, g.references.map fun r => r.node.label)) =
          [(.text "a", [3]), (.text "b", [1, 4]), (.text "this", [2, 5])] ∧
        (found.flatMap Group.references).Perm mixedReferences ∧
        groups (found.flatMap Group.references) = .ok found := by
  have h : ∀ r ∈ mixedReferences, ∃ t : Text, r.name = .ok (.text t) := by
    simp only [mixedReferences, List.forall_mem_cons]
    exact ⟨⟨_, rfl⟩, ⟨_, rfl⟩, ⟨_, rfl⟩, ⟨_, rfl⟩, ⟨_, rfl⟩, fun r hr => absurd hr List.not_mem_nil⟩
  obtain ⟨texts, found, hgroups, -, -, -, -, hperm, -, hagain, -⟩ := stable_partition h
  have hlabels : (groups mixedReferences).toOption.map
      (List.map fun g => (g.name, g.references.map fun r => r.node.label)) =
      some [(.text "a", [3]), (.text "b", [1, 4]), (.text "this", [2, 5])] := by decide +kernel
  rw [hgroups] at hlabels
  exact ⟨h, found, hgroups, Option.some.inj hlabels, hperm, hagain⟩

end FreeNames
