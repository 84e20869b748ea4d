import FreeNames.Tree.Node

/-!
# Kinds and their names

The kind of a node is found by the text in its `type`. Texts that are strings are known by these
strings, and the names of kinds by the kinds, so a node is of a kind if and only if its `type` is the
name of the kind (`Node.kind?_eq_some_iff`).
-/

namespace FreeNames

theorem CodePoint.ofChar_of_char? {p : CodePoint} {c : Char} (h : p.char? = some c) : ofChar c = p := by
  unfold char? at h
  split at h
  · cases h
  · rename_i hhalf
    obtain rfl := Option.some.inj h
    have hp := p.isLt
    have hvalid : p.val.isValidChar := by
      simp only [isHalf, Bool.and_eq_true, decide_eq_true_eq] at hhalf
      unfold Nat.isValidChar
      omega
    apply Fin.ext
    show (Char.ofNat p.val).toNat = p.val
    rw [Char.ofNat, dif_pos hvalid]
    rfl

theorem Text.ofString_of_string? {t : Text} {s : String} (h : t.string? = some s) : ofString s = t := by
  have hchars : ∀ {points : List CodePoint} {cs : List Char}, points.mapM CodePoint.char? = some cs →
      cs.map CodePoint.ofChar = points := by
    intro points
    induction points with
    | nil =>
      intro cs hcs
      cases hcs
      rfl
    | cons p rest ih =>
      intro cs hcs
      simp only [List.mapM_cons, bind, Option.bind_eq_some_iff, pure, Option.some.injEq] at hcs
      obtain ⟨c, hc, others, hothers, rfl⟩ := hcs
      rw [List.map_cons, CodePoint.ofChar_of_char? hc, ih hothers]
  unfold string? at h
  obtain ⟨cs, hcs, rfl⟩ := Option.map_eq_some_iff.mp h
  obtain ⟨points⟩ := t
  simp only [ofString, ofChars, String.toList_ofList, hchars hcs]

theorem Kind.name_of_ofName? {s : String} {k : Kind} (h : ofName? s = some k) : k.name = s := by
  unfold ofName? at h
  split at h
  case h_68 => cases h
  all_goals exact congrArg name (Option.some.inj h).symm

namespace Node

/-- A node is of a kind if its `type` is the name of the kind. -/
theorem kind?_eq_some_iff {n : Node} {k : Kind} : n.kind? = some k ↔ n.type = .text k.name := by
  constructor
  · intro h
    unfold kind? at h
    split at h
    · rename_i t ht
      obtain ⟨s, hs, hk⟩ := Option.bind_eq_some_iff.mp h
      rw [ht, Kind.name_of_ofName? hk, Text.ofString_of_string? hs]
    · cases h
  · intro h
    simp [kind?, h, Kind.ofName?_name]

theorem kind?_of_enteredKind {n : Node} {k : Kind} (h : n.enteredKind = .ok k) : n.kind? = some k := by
  unfold enteredKind at h
  split at h
  · cases h
  · rename_i hk
    obtain rfl := Except.ok.inj h
    exact hk
  · cases h

/-- A node can be entered if it is of a kind. -/
theorem enteredKind_eq_ok_iff {n : Node} {k : Kind} : n.enteredKind = .ok k ↔ n.kind? = some k := by
  refine ⟨kind?_of_enteredKind, fun h => ?_⟩
  have hname : n.type.name? = some (.text k.name) := by rw [kind?_eq_some_iff.mp h]; rfl
  simp only [enteredKind, hname, h]

end Node

end FreeNames
