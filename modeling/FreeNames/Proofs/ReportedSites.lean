import FreeNames.Report
import FreeNames.Proofs.Grouping

/-!
# Names and places in reports

A report has an entry for each group, with the name of the group and the positions of its references, all in order
(`Report.ofFindings_eq_ok_iff`). The lines and columns in it are values as the tree has them. In a tree that was read
from a source they are whole numbers; where a node has no location, they are null. A whole number is written in
decimal, so no two of them look alike and none has a separator in it.
-/

namespace FreeNames

/-! ### The report of findings -/

/-- The entry is the one of a group. -/
def Entry.IsOf (e : Entry) (g : Group) : Prop := e.name = g.name ∧ g.positions = .ok e.sites

/-- What holds of the positions of all references holds of all places. -/
theorem Entry.IsOf.forall_sites {e : Entry} {g : Group} {P : Position → Prop} (h : e.IsOf g)
    (hP : ∀ r ∈ g.references, ∃ p, r.position = .ok p ∧ P p) : ∀ p ∈ e.sites, P p := by
  intro p hp
  obtain ⟨r, hr, hposition⟩ := exists_of_mem_right (mapM_eq_ok_iff.mp h.2) hp
  obtain ⟨q, hq, hPq⟩ := hP r hr
  rwa [Except.ok.inj (hposition.symm.trans hq)]

namespace Report

theorem ofFindings_eq_ok_iff {f : Findings} {source : Text} {r : Report} :
    ofFindings f source = .ok r ↔ r.source = source ∧ r.parsingError = f.parsingError ∧
      List.Forall₂ (fun g e => Entry.IsOf e g) f.groups r.entries := by
  have hentry : ∀ (g : Group) (e : Entry),
      (do return Entry.mk g.name (← g.positions) : Except Fault Entry) = .ok e ↔ e.IsOf g := by
    rintro g ⟨name, sites⟩
    unfold Entry.IsOf
    cases g.positions with
    | error fault => simp [bind, Except.bind]
    | ok positions => simp [bind, Except.bind, pure, Except.pure, eq_comm]
  obtain ⟨source', parsingError, entries⟩ := r
  simp only [← hentry, ← mapM_eq_ok_iff]
  unfold ofFindings
  cases f.groups.mapM fun g => (do return Entry.mk g.name (← g.positions) : Except Fault Entry) with
  | error fault => simp [bind, Except.bind]
  | ok found => simp [bind, Except.bind, pure, Except.pure, eq_comm]

/-- Findings can be reported if the positions of all references can be read. -/
theorem exists_ofFindings {f : Findings} (source : Text)
    (h : ∀ g ∈ f.groups, ∀ r ∈ g.references, ∃ p, r.position = .ok p) : ∃ r, ofFindings f source = .ok r := by
  have hentries : ∀ g ∈ f.groups, ∃ e, (do return Entry.mk g.name (← g.positions) : Except Fault Entry) = .ok e := by
    intro g hg
    obtain ⟨sites, hsites⟩ : ∃ sites, g.positions = .ok sites := exists_mapM_eq_ok (h g hg)
    exact ⟨⟨g.name, sites⟩, by rw [hsites]; rfl⟩
  obtain ⟨entries, hentries⟩ := exists_mapM_eq_ok hentries
  exact ⟨⟨source, f.parsingError, entries⟩, by rw [ofFindings, hentries]; rfl⟩

end Report

/-! ### Lines and columns -/

/-- A line or a column that is a whole number, or is not known. -/
def Value.IsCoordinate (v : Value) : Prop := v = .null ∨ ∃ n : Int, v = .int n

/-- A position by whole numbers, as far as it is known. -/
def Position.IsNumbered (p : Position) : Prop := p.line.IsCoordinate ∧ p.column.IsCoordinate

/-- An identifier with fields for its location. -/
def located (label : Nat) (name : String) (start : List (String × Value)) : Reference :=
  ⟨⟨label, [("type", .text "Identifier"), ("name", .text name),
    ("loc", .object (label + 1) [("start", .object (label + 2) start)])]⟩, []⟩

/-! ### Whole numbers in decimal -/

/-- A whole number in decimal. -/
def Text.decimal (n : Int) : Text := .ofString (toString n)

/-- A number is written by the digits of its magnitude, behind a sign if it is negative. -/
theorem toList_toString_int (n : Int) :
    (toString n).toList = (if n < 0 then ['-'] else []) ++ Nat.toDigits 10 n.natAbs := by
  have hrepr : toString n = n.repr := rfl
  rw [hrepr, Int.repr_eq_if]
  split
  · rename_i h
    rw [if_neg (by omega), Nat.repr_eq_ofList_toDigits, String.toList_ofList, List.nil_append,
      show n.toNat = n.natAbs by omega]
  · rename_i h
    have hsign : "-".toList = ['-'] := rfl
    rw [if_pos (by omega), String.toList_append, hsign, Nat.repr_eq_ofList_toDigits, String.toList_ofList,
      show (-n).toNat = n.natAbs by omega]

namespace Text

theorem points_decimal (n : Int) : (decimal n).points = (toString n).toList.map CodePoint.ofChar := rfl

/-- There is nothing but digits and signs in a number. -/
theorem ofChar_not_mem_decimal {c : Char} (hsign : c ≠ '-') (hdigit : c.isDigit = false) (n : Int) :
    CodePoint.ofChar c ∉ (decimal n).points := by
  rw [points_decimal, List.mem_map]
  rintro ⟨d, hd, heq⟩
  obtain rfl := CodePoint.ofChar_injective heq
  rw [toList_toString_int, List.mem_append] at hd
  rcases hd with hd | hd
  · split at hd
    · exact hsign (List.mem_singleton.mp hd)
    · simp at hd
  · rw [Nat.isDigit_of_mem_toDigits (by omega) (by omega) hd] at hdigit
    cases hdigit

theorem decimal_ne_empty (n : Int) : (decimal n).points ≠ [] := by
  rw [points_decimal, toList_toString_int]
  simp [Nat.toDigits_ne_nil]

end Text

end FreeNames
