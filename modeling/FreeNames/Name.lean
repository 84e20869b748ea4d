import FreeNames.Number.Double
import FreeNames.Text

/-!
# Names

A name is nearly always a text. But a tree is data that anyone may have made, and null, booleans and
numbers serve as names as well: they can be declared, looked up and reported. Two names are the same
if they have the same *key*. Numbers of one value are the same name however they are written, and
`true` and `false` are the same names as one and zero.

Keys also give the order of names: null, then numbers by value, then texts by code point.

What is *not* formalized is a NaN as a name. A NaN is not even equal to itself and has no place among the
numbers, so it is outside the data that trees are made of. It has a key only to keep sameness and order
total: all NaNs are one name here, behind the other numbers.
-/

namespace FreeNames

/-- A name. Floating-point numbers are kept as the bits of a double. -/
inductive Name where
  | null
  | bool (b : Bool)
  | int (n : Int)
  | float (bits : UInt64)
  | text (t : Text)
  deriving DecidableEq, Repr, Inhabited

/-- The sorts of names. Names of different sorts have no order of their own. -/
inductive NameSort where
  | null
  | number
  | text
  deriving DecidableEq, Repr

namespace Name

instance : Coe Text Name := ⟨text⟩

/-- The sort of a name. -/
def sort : Name → NameSort
  | null => .null
  | bool _ | int _ | float _ => .number
  | text _ => .text

/-- What a name is known by. A number is counted in the least positive double, which makes all finite
numbers whole; infinite ones stand before and behind them. -/
def key : Name → List Int
  | null => [0]
  | bool b => [1, 0, if b then Double.unitsInOne else 0]
  | int n => [1, 0, n * Double.unitsInOne]
  | float bits =>
    match Double.magnitude bits with
    | .finite m q _ => [1, 0, Double.units (Double.isNegative bits) m q]
    | .infinite => [1, if Double.isNegative bits then -1 else 1, 0]
    | .notANumber => [1, 2, 0]
  | text t => 2 :: t.points.map fun p => (p.val : Int)

/-- Texts are the same name only if they are equal. -/
theorem key_text_inj {s t : Text} : (text s).key = (text t).key ↔ s = t := by
  constructor
  · intro h
    obtain ⟨s⟩ := s
    obtain ⟨t⟩ := t
    have h : s.map (fun p => (p.val : Int)) = t.map (fun p => (p.val : Int)) := by simpa [key] using h
    have hinj : Function.Injective fun p : CodePoint => (p.val : Int) :=
      fun a b hab => Fin.ext (Int.ofNat_inj.mp hab)
    rw [(List.map_inj_right fun a b hab => hinj hab).mp h]
  · rintro rfl; rfl

/-- A name with the key of a text is that text. -/
theorem eq_text_of_key {n : Name} {t : Text} (h : n.key = (text t).key) : n = text t := by
  cases n with
  | text s => rw [key_text_inj.mp h]
  | float bits =>
    simp only [key] at h
    split at h <;> simp at h
  | _ => simp [key] at h

/-! ### Comparing names

Nearly all names are texts, which are compared without going through their keys. -/

/-- Whether two names are the same. -/
def same : Name → Name → Bool
  | text s, text t => s == t
  | a, b => a.key == b.key

/-- Whether one name comes before another. -/
def precedes : Name → Name → Bool
  | text s, text t => decide (s.points < t.points)
  | a, b => decide (a.key < b.key)

theorem same_iff {a b : Name} : a.same b ↔ a.key = b.key := by
  unfold same
  split
  · rw [key_text_inj, beq_iff_eq]
  · exact beq_iff_eq

theorem map_val_lt_map_val_iff : ∀ {s t : List CodePoint},
    s.map (fun p => (p.val : Int)) < t.map (fun p => (p.val : Int)) ↔ s < t
  | [], [] => by simp
  | [], _ :: _ => by simp
  | _ :: _, [] => by simp
  | p :: s, q :: t => by
    have hlt : (p.val : Int) < (q.val : Int) ↔ p < q := Int.ofNat_lt
    have heq : (p.val : Int) = (q.val : Int) ↔ p = q := by rw [Int.ofNat_inj, Fin.ext_iff]
    rw [List.map_cons, List.map_cons, List.cons_lt_cons_iff, List.cons_lt_cons_iff,
      map_val_lt_map_val_iff, hlt, heq]

theorem precedes_iff {a b : Name} : a.precedes b ↔ a.key < b.key := by
  unfold precedes
  split
  · rw [decide_eq_true_iff, key, key, List.cons_lt_cons_iff, map_val_lt_map_val_iff]
    simp
  · exact decide_eq_true_iff

end Name

end FreeNames
