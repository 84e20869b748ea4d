/-!
# Text

A text is a list of code points. Most code points are characters. The others are the halves that a
pair of escapes spells a character with; a program can write one alone, or two that nobody joins, so
a text keeps them as they are. Texts are compared code point by code point.

String literals stand for texts wherever a text is expected.
-/

namespace FreeNames

/-- A code point: the number of a character, or of half a character. -/
abbrev CodePoint := Fin 0x110000

namespace CodePoint

/-- The code point of a character. -/
def ofChar (c : Char) : CodePoint :=
  ⟨c.toNat, by
    have h : c.toNat < 0xd800 ∨ 0xdfff < c.toNat ∧ c.toNat < 0x110000 := c.valid
    omega⟩

/-- The code point with a number; a number beyond the last one stands for that. -/
def ofNat (n : Nat) : CodePoint := ⟨min n 0x10ffff, by omega⟩

/-- Whether a code point is half a character. -/
def isHalf (p : CodePoint) : Bool := 0xd800 ≤ p.val && p.val < 0xe000

/-- Whether a code point is the first half of a character. -/
def isHighHalf (p : CodePoint) : Bool := 0xd800 ≤ p.val && p.val < 0xdc00

/-- Whether a code point is the second half of a character. -/
def isLowHalf (p : CodePoint) : Bool := 0xdc00 ≤ p.val && p.val < 0xe000

/-- The character that a code point is, if it is one. -/
def char? (p : CodePoint) : Option Char := if p.isHalf then none else some (Char.ofNat p.val)

/-- The character that shows a code point. -/
def shown (p : CodePoint) : Char := p.char?.getD '�'

theorem ofChar_injective {a b : Char} (h : ofChar a = ofChar b) : a = b := by
  have h := congrArg Fin.val h
  exact Char.ext (UInt32.toNat_inj.mp h)

@[simp] theorem char?_ofChar (c : Char) : (ofChar c).char? = some c := by
  have h : c.toNat < 0xd800 ∨ 0xdfff < c.toNat ∧ c.toNat < 0x110000 := c.valid
  have hh : (ofChar c).isHalf = false := by
    show (decide (0xd800 ≤ c.toNat) && decide (c.toNat < 0xe000)) = false
    rw [Bool.and_eq_false_iff, decide_eq_false_iff_not, decide_eq_false_iff_not]
    omega
  rw [char?, hh]
  exact congrArg some (Char.ofNat_toNat c)

end CodePoint

/-- A text. -/
structure Text where
  points : List CodePoint
  deriving DecidableEq, Repr, Inhabited

/-- The opening brace as a string. -/
@[match_pattern] abbrev leftBrace : String := "\x7b"

/-- The closing brace as a string. -/
@[match_pattern] abbrev rightBrace : String := "\x7d"

namespace Text

/-- The text of a list of characters. -/
def ofChars (cs : List Char) : Text := ⟨cs.map CodePoint.ofChar⟩

/-- The text of a string. -/
def ofString (s : String) : Text := ofChars s.toList

instance : Coe String Text := ⟨ofString⟩

/-- One text after another. -/
def append (a b : Text) : Text := ⟨a.points ++ b.points⟩

instance : Append Text := ⟨append⟩

/-- Whether a text has no code point. -/
def isEmpty (t : Text) : Bool := t.points.isEmpty

/-- The string that a text is, if all its code points are characters. -/
def string? (t : Text) : Option String := (t.points.mapM CodePoint.char?).map String.ofList

/-- The string that shows a text. -/
def shown (t : Text) : String := String.ofList (t.points.map CodePoint.shown)

/-- Texts one after another. -/
def concat (parts : List Text) : Text := ⟨parts.flatMap points⟩

/-- Texts one after another, with a separator between them. -/
def join (separator : Text) : List Text → Text
  | [] => ⟨[]⟩
  | [part] => part
  | part :: rest => part ++ separator ++ join separator rest

/-- Whether a text is one of some words. -/
def isOneOf (t : Text) (words : List String) : Bool := words.any fun word => t == ofString word

/-- Whether a text stands somewhere in a list of code points. -/
def standsIn (t : Text) : List CodePoint → Bool
  | [] => t.isEmpty
  | p :: rest => t.points.isPrefixOf (p :: rest) || t.standsIn rest

/-! ### Laws -/

theorem append_assoc (a b c : Text) : a ++ b ++ c = a ++ (b ++ c) :=
  congrArg mk (List.append_assoc ..)

@[simp] theorem points_append (a b : Text) : (a ++ b).points = a.points ++ b.points := rfl

@[simp] theorem points_ofChars (cs : List Char) : (ofChars cs).points = cs.map CodePoint.ofChar := rfl

theorem ofChars_injective {a b : List Char} (h : ofChars a = ofChars b) : a = b := by
  have h : a.map CodePoint.ofChar = b.map CodePoint.ofChar := congrArg points h
  induction a generalizing b with
  | nil => cases b <;> simp_all
  | cons c a ih =>
    cases b with
    | nil => simp at h
    | cons d b =>
      simp only [List.map_cons, List.cons.injEq] at h
      rw [CodePoint.ofChar_injective h.1, ih (by simp [ofChars, h.2]) h.2]

theorem ofString_injective {a b : String} (h : ofString a = ofString b) : a = b :=
  String.ext (ofChars_injective h)

@[simp] theorem string?_ofString (s : String) : (ofString s).string? = some s := by
  have h : ∀ cs : List Char, (cs.map CodePoint.ofChar).mapM CodePoint.char? = some cs := by
    intro cs
    induction cs with
    | nil => rfl
    | cons c cs ih => simp [ih]
  simp [string?, ofString, h]

end Text

end FreeNames
