import FreeNames.Proofs.TextFormat
import FreeNames.Text.Character

/-!
# JSON texts

The grammar of JSON: which texts there are, and what each of them stands for. White space may stand before and behind
every mark and every value; here a mark or a value takes the white space behind it, and a whole text the white space
at its front.

The next code point always tells how to go on. So a text stands for one thing at most, and the reader accepts the
texts of the grammar and no others (`read_eq_some_iff`).
-/

namespace FreeNames.Json

open Format

/-- What a JSON text stands for. A number with neither fraction nor exponent is whole; any other is given by its sign,
its digits and the power of ten they are multiplied with. An object has its fields in the order of the text. -/
inductive Data where
  | null
  | bool (b : Bool)
  | int (n : Int)
  | decimal (negative : Bool) (digits : Nat) (exponent : Int)
  | text (t : Text)
  | array (items : List Data)
  | object (fields : List (Text × Data))

/-! ### Characters -/

/-- White space. -/
def blanks : List Char := [' ', '\t', '\n', '\r']

/-- The digits. -/
def digits : List Char := "0123456789".toList

/-- The characters inside a number. -/
def numeral : List Char := '.' :: 'e' :: 'E' :: digits

/-- The characters that a value can start with. -/
def openings : List Char := '"' :: '[' :: '{' :: 'n' :: 't' :: 'f' :: '-' :: digits

variable {α : Type} {first more : CodePoint → Prop}

/-- A character that is only a mark. -/
def mark (c : Char) : Format false (Among [c]) (Among []) Unit := (one (Among [c])).map fun _ => ()

/-- White space, or nothing. -/
def space : Format true (Among blanks) (Among blanks) (List CodePoint) :=
  ((one (Among blanks)).many (by decide)).widen .refl (by decide)

/-- A format with white space behind. -/
def lexeme (F : Format false first more α) (h : Apart (Among blanks) more) :
    Format false first (Either (Among blanks) more) α :=
  (F.andThen (space.widen .refl within_left) h fun _ => within_right).map Prod.fst

/-! ### Numbers -/

/-- Digits in decimal. -/
def natural (ds : List CodePoint) : Nat := Text.digitsValue 10 (ds.map CodePoint.shown)

/-- A number with a sign. -/
def signed (negative : Bool) (n : Nat) : Int := if negative then -n else n

/-- Any number of digits, at least one. -/
def someDigits : Format false (Among digits) (Among digits) (List CodePoint) :=
  (((one (Among digits)).andThen ((one (Among digits)).many (by decide)) (by decide) (by decide)).map
    fun x => x.1 :: x.2).widen .refl (by decide)

/-- Digits without needless zeros in front. -/
def whole : Format false (Among digits) (Among digits) (List CodePoint) :=
  let zero : Format false (Among ['0']) (Among digits) (List CodePoint) :=
    ((one (Among ['0'])).map fun p => [p]).widen .refl (by decide)
  let positive : Format false (Among digits.tail) (Among digits) (List CodePoint) :=
    (((one (Among digits.tail)).andThen ((one (Among digits)).many (by decide)) (by decide) (by decide)).map
      fun x => x.1 :: x.2).widen .refl (by decide)
  (zero.orElse positive (by decide)).widen (by decide) .refl

/-- The digits behind a point. -/
def fraction : Format false (Among ['.']) (Among digits) (List CodePoint) :=
  ((mark '.').andThen someDigits (by decide) (by decide)).map Prod.snd

/-- A power of ten. -/
def exponent : Format false (Among ['e', 'E']) (Among digits) Int :=
  ((one (Among ['e', 'E'])).andThen ((one (Among ['+', '-'])).option.seq someDigits (by decide) (by decide))
    (by decide) (by decide)).map fun x => signed (x.2.1 = some (CodePoint.ofChar '-')) (natural x.2.2)

/-- The number that is written with a sign, digits, digits behind a point, and a power of ten. -/
def Data.number (negative : Bool) (whole : List CodePoint) : Option (List CodePoint) → Option Int → Data
  | none, none => .int (signed negative (natural whole))
  | fraction, exponent =>
    .decimal negative (natural (whole ++ fraction.getD [])) (exponent.getD 0 - (fraction.getD []).length)

/-- A number. -/
def numeric : Format false (Among ('-' :: digits)) (Among numeral) Data :=
  let exponent : Format true (Among ['e', 'E']) (Among numeral) (Option Int) := exponent.option.widen .refl (by decide)
  (((mark '-').option.seq
    (whole.andThen (fraction.option.seq exponent (by decide) (by decide)) (by decide) (by decide))
    (by decide) (by decide)).map fun x => .number x.1.isSome x.2.1 x.2.2.1 x.2.2.2).widen (by decide) .refl

/-! ### Strings -/

/-- A part of a string: a code point, or a unit that is spelled by its code. -/
inductive Piece where
  | point (p : CodePoint)
  | unit (p : CodePoint)
  deriving DecidableEq

/-- The code points of a string. Two halves of a character side by side are joined, if both are spelled by their
codes. -/
def Piece.join : List Piece → List CodePoint
  | [] => []
  | .point p :: rest => p :: join rest
  | [.unit p] => [p]
  | .unit p :: .point q :: rest => p :: q :: join rest
  | .unit p :: .unit q :: rest =>
    if p.isHighHalf && q.isLowHalf then .ofNat (0x10000 + (p.val - 0xd800) * 0x400 + (q.val - 0xdc00)) :: join rest
    else p :: join (.unit q :: rest)

/-- A code point that stands for itself in a string. -/
def Unescaped (p : CodePoint) : Prop := 0x20 ≤ p.val ∧ ¬ Among ['"', '\\'] p

instance : DecidablePred Unescaped := fun p => inferInstanceAs (Decidable (0x20 ≤ p.val ∧ ¬ Among ['"', '\\'] p))

/-- What a letter behind a backslash stands for. -/
def shortEscape (p : CodePoint) : CodePoint :=
  match p.shown with
  | 'b' => CodePoint.ofChar '\x08'
  | 'f' => CodePoint.ofChar '\x0c'
  | 'n' => CodePoint.ofChar '\n'
  | 'r' => CodePoint.ofChar '\r'
  | 't' => CodePoint.ofChar '\t'
  | _ => p

/-- A code in hexadecimal. -/
def unit : Format false (Among ['u']) (Among []) Piece :=
  let digit : Format false (Among "0123456789abcdefABCDEF".toList) (Among []) CodePoint := one _
  ((mark 'u').andThen
    (digit.andThen (digit.andThen (digit.andThen digit (by decide) (by decide)) (by decide) (by decide)) (by decide)
      (by decide)) (by decide) (by decide)).map fun x =>
        .unit (.ofNat (Text.digitsValue 16 ([x.2.1, x.2.2.1, x.2.2.2.1, x.2.2.2.2].map CodePoint.shown)))

/-- What stands behind a backslash, and the backslash. -/
def escaped : Format false (Among ['\\']) (Among []) Piece :=
  ((mark '\\').andThen
    (((one (Among "\"\\/bfnrt".toList)).map fun p => .point (shortEscape p)).orElse unit (by decide))
    (by decide) (by decide)).map Prod.snd

/-- A part of a string. -/
def piece : Format false (Outside (Among ['"'])) (Among []) Piece :=
  (escaped.orElse ((one Unescaped).map .point) (by decide)).widen
    (Within.either (by decide) fun _ hp hquote => hp.2 (List.mem_append_left [_] hquote)) .refl

/-- A string. -/
def quoted : Format false (Among ['"']) (Among []) Text :=
  have hany : Apart (Among []) (Outside (Among ['"'])) := by decide
  have hall : Apart (Among []) (Either (Outside (Among ['"'])) (When true (Among ['"']))) := by decide
  ((mark '"').andThen ((piece.many hany.symm).seq (mark '"') (by decide) nofun) hall.symm (by decide)).map
    fun x => ⟨Piece.join x.2.1⟩

/-! ### Values -/

/-- The formats that can be items: with white space behind, and with the characters in front that values have. -/
abbrev Item (α : Type) : Type := Format false (Among openings) (Among (blanks ++ numeral)) α

/-- An item behind a comma. -/
def further (F : Item α) : Format false (Among [',']) (Among (blanks ++ numeral)) α :=
  ((lexeme (mark ',') (by decide)).andThen F (by decide) (by decide)).map Prod.snd

/-- Items with commas between them. -/
def separated (F : Item α) : Format false (Among openings) (Among (',' :: (blanks ++ numeral))) (List α) :=
  ((F.andThen ((further F).many (by decide)) (by decide) (by decide)).map fun x => x.1 :: x.2).widen .refl (by decide)

/-- A mark that is not taken for the start of an item, nor for more behind one. -/
abbrev Closes (c : Char) : Prop := Apart (Among [c]) (Either (Among openings) (Among (',' :: (blanks ++ numeral))))

/-- Items between an opening and a closing mark. -/
def enclosed (opening closing : Char) (h : Closes closing) (F : Item α) :
    Format false (Among [opening]) (Among []) (List α) :=
  have hblank : Within (Either (Among blanks) (Among []))
      (Either (Among openings) (Among (',' :: (blanks ++ numeral)))) := by decide
  have hclosing : Apart (When true (Among [closing])) (Either (Among blanks) (Among [])) :=
    fun p hp hp' => h p hp.2 (hblank p hp')
  ((lexeme (mark opening) (by decide)).andThen ((separated F).option.seq (mark closing) h nofun)
    (Within.either (by decide) hclosing) nofun).map fun x => x.2.1.getD []

/-- A value with white space behind. -/
def element (F : Format false (Among openings) (Among numeral) Data) : Item Data :=
  (lexeme F (by decide)).widen .refl (by decide)

/-- A field of an object. -/
def field (F : Item Data) : Item (Text × Data) :=
  (((lexeme quoted (by decide)).andThen ((lexeme (mark ':') (by decide)).andThen F (by decide) (by decide))
    (by decide) (by decide)).map fun x => (x.1, x.2.2)).widen (by decide) .refl

/-- A word that stands for some data. -/
def named (w : String) (hw : w.toList ≠ []) (d : Data) : Format false (Among (w.toList.take 1)) (Among numeral) Data :=
  ((word w hw).map fun _ => d).widen .refl (by decide)

/-- A value that holds no others. -/
def scalar : Format false (Among (openings.filter fun c => c ≠ '[' ∧ c ≠ '{')) (Among numeral) Data :=
  ((named "null" (by decide) .null).orElse
    ((named "true" (by decide) (.bool true)).orElse
      ((named "false" (by decide) (.bool false)).orElse
        (numeric.orElse ((quoted.map .text).widen .refl (by decide)) (by decide))
        (by decide))
      (by decide))
    (by decide)).widen (by decide) .refl

/-- A value in which values stand at most so deep inside one another. -/
def value : Nat → Format false (Among openings) (Among numeral) Data
  | 0 => nothing
  | n + 1 =>
    let array := (enclosed '[' ']' (by decide) (element (value n))).map .array
    let object := (enclosed '{' '}' (by decide) (field (element (value n)))).map .object
    (scalar.orElse ((array.orElse object (by decide)).widen .refl (by decide)) (by decide)).widen (by decide) .refl

/-- A whole text. -/
def document (n : Nat) : Format false (Among (blanks ++ openings)) (Among (blanks ++ numeral)) Data :=
  ((space.seq (element (value n)) (by decide) (by decide)).map Prod.snd).widen (by decide) .refl

/-- The text is a JSON text, and stands for the data. -/
def Spells (t : Text) (d : Data) : Prop := ∃ n, (document n).Spells t.points d

/-- The data that a JSON text stands for. -/
def read (t : Text) : Option Data :=
  match (document t.points.length).take t.points with
  | some (d, []) => some d
  | _ => none

/-! ### How deep values can stand

A value inside another is shorter by the opening mark at least. So no text needs a depth beyond its length. -/

variable {k n : Nat}

theorem below_lexeme {F F' : Format false first more α} (h : Apart (Among blanks) more) (hF : Below k F F') :
    Below k (lexeme F h) (lexeme F' h) :=
  (hF.andThen .refl h _).map _

theorem below_separated {F F' : Item α} (hF : Below k F F') : Below k (separated F) (separated F') := by
  have hfurther : Below k (further F) (further F') := (Below.refl.andThen hF _ _).map _
  exact ((hF.andThen (hfurther.many (by decide)) (by decide) (by decide)).map _).widen .refl (by decide)

theorem below_enclosed (opening closing : Char) (h : Closes closing) {F F' : Item α} (hF : Below k F F') :
    Below (k + 1) (enclosed opening closing h F) (enclosed opening closing h F') :=
  (((below_separated hF).option.seq .refl h nofun).behind _ _).map _

theorem below_field {F F' : Item Data} (hF : Below k F F') : Below k (field F) (field F') := by
  have hvalue := (Below.refl (F := lexeme (mark ':') (by decide))).andThen hF (by decide) (by decide)
  exact ((Below.refl.andThen hvalue (by decide) (by decide)).map _).widen (by decide) .refl

theorem below_element {F F' : Format false (Among openings) (Among numeral) Data} (hF : Below k F F') :
    Below k (element F) (element F') :=
  below_lexeme (by decide) hF

/-- A text of at most `k` code points needs no depth beyond `k`. -/
theorem below_value : ∀ (k n : Nat), Below k (value n) (value k)
  | _, 0 => fun _ _ _ h => h.elim
  | 0, n + 1 => fun _ _ hk h => absurd ((value (n + 1)).starts h).length_pos (by omega)
  | k + 1, n + 1 => by
    have hitem := below_element (below_value k n)
    have harray := (below_enclosed '[' ']' (by decide) hitem).map Data.array
    have hobject := (below_enclosed '{' '}' (by decide) (below_field hitem)).map Data.object
    rintro s d hk (h | h | h)
    · exact .inl h
    · exact .inr (.inl (harray s d hk h))
    · exact .inr (.inr (hobject s d hk h))

/-- The reader accepts the JSON texts and no others, and finds what they stand for. -/
theorem read_eq_some_iff {t : Text} {d : Data} : read t = some d ↔ Spells t d := by
  constructor
  · intro h
    rw [read] at h
    split at h
    · rename_i d' htake
      obtain ⟨s, hs, hpoints⟩ := (document t.points.length).sound htake
      rw [List.append_nil] at hpoints
      rw [← hpoints, Option.some.inj h] at hs
      exact ⟨_, hs⟩
    · simp at h
  · rintro ⟨n, h⟩
    have hbelow : Below t.points.length (document n) (document t.points.length) :=
      ((Below.refl.seq (below_element (below_value _ n)) (by decide) (by decide)).map _).widen (by decide) .refl
    have hend : ¬ Starts (Among (blanks ++ numeral)) [] := id
    have htake := (document t.points.length).complete (hbelow _ _ (Nat.le_refl _) h) hend
    rw [List.append_nil] at htake
    rw [read, htake]

example : (read " [ ] ").isSome ∧ (read "[1,]").isNone ∧ (read "01").isNone := by decide +kernel

example : quoted.take (Text.ofString "\"\\ud83d\\ude00\"").points = some (.ofString "😀", []) := by
  decide +kernel

end FreeNames.Json
