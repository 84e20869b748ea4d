import FreeNames.Text.IdentifierRanges

/-!
# Classes of characters

The classes that a reader of ECMAScript text tells apart: blanks, line ends, digits, and the
characters of identifiers. A backslash counts as a character of an identifier, since it begins the
escape of one.
-/

namespace FreeNames.Text

/-- White space within a line. -/
def isBlank (c : Char) : Bool :=
  c = ' ' || c = '\t' || c = '\x0b' || c = '\x0c' || c = '\u00a0' ||
    (c.toNat ≥ 0x1680 &&
      (c = '\u1680' || c = '\u180e' || ('\u2000' ≤ c && c ≤ '\u200a') || c = '\u202f' ||
        c = '\u205f' || c = '\u3000' || c = '\ufeff'))

/-- The end of a line. -/
def isLineEnd (c : Char) : Bool := c = '\n' || c = '\r' || c = '\u2028' || c = '\u2029'

/-- A character that may begin an identifier. -/
def isIdentifierStart (c : Char) : Bool :=
  if c.toNat < 0x80 then c.isAlpha || c = '$' || c = '_' || c = '\\'
  else inRanges c.toNat startRanges

/-- A character that may continue an identifier. -/
def isIdentifierPart (c : Char) : Bool :=
  if c.toNat < 0x80 then c.isAlphanum || c = '$' || c = '_' || c = '\\'
  else inRanges c.toNat startRanges || inRanges c.toNat partRanges

/-- A binary digit. -/
def isBinaryDigit (c : Char) : Bool := c = '0' || c = '1'

/-- An octal digit. -/
def isOctalDigit (c : Char) : Bool := '0' ≤ c && c ≤ '7'

/-- A hexadecimal digit. -/
def isHexDigit (c : Char) : Bool :=
  c.isDigit || ('a' ≤ c && c ≤ 'f') || ('A' ≤ c && c ≤ 'F')

/-- The value of a digit, up to hexadecimal ones. -/
def digitValue (c : Char) : Nat :=
  if c.isDigit then c.toNat - '0'.toNat
  else if 'a' ≤ c then c.toNat - 'a'.toNat + 10
  else c.toNat - 'A'.toNat + 10

/-- The number that digits stand for in a base. -/
def digitsValue (base : Nat) (digits : List Char) : Nat :=
  digits.foldl (fun n c => base * n + digitValue c) 0

end FreeNames.Text
