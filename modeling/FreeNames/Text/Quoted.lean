import FreeNames.Text
import FreeNames.Text.UnprintedRanges

/-!
# Quoted text

How a text is shown inside a message: between single quotes, or between double quotes when it holds
a single quote and no double one. The backslash, the quote in use, line ends and tabs are escaped by
a letter, other code points that do not print by their number in hexadecimal.
-/

namespace FreeNames.Text

/-- Whether a code point is shown as itself. -/
def isPrinted (p : CodePoint) : Bool := !inRanges p.val unprintedRanges

/-- A number in hexadecimal, with zeros in front up to a width. -/
def hex (width n : Nat) : String :=
  let ds := Nat.toDigits 16 n
  String.ofList (List.replicate (width - ds.length) '0' ++ ds)

/-- One code point inside quotes. -/
def quotePoint (quote : Char) (p : CodePoint) : Text :=
  let is (c : Char) : Bool := p = CodePoint.ofChar c
  if is quote || is '\\' then ⟨[CodePoint.ofChar '\\', p]⟩
  else if is '\n' then "\\n"
  else if is '\r' then "\\r"
  else if is '\t' then "\\t"
  else if isPrinted p then ⟨[p]⟩
  else if p.val < 0x100 then "\\x" ++ hex 2 p.val
  else if p.val < 0x10000 then "\\u" ++ hex 4 p.val
  else "\\U" ++ hex 8 p.val

/-- Whether a text has a character in it. -/
def hasChar (t : Text) (c : Char) : Bool := t.points.contains (CodePoint.ofChar c)

/-- A text between quotes. -/
def quoted (t : Text) : Text :=
  let quote := if t.hasChar '\x27' && !t.hasChar '"' then '"' else '\x27'
  ofChars [quote] ++ concat (t.points.map (quotePoint quote)) ++ ofChars [quote]

end FreeNames.Text
