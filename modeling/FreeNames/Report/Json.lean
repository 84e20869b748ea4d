import FreeNames.Number.Shortest
import FreeNames.Text.Quoted
import FreeNames.Tree.Value

/-!
# Values as JSON

A value written as JSON over several lines, each level two blanks further in. Characters outside the
ASCII range stand as they are; quotes, backslashes and control characters are escaped. JSON has no
sets, so a value with a set of names in it is not `isWritable`.
-/

namespace FreeNames.Json

/-- A code point inside a string. -/
def escape (p : CodePoint) : Text :=
  let is (c : Char) : Bool := p = CodePoint.ofChar c
  if is '"' then "\\\""
  else if is '\\' then "\\\\"
  else if is '\n' then "\\n"
  else if is '\r' then "\\r"
  else if is '\t' then "\\t"
  else if is '\x08' then "\\b"
  else if is '\x0c' then "\\f"
  else if p.val < 0x20 then "\\u" ++ Text.hex 4 p.val
  else ⟨[p]⟩

/-- A text in quotes. -/
def quote (t : Text) : Text := "\"" ++ Text.concat (t.points.map escape) ++ "\""

/-- A floating-point number. -/
def number (bits : UInt64) : Text :=
  match Double.magnitude bits with
  | .finite .. => Double.text bits
  | .infinite => if Double.isNegative bits then "-Infinity" else "Infinity"
  | .notANumber => "NaN"

/-- The start of a line at a depth. -/
def newline (depth : Nat) : Text := .ofChars ('\n' :: List.replicate (2 * depth) ' ')

/-- A name. -/
def writeName : Name → Text
  | .null => "null"
  | .bool true => "true"
  | .bool false => "false"
  | .int n => toString n
  | .float bits => number bits
  | .text t => quote t

/-- Parts one to a line, between an opening and a closing mark. -/
def block (depth : Nat) (opening closing : String) : List Text → Text
  | [] => opening ++ closing
  | first :: rest =>
    opening ++ newline (depth + 1) ++ first ++
      Text.concat (rest.map fun part => "," ++ newline (depth + 1) ++ part) ++
      newline depth ++ closing

mutual
/-- A value whose lines start at a depth. -/
def writeAt (depth : Nat) : Value → Text
  | .null => writeName .null
  | .bool b => writeName (.bool b)
  | .int n => writeName (.int n)
  | .float bits => writeName (.float bits)
  | .text t => writeName (.text t)
  | .names set => block depth "[" "]" (set.toList.map writeName)
  | .array items => block depth "[" "]" (writeItems (depth + 1) items)
  | .object _ fields => block depth leftBrace rightBrace (writeFields (depth + 1) fields)

/-- The items of an array. -/
def writeItems (depth : Nat) : List Value → List Text
  | [] => []
  | v :: rest => writeAt depth v :: writeItems depth rest

/-- The fields of an object. -/
def writeFields (depth : Nat) : List (String × Value) → List Text
  | [] => []
  | (name, v) :: rest => (quote name ++ ": " ++ writeAt depth v) :: writeFields depth rest
end

/-- A value as a JSON text. -/
def write (v : Value) : Text := writeAt 0 v

mutual
/-- Whether a value has a JSON form. -/
def isWritable : Value → Bool
  | .names _ => false
  | .array items => areWritableItems items
  | .object _ fields => areWritableFields fields
  | _ => true

/-- Whether array items have a JSON form. -/
def areWritableItems : List Value → Bool
  | [] => true
  | v :: rest => isWritable v && areWritableItems rest

/-- Whether the values of fields have a JSON form. -/
def areWritableFields : List (String × Value) → Bool
  | [] => true
  | (_, v) :: rest => isWritable v && areWritableFields rest
end

end FreeNames.Json
