import FreeNames.Number.Shortest
import FreeNames.Text.Quoted
import FreeNames.Tree.Value

/-!
# Values in messages

The text of a value as messages show it. A text stands for itself at the top and is quoted inside an
array, an object or a set; null and the booleans have their names, whole numbers are decimal, other
numbers are as short as they can be.
-/

namespace FreeNames

namespace Value

/-- Parts between an opening and a closing mark, with commas between them. -/
def enclosed (opening closing : String) (parts : List Text) : Text :=
  opening ++ Text.join ", " parts ++ closing

end Value

/-- A name inside a value: texts are quoted. -/
def Name.inner : Name → Text
  | null => "None"
  | bool true => "True"
  | bool false => "False"
  | int n => toString n
  | float bits => Double.text bits
  | text t => t.quoted

/-- A set of names. The empty one has a word of its own. -/
def NameSet.inner (s : NameSet) : Text :=
  if s.isEmpty then "set()" else Value.enclosed leftBrace rightBrace (s.toList.map Name.inner)

namespace Value

mutual
/-- A value inside another one: texts are quoted. -/
def inner : Value → Text
  | null => Name.inner .null
  | bool b => Name.inner (.bool b)
  | int n => Name.inner (.int n)
  | float bits => Name.inner (.float bits)
  | text t => t.quoted
  | names set => set.inner
  | array items => enclosed "[" "]" (innerItems items)
  | object _ fields => enclosed leftBrace rightBrace (innerFields fields)

/-- The items of an array, each inside it. -/
def innerItems : List Value → List Text
  | [] => []
  | v :: rest => v.inner :: innerItems rest

/-- The fields of an object, each inside it. -/
def innerFields : List (String × Value) → List Text
  | [] => []
  | (k, v) :: rest => (Text.quoted k ++ ": " ++ v.inner) :: innerFields rest
end

/-- The text of a value in a message. -/
def plain : Value → Text
  | text t => t
  | v => v.inner

end Value

/-- The text of a name in a message. -/
def Name.plain (n : Name) : Text := n.toValue.plain

end FreeNames
