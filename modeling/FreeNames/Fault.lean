import FreeNames.Tree.Text

/-!
# Why an analysis stops

The analysis accepts any value as a tree and stops at the first thing that it cannot use. A `Fault`
is the cause: a node, pattern or declaration that breaks an expectation of the analysis (a `Breach`,
reported with the place of the node), a field that has to be there and is not, or a value of the
wrong sort where an object, a name or a sequence is needed.
-/

namespace FreeNames

/-- Where a node starts, as its location says. Nothing promises numbers, so both parts are values,
null where the location does not say. -/
structure Position where
  line : Value
  column : Value
  deriving Inhabited

/-- An expectation of the analysis that a node breaks. The kinds are as the tree has them. -/
inductive Breach where
  | unrecognizedNode (kind : Value)
  | unrecognizedPattern (kind : Value)
  | noEnclosingScope (kind : Value)
  | stated (message : Text)

namespace Breach

/-- What is wrong, without the place. -/
def text : Breach → Text
  | unrecognizedNode kind => "Unrecognized node type: " ++ kind.plain
  | unrecognizedPattern kind => "Unrecognized pattern type: " ++ kind.plain
  | noEnclosingScope kind => "No enclosing scope found for " ++ kind.plain
  | stated message => message

end Breach

/-- Why an analysis stops. -/
inductive Fault where
  /-- A node breaks an expectation; the position is none where there is no node to blame. -/
  | breach (cause : Breach) (position : Option Position)
  /-- An object has no field of a name that is needed. -/
  | missingField (name : Value)
  /-- Something other than an object, or than a table of names, where one is needed. -/
  | notAnObject
  /-- A value of a sort that an operation does not take. -/
  | wrongSort
  /-- A node is closed that was never opened. -/
  | nothingToClose
  /-- There is no item at an index. -/
  | outOfRange
  /-- The tree to analyse is not a program. -/
  | notAProgram

namespace Fault

/-- The place of a breach, shown only when the line is known. -/
def placeText : Option Position → Text
  | some position =>
    if position.line.isNull then ""
    else " (line " ++ position.line.plain ++ ", column " ++ position.column.plain ++ ")"
  | none => ""

/-- The message of a fault; some faults have none. -/
def message? : Fault → Option Text
  | breach cause position => some (cause.text ++ placeText position)
  | missingField name => some name.inner
  | notAnObject => none
  | wrongSort => none
  | nothingToClose => none
  | outOfRange => none
  | notAProgram => some "Source must be either a string of JavaScript or an esprima AST"

end Fault

namespace Node

/-- The node's position. A location that counts as false is no location; one that is neither an
object nor false cannot be read. -/
def position (n : Node) : Except Fault Position :=
  let loc := n.field "loc"
  if !loc.isTrue then .ok ⟨.null, .null⟩
  else
    match loc.node? with
    | none => .error .notAnObject
    | some loc =>
      let start := loc.field "start"
      if !start.isTrue then .ok ⟨.null, .null⟩
      else
        match start.node? with
        | none => .error .notAnObject
        | some start => .ok ⟨start.field "line", start.field "column"⟩

/-- A breach by this node, reported at its position. -/
def breach (n : Node) (cause : Breach) : Fault :=
  match n.position with
  | .ok position => .breach cause (some position)
  | .error fault => fault

/-- A field that has to be there. -/
def require (n : Node) (name : String) : Except Fault Value :=
  match n.fields.lookup name with
  | some v => .ok v
  | none => .error (.missingField (.text name))

end Node

namespace Value

/-- The object that a value has to be, where only its fields are asked for by name. -/
def asNode (v : Value) : Except Fault Node :=
  match v.node? with
  | some n => .ok n
  | none => .error .notAnObject

/-- A field of a value that has to be an object with that field. -/
def member (v : Value) (name : String) : Except Fault Value :=
  match v.node? with
  | some n => n.require name
  | none => .error .wrongSort

/-- The name that a value has to be. -/
def asName (v : Value) : Except Fault Name :=
  match v.name? with
  | some name => .ok name
  | none => .error .wrongSort

/-- The members of a value that is gone through in order: the items of an array, the code points of
a text, the names of a set, the field names of an object. -/
def members : Value → Except Fault (List Value)
  | array items => .ok items
  | text t => .ok (t.points.map fun p => .text ⟨[p]⟩)
  | names set => .ok (set.toList.map Name.toValue)
  | object _ fields => .ok (fields.map fun field => .text field.1)
  | _ => .error .wrongSort

/-- The breach of a node that may be any value: only an object has a position. -/
def breach (v : Value) (cause : Breach) : Fault :=
  match v.node? with
  | some n => n.breach cause
  | none => .breach cause none

end Value

/-- The members of a field, none when the field is absent. -/
def Node.membersOf (n : Node) (name : String) : Except Fault (List Value) :=
  match n.fields.lookup name with
  | some v => v.members
  | none => .ok []

end FreeNames
