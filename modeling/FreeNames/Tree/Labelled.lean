import FreeNames.Scope.Tables
import FreeNames.Tree.Value

/-!
# Labelled trees

Plain data has no labels, and it holds a node's binding table, if it has one, as a field `locals` of
the node. `Tree.ofValue` gives every object a label of its own, in pre-order, and puts the tables
beside the tree. The fields `locals` stay where they are, but what counts from then on is the tables;
`Value.withTables` writes them back into the fields.
-/

namespace FreeNames

/-- A syntax tree whose objects have different labels, all below `next`, with the tables of its
nodes beside it. -/
structure Tree where
  root : Value
  tables : Tables
  next : Nat

/-- The field that plain data keeps a node's table in. -/
def tableField : String := "locals"

namespace Value

/-- What a value stands for in the place of a table: an array of names is a set. -/
def asTable : Value → Value
  | array items => names (.ofList (items.filterMap name?))
  | v => v

/-- Whether a value in the place of a table is no array, or one that holds names only. -/
def holdsNames : Value → Bool
  | array items => items.all fun item => item.name?.isSome
  | _ => true

/-! ### Labels -/

mutual
/-- Labels the objects of a value, from a free label on. The next free label comes with the value. -/
def labelled : Value → Nat → Value × Nat
  | array items, next =>
    let (items, next) := labelledItems items next
    (array items, next)
  | object _ fields, next =>
    let (fields, after) := labelledFields fields (next + 1)
    (object next fields, after)
  | v, next => (v, next)

/-- Labels the objects of array items. -/
def labelledItems : List Value → Nat → List Value × Nat
  | [], next => ([], next)
  | v :: rest, next =>
    let (v, next) := labelled v next
    let (rest, next) := labelledItems rest next
    (v :: rest, next)

/-- Labels the objects of fields, and makes a set of the names in a table. -/
def labelledFields : List (String × Value) → Nat → List (String × Value) × Nat
  | [], next => ([], next)
  | (name, v) :: rest, next =>
    let (v, next) := labelled v next
    let (rest, next) := labelledFields rest next
    ((name, if name = tableField then v.asTable else v) :: rest, next)
end

mutual
/-- Whether the tables in a value hold names only. -/
def isReadable : Value → Bool
  | array items => isReadableItems items
  | object _ fields => isReadableFields fields
  | _ => true

/-- Whether the tables in array items hold names only. -/
def isReadableItems : List Value → Bool
  | [] => true
  | v :: rest => v.isReadable && isReadableItems rest

/-- Whether the tables in fields hold names only. -/
def isReadableFields : List (String × Value) → Bool
  | [] => true
  | (name, v) :: rest =>
    (name != tableField || v.holdsNames) && v.isReadable && isReadableFields rest
end

/-! ### Tables in fields -/

mutual
/-- The tables that the objects of a value have in their fields, by label. -/
def slots : Value → List (Nat × Value)
  | array items => slotsOfItems items
  | object label fields =>
    (fields.lookup tableField).toList.map (fun slot => (label, slot)) ++ slotsOfFields fields
  | _ => []

/-- The tables in the fields of array items. -/
def slotsOfItems : List Value → List (Nat × Value)
  | [] => []
  | v :: rest => v.slots ++ slotsOfItems rest

/-- The tables in fields of the values of fields. -/
def slotsOfFields : List (String × Value) → List (Nat × Value)
  | [] => []
  | (_, v) :: rest => v.slots ++ slotsOfFields rest
end

/-- Fields with one of them set, at its place or at the end. -/
def setField (name : String) (v : Value) : List (String × Value) → List (String × Value)
  | [] => [(name, v)]
  | (other, w) :: rest => if other = name then (name, v) :: rest else (other, w) :: setField name v rest

/-- Fields without those of a name. -/
def dropField (name : String) (fields : List (String × Value)) : List (String × Value) :=
  fields.filter fun field => field.1 != name

mutual
/-- A value whose objects have their tables in their fields. -/
def withTables (t : Tables) : Value → Value
  | array items => array (withTablesItems t items)
  | object label fields =>
    let fields := withTablesFields t fields
    match t.slot? label with
    | some slot => object label (setField tableField slot fields)
    | none => object label (dropField tableField fields)
  | v => v

/-- Array items whose objects have their tables in their fields. -/
def withTablesItems (t : Tables) : List Value → List Value
  | [] => []
  | v :: rest => v.withTables t :: withTablesItems t rest

/-- Fields whose objects have their tables in their fields. -/
def withTablesFields (t : Tables) : List (String × Value) → List (String × Value)
  | [] => []
  | (name, v) :: rest => (name, v.withTables t) :: withTablesFields t rest
end

end Value

/-- The tables that the objects of a value have in their fields. -/
def Tables.ofValue (v : Value) : Tables := ⟨v.slots⟩

namespace Tree

/-- The tree that plain data stands for. -/
def ofValue (v : Value) : Tree :=
  let (root, next) := v.labelled 0
  ⟨root, .ofValue root, next⟩

/-- The tree that plain data stands for, where nothing promises that its tables hold names. -/
def ofValue? (v : Value) : Except Fault Tree :=
  if v.isReadable then .ok (.ofValue v) else .error .wrongSort

end Tree

end FreeNames
