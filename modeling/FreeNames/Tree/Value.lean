import FreeNames.NameSet

/-!
# The values a syntax tree is made of

A syntax tree arrives as plain data: nulls, booleans, numbers, texts, arrays and objects, and the
sets of names that nodes declare. Nothing promises that an object has the fields its kind should
have, so the tree is kept as it came, in one type `Value`, and every reader of it says what it does
with a value that does not fit.

Objects carry a *label*. Labels stand for identity: two objects of one tree have different labels,
and an edit that moves an object keeps its label. What the analysis learns about an object is kept
beside the tree, under its label.
-/

namespace FreeNames

/-- A value of a syntax tree. Floating-point numbers are kept as the bits of a double. -/
inductive Value where
  | null
  | bool (b : Bool)
  | int (n : Int)
  | float (bits : UInt64)
  | text (t : Text)
  | names (set : NameSet)
  | array (items : List Value)
  | object (label : Nat) (fields : List (String × Value))
  deriving Inhabited

/-- An object of a syntax tree: its label and its fields in order. -/
structure Node where
  label : Nat
  fields : List (String × Value)
  deriving Inhabited

namespace Value

/-- The object that a value is, if it is one. -/
def node? : Value → Option Node
  | object label fields => some ⟨label, fields⟩
  | _ => none

/-- Nothing is there: the null value. -/
def isNull : Value → Bool
  | null => true
  | _ => false

/-- Whether a value is a given text. -/
def isText (v : Value) (s : String) : Bool :=
  match v with
  | text t => t == s
  | _ => false

/-- Whether a value counts as true where a condition is expected: null, `false`, zero, and the
empty text, set, array and object do not. -/
def isTrue : Value → Bool
  | null => false
  | bool b => b
  | int n => n != 0
  | float bits => bits &&& 0x7fffffffffffffff != 0
  | text t => !t.isEmpty
  | names set => !set.isEmpty
  | array items => !items.isEmpty
  | object _ fields => !fields.isEmpty

/-- The name that a value is, if it can be one. -/
def name? : Value → Option Name
  | null => some .null
  | bool b => some (.bool b)
  | int n => some (.int n)
  | float bits => some (.float bits)
  | text t => some (.text t)
  | _ => none

/-! ### Size -/

mutual
/-- How many values a value holds, itself included. -/
def size : Value → Nat
  | array items => 1 + sizeItems items
  | object _ fields => 1 + sizeFields fields
  | _ => 1

/-- The sizes of array items together. -/
def sizeItems : List Value → Nat
  | [] => 0
  | v :: rest => v.size + sizeItems rest

/-- The sizes of field values together. -/
def sizeFields : List (String × Value) → Nat
  | [] => 0
  | (_, v) :: rest => v.size + sizeFields rest
end

theorem size_pos (v : Value) : 0 < v.size := by
  cases v <;> grind [size]

theorem size_le_sizeItems {v : Value} : ∀ {items : List Value}, v ∈ items → v.size ≤ sizeItems items
  | [], h => by simp at h
  | w :: rest, h => by
    rcases List.mem_cons.mp h with rfl | h
    · simp [sizeItems]
    · have := size_le_sizeItems h
      simp only [sizeItems]; omega

theorem size_le_sizeFields {k : String} {v : Value} :
    ∀ {fields : List (String × Value)}, fields.lookup k = some v → v.size ≤ sizeFields fields
  | [], h => by simp at h
  | (j, w) :: rest, h => by
    rw [List.lookup_cons] at h
    split at h
    · cases h; simp [sizeFields]
    · have := size_le_sizeFields h
      simp only [sizeFields]; omega

end Value

/-- The name as a value. -/
def Name.toValue : Name → Value
  | null => .null
  | bool b => .bool b
  | int n => .int n
  | float bits => .float bits
  | text t => .text t

@[simp] theorem Name.name?_toValue (n : Name) : n.toValue.name? = some n := by cases n <;> rfl

theorem Value.name?_eq_some_iff {v : Value} {n : Name} : v.name? = some n ↔ v = n.toValue := by
  constructor
  · cases v <;> simp only [Value.name?, Option.some.injEq, reduceCtorEq, false_implies] <;>
      rintro rfl <;> rfl
  · rintro rfl; simp

namespace Node

/-- The node as a value. -/
def toValue (n : Node) : Value := .object n.label n.fields

/-- A field, where an absent field and a null one are the same. -/
def field (n : Node) (name : String) : Value := (n.fields.lookup name).getD .null

/-- The node's kind, as it is written in the tree. -/
def type (n : Node) : Value := n.field "type"

@[simp] theorem node?_toValue (n : Node) : n.toValue.node? = some n := rfl

end Node

theorem Value.node?_eq_some_iff {v : Value} {n : Node} : v.node? = some n ↔ v = n.toValue := by
  cases v <;> simp [Value.node?, Node.toValue]
  constructor
  · rintro rfl; exact ⟨rfl, rfl⟩
  · rintro ⟨rfl, rfl⟩; rfl

end FreeNames
