import FreeNames.Tree.Labelled

/-!
# Listing tables

The tables of a tree in a fixed order: a node before what is inside it, fields by name, array items
by index. Every part of the tree but the tables themselves is looked at, also parts that a walk does
not enter.
-/

namespace FreeNames

/-- A table, or what stands for it, and where it is: the path to its node, and the node's kind as the
tree has it. -/
structure Listed where
  path : List String
  type : Value
  slot : Value

namespace Tables

/-- A list of parts by name, put in the order of the names. -/
def inNameOrder {α : Type} (parts : List (String × α)) : List (String × α) :=
  parts.mergeSort fun a b => a.1 ≤ b.1

mutual
/-- The tables of the nodes in a value, with paths from the value. -/
def list (t : Tables) : Value → List Listed
  | .array items => listItems t 0 items
  | .object label fields =>
    let slots := (t.slot? label).toList.filter fun slot => !slot.isNull
    let own := slots.map fun slot => ⟨[], Node.type ⟨label, fields⟩, slot⟩
    own ++ ((inNameOrder (listFields t fields)).map Prod.snd).flatten
  | _ => []

/-- The tables in array items, from a given index on. -/
def listItems (t : Tables) (i : Nat) : List Value → List Listed
  | [] => []
  | v :: rest =>
    (list t v).map (fun l => { l with path := toString i :: l.path }) ++ listItems t (i + 1) rest

/-- The tables in fields, field by field. A table is not looked into. -/
def listFields (t : Tables) : List (String × Value) → List (String × List Listed)
  | [] => []
  | (name, v) :: rest =>
    if name = tableField then listFields t rest
    else (name, (list t v).map fun l => { l with path := name :: l.path }) :: listFields t rest
end

end Tables

/-- The path as one text. -/
def Listed.pathText (l : Listed) : String := ".".intercalate l.path

/-- The names in the table. -/
def Listed.names (l : Listed) : Except Fault (List Name) := do
  return (← l.slot.listedNames).getD []

end FreeNames
