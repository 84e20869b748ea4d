import FreeNames.Reference

/-!
# References by name

Free references are reported in groups: one for each name, the groups in the order of the names by
code point, the references of a group in the order in which they were found. Names that have no order
among each other, such as a text and a number, cannot be grouped.

## What is formalized

The global aggregator of the specification (its section 7). There the references are put into a dictionary as
they come, which is then sorted. Here the names are first made a set, which is in order, and each name then
takes its references out of the whole list. Failures are in the same order: first that of a reference without a
name, then that of names which cannot be sorted. A single name needs no sorting, whatever it is.

What is *not* formalized is a NaN among the names (`FreeNames.Name`).
-/

namespace FreeNames

/-- All free references of one name. -/
structure Group where
  name : Name
  references : List Reference

/-- The positions of a group's references. -/
def Group.positions (g : Group) : Except Fault (List Position) := g.references.mapM Reference.position

/-- A reference with the name that it has to have. -/
def Reference.withName (r : Reference) : Except Fault (Name × Reference) := do return (← r.name, r)

/-- The references of a name among those with names. -/
def referencesNamed (named : List (Name × Reference)) (name : Name) : List Reference :=
  (named.filter fun (own, _) => own.same name).map Prod.snd

/-- References grouped by name. -/
def groups (references : List Reference) : Except Fault (List Group) := do
  let named ← references.mapM Reference.withName
  let names := NameSet.ofList (named.map Prod.fst)
  if names.isUniform then
    return names.toList.map fun name => ⟨name, referencesNamed named name⟩
  else throw .wrongSort

/-- The group of a value that is a name. -/
def findGroup? (groups : List Group) (name : Value) : Option Group :=
  name.name?.bind fun name => groups.find? fun g => g.name.same name

end FreeNames
