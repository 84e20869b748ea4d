import FreeNames.Tree.Text

/-!
# Options of reading a program

Six settings say how a program text is read. Settings arrive by name with arbitrary values, which are
kept; a setting is on if its value counts as true. `Options.ofFields` accepts the known names only
and checks the sort of program that is asked for. An analysis relies on some settings and forces
them on (`Options.forAnalysis`).
-/

namespace FreeNames

/-- The two sorts of programs. -/
inductive ProgramSort where
  | script
  | modular
  deriving DecidableEq, Repr, Inhabited

/-- The name of a sort of programs. -/
def ProgramSort.name : ProgramSort → String
  | script => "script"
  | modular => "module"

/-- How a program text is read. -/
structure Options where
  /-- A `return` may stand outside functions. -/
  allowReturn : Value
  /-- Imports and exports may stand in scripts and anywhere in a program. -/
  allowImportExport : Value
  /-- A first line that starts with `#!` is a comment. -/
  allowHashBang : Value
  /-- Nodes have their line and column. -/
  locations : Value
  /-- Nodes have their range of characters. -/
  ranges : Value
  sort : ProgramSort
  deriving Inhabited

/-- Why settings are refused. -/
inductive OptionsFault where
  /-- There is no setting of this name. -/
  | unknownSetting (name : String)
  /-- There is no such sort of programs. -/
  | unknownSort (given : Value)

namespace OptionsFault

/-- The wording of a refused sort of programs; an unknown setting has none. -/
def message? : OptionsFault → Option Text
  | unknownSetting _ => none
  | unknownSort given =>
    some ("source_type must be one of ('script', 'module'), got " ++ given.inner)

end OptionsFault

namespace Options

/-- The settings where nothing is said: everything is allowed, in a script. -/
def default : Options :=
  ⟨.bool true, .bool true, .bool true, .bool true, .bool true, .script⟩

/-- The settings by name, in order. -/
def fields (o : Options) : List (String × Value) :=
  [("allow_return_outside_function", o.allowReturn),
   ("allow_import_export_everywhere", o.allowImportExport),
   ("allow_hash_bang", o.allowHashBang),
   ("locations", o.locations),
   ("ranges", o.ranges),
   ("source_type", .text o.sort.name)]

/-- The sort of programs that a setting asks for. -/
def sortOf (given : Value) : Except OptionsFault ProgramSort :=
  if given.isText ProgramSort.script.name then .ok .script
  else if given.isText ProgramSort.modular.name then .ok .modular
  else .error (.unknownSort given)

/-- The settings that given names and values ask for, the others as in `default`. An unknown name
is noticed before a bad value. -/
def ofFields (given : List (String × Value)) : Except OptionsFault Options := do
  match given.find? fun (name, _) => !(default.fields.any fun (known, _) => known == name) with
  | some (name, _) => throw (.unknownSetting name)
  | none => pure ()
  let setting (name : String) : Value := (given.lookup name).getD (.bool true)
  let sort ← match given.lookup "source_type" with
    | some v => sortOf v
    | none => pure default.sort
  return {
    allowReturn := setting "allow_return_outside_function"
    allowImportExport := setting "allow_import_export_everywhere"
    allowHashBang := setting "allow_hash_bang"
    locations := setting "locations"
    ranges := setting "ranges"
    sort := sort }

/-- The settings with those forced on that an analysis relies on. -/
def forAnalysis (o : Options) : Options :=
  { o with
    allowReturn := .bool true, allowImportExport := .bool true, allowHashBang := .bool true
    locations := .bool true }

/-- What a reader is asked for: whether nodes have locations and ranges, whether faults are passed
over, and the sort of program. -/
def request (o : Options) (tolerant : Bool) : List (String × Value) :=
  [("loc", o.locations), ("range", o.ranges), ("tolerant", .bool tolerant),
   ("sourceType", .text o.sort.name)]

end Options

end FreeNames
