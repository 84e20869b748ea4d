import FreeNames.Analysis
import FreeNames.Report.Json

/-!
# Reports

What an analysis found, as lines of text or as one JSON text. A line has a name, a tab and the
places of its references; a JSON report has the places by line and column.
-/

namespace FreeNames

/-- A name and the places of its free references. -/
structure Entry where
  name : Name
  sites : List Position

/-- What is reported of a source. -/
structure Report where
  source : Text
  parsingError : Option Text
  entries : List Entry

namespace Report

/-- The report of findings about a source. -/
def ofFindings (f : Findings) (source : Text) : Except Fault Report := do
  let entries ← f.groups.mapM fun g => do return Entry.mk g.name (← g.positions)
  return ⟨source, f.parsingError, entries⟩

/-! ### Text -/

/-- A place: the line, and the column if it is known. Without a line nothing is shown. -/
def siteText (p : Position) : Text :=
  if p.line.isNull then ""
  else if p.column.isNull then p.line.plain
  else p.line.plain ++ ":" ++ p.column.plain

/-- The line of a name. -/
def entryText (e : Entry) : Text :=
  e.name.plain ++ "\t" ++ Text.join ", " (e.sites.map siteText)

/-- The line that warns of a tolerant reading. -/
def warningText (source message : Text) : Text :=
  "WARNING " ++ source ++ ": parsed loosely after: " ++ message

/-- The report as lines. -/
def lines (r : Report) : List Text :=
  r.entries.map entryText ++
    match r.parsingError with
    | some message => if message.isEmpty then [] else [warningText r.source message]
    | none => []

/-! ### JSON -/

/-- A place as a value. -/
def siteValue (p : Position) : Value := .object 0 [("line", p.line), ("column", p.column)]

/-- A name with its places as a value. -/
def entryValue (e : Entry) : Value :=
  .object 0 [("name", e.name.toValue), ("sites", .array (e.sites.map siteValue))]

/-- The report as a value. -/
def toValue (r : Report) : Value :=
  .object 0 [("source", .text r.source),
    ("parsing_error", match r.parsingError with
      | some message => .text message
      | none => .null),
    ("globals", .array (r.entries.map entryValue))]

/-- The report as a JSON text. -/
def json (r : Report) : Text := Json.write r.toValue

/-- The report as a JSON text, where nothing promises that its places have a JSON form. -/
def json? (r : Report) : Except Fault Text :=
  if Json.isWritable r.toValue then .ok r.json else .error .wrongSort

end Report

end FreeNames
