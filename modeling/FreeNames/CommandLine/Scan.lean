import FreeNames.CommandLine.Files
import FreeNames.CommandLine.Invocation
import FreeNames.Report

/-!
# Scanning a file

A scan reads a file, analyses it and writes a report. It ends with exit code 1 if the file cannot be
read, if its text is refused, or if names must not be free and some are; else with 0. Text that is
no UTF-8, a path that cannot be looked up, and a tree that the analysis cannot use end it without an
exit code.

## What is formalized

The command line of the specification (its section 9), from the arguments to what is written and the exit
code. A run is a function: the folder it works in is a value, the two streams are texts that are there as a
whole when the run has ended, and the reader of programs is a parameter (`Reader`). So what is proved of a run
holds for every reader; the one that reads by the grammar is `Grammar.read`.

A run that ends without an exit code ends with the reason (`Ending`). What is *not* formalized is the trace
that is printed in this case, files that change during a run or may not be opened, and streams that refuse
what is written. Nor are log handlers: `logLines` has the two ways in which a run shows its records.
-/

namespace FreeNames.CommandLine

/-- How a run ends. -/
inductive Ending where
  | exit (code : Nat)
  /-- The analysis, or the reader, could not go on. -/
  | trouble (t : Trouble)
  /-- The file is no UTF-8 text. -/
  | undecodable
  /-- The path of the file cannot be looked up. -/
  | refusedPath (fault : PathFault)

/-- What a run does: what it writes, and how it ends. -/
structure Result where
  ending : Ending
  out : Text
  err : Text

/-- Lines of text, each with its end. -/
def unlines (lines : List Text) : Text := .concat (lines.map fun line => line ++ "\n")

/-- The lines that log records are shown as: all of them with their channels, or only the warnings,
bare. -/
def logLines (verbose : Bool) (log : List Log.Record) : List Text :=
  if verbose then log.map Log.Record.verbose
  else (log.filter fun r => r.level = .warning).map Log.Record.text

/-- The names that are free and not allowed. -/
def unexpected (args : ScanArguments) (names : List Name) : List Name :=
  names.filter fun name => !args.allow.any fun allowed => name = .text allowed

/-- The report of a scan as text. -/
def reportText (args : ScanArguments) (r : Report) : Text :=
  if args.json then r.json ++ "\n" else unlines r.lines

/-- How a scan ends that found something, and the lines it then writes of errors. -/
def verdict (args : ScanArguments) (names : List Name) : Nat × List Text :=
  let bad := unexpected args names
  if args.failOnGlobals && !bad.isEmpty then
    (1, ["ERROR: unexpected globals: " ++ Text.join ", " (bad.map Name.plain)])
  else (0, [])

/-- What a scan asks the analysis for. -/
def scanRequest (args : ScanArguments) (path : String) : Request :=
  ⟨some { Options.default with sort := if args.asModule then .modular else .script }, args.loose,
    path⟩

/-- Scans a text. -/
def scanText (read : Reader) (verbose : Bool) (args : ScanArguments) (path text : String) : Result :=
  let (result, log) := (Source.text text).analyze read (scanRequest args path)
  let logged := logLines verbose log
  match result with
  | .error (.unreadable (.refused e)) =>
    ⟨.exit 1, "", unlines (logged ++ ["ERROR " ++ path ++ ": " ++ e.message])⟩
  | .error trouble => ⟨.trouble trouble, "", unlines logged⟩
  | .ok findings =>
    match Report.ofFindings findings path with
    | .error fault => ⟨.trouble (.fault fault), "", unlines logged⟩
    | .ok report =>
      let (code, errors) := verdict args findings.names
      ⟨.exit code, reportText args report, unlines (logged ++ errors)⟩

/-- Scans what is found at a path. -/
def scan (read : Reader) (verbose : Bool) (args : ScanArguments) (path : String) : Input → Result
  | .missing => ⟨.exit 1, "", unlines ["ERROR: Input file not found: " ++ path]⟩
  | .refused fault => ⟨.refusedPath fault, "", ""⟩
  | .unreadable reason =>
    ⟨.exit 1, "", unlines ["ERROR: Failed to read " ++ path ++ ": " ++ reason]⟩
  | .file bytes =>
    match textOf bytes with
    | none => ⟨.undecodable, "", ""⟩
    | some text => scanText read verbose args path text

/-- What is done where nothing is scanned. -/
def Invocation.answer : Invocation → Result
  | scan .. => ⟨.exit 0, "", ""⟩
  | help c => ⟨.exit 0, c.help, ""⟩
  | noCommand => ⟨.exit 1, mainCommand.help, ""⟩
  | refused c message => ⟨.exit 2, "", c.usage ++ c.name ++ ": error: " ++ message ++ "\n"⟩

/-- Runs the program with arguments in a folder. -/
def run (read : Reader) (folder : Folder) (args : List String) : Result :=
  match invocation args with
  | .scan verbose args =>
    let (path, input) := folder.find args.input
    scan read verbose args path input
  | other => other.answer

end FreeNames.CommandLine
