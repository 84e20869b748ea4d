import FreeNames.CommandLine.Switch

/-!
# The commands

There is one command, `scan`, with a main command around it. `invocation` says what arguments ask
for: to scan a file, to show help, or nothing that makes sense.
-/

namespace FreeNames.CommandLine

/-- The switch that asks for help. -/
def helpSwitch : Switch := ⟨["-h", "--help"], .help⟩

/-- How the main command is used. -/
def mainUsage : String := "usage: jsglobals [-h] [--verbose] {scan} ...\n"

/-- The main command. -/
def mainCommand : Command where
  name := "jsglobals"
  usage := mainUsage
  help := mainUsage ++
    "\nFind the global variables a JavaScript file uses\n" ++
    "\npositional arguments:\n" ++
    "  {scan}\n" ++
    "    scan      List the globals of a single JS file\n" ++
    "\noptions:\n" ++
    "  -h, --help  show this help message and exit\n" ++
    "  --verbose   Log analysis details.\n"
  switches := [helpSwitch, ⟨["--verbose"], .flag⟩]
  place := .rest

/-- How the command `scan` is used. -/
def scanUsage : String :=
  "usage: jsglobals scan [-h] [--module] [--loose] [--json] [--allow NAME]\n" ++
  "                      [--fail-on-globals]\n" ++
  "                      input\n"

/-- The command `scan`. -/
def scanCommand : Command where
  name := "jsglobals scan"
  usage := scanUsage
  help := scanUsage ++
    "\npositional arguments:\n" ++
    "  input              Path to the JavaScript file\n" ++
    "\noptions:\n" ++
    "  -h, --help         show this help message and exit\n" ++
    "  --module           Parse the input as an ES module (strict mode semantics).\n" ++
    "  --loose            Fall back to tolerant parsing when the file has syntax\n" ++
    "                     errors.\n" ++
    "  --json             Emit a JSON report.\n" ++
    "  --allow NAME       Global name that --fail-on-globals accepts (repeatable).\n" ++
    "  --fail-on-globals  Exit with status 1 when a global outside --allow is\n" ++
    "                     found.\n"
  switches := [helpSwitch, ⟨["--module"], .flag⟩, ⟨["--loose"], .flag⟩, ⟨["--json"], .flag⟩,
    ⟨["--allow"], .value⟩, ⟨["--fail-on-globals"], .flag⟩]
  place := .one

/-- What a scan is asked for. -/
structure ScanArguments where
  input : String
  asModule : Bool
  loose : Bool
  json : Bool
  failOnGlobals : Bool
  allow : List String
  deriving DecidableEq, Repr

/-- What arguments ask for. -/
inductive Invocation where
  | scan (verbose : Bool) (args : ScanArguments)
  | help (c : Command)
  | noCommand
  | refused (c : Command) (message : Text)

/-- What is done where a command is not carried out. -/
def Stop.invocation (c : Command) : Stop → Invocation
  | help => .help c
  | error message => .refused c message

/-- What the arguments of `scan` ask for, where the main command left some over. -/
def scanInvocation (verbose : Bool) (left : List String) (args : List String) : Invocation :=
  match scanCommand.arguments args with
  | .error stop => stop.invocation scanCommand
  | .ok s =>
    match s.plain, left ++ s.left with
    | [], _ => .refused scanCommand "the following arguments are required: input"
    | input :: _, [] =>
      .scan verbose ⟨input, s.has "--module", s.has "--loose", s.has "--json",
        s.has "--fail-on-globals", s.values "--allow"⟩
    | _, left => .refused mainCommand ("unrecognized arguments: " ++ " ".intercalate left)

/-- What arguments ask for. -/
def invocation (args : List String) : Invocation :=
  match mainCommand.arguments args with
  | .error stop => stop.invocation mainCommand
  | .ok s =>
    match s.plain, s.left with
    | "scan" :: rest, left => scanInvocation (s.has "--verbose") left rest
    | command :: _, _ =>
      .refused mainCommand ("argument command: invalid choice: " ++ Text.quoted command ++
        " (choose from 'scan')")
    | [], [] => .noCommand
    | [], left => .refused mainCommand ("unrecognized arguments: " ++ " ".intercalate left)

end FreeNames.CommandLine
