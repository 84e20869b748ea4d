import FreeNames.CommandLine.Scan

/-!
# The program

Reads arguments and the file that they name, and writes what the scan of it comes to.
-/

namespace FreeNames.CommandLine

/-- What is found at a path of the file system. -/
def readInput (path : String) : IO Input := do
  try
    return .file (← IO.FS.readBinFile path)
  catch e =>
    match e with
    | .noFileOrDirectory .. => return .missing
    | .inappropriateType .. => return .unreadable (folderReason path)
    | e => return .unreadable (toString e)

/-- Writes what a run comes to; its exit code. -/
def conclude (r : Result) : IO UInt32 := do
  (← IO.getStdout).putStr r.out.shown
  (← IO.getStderr).putStr r.err.shown
  match r.ending with
  | .exit code => return code.toUInt32
  | .refusedPath _ => throw (IO.userError "the path cannot be looked up")
  | .undecodable => throw (IO.userError "the file is not UTF-8")
  | .trouble (.fault fault) =>
    throw (IO.userError ((fault.message?.map Text.shown).getD "the tree cannot be analysed"))
  | .trouble (.unreadable _) => throw (IO.userError "the text cannot be read")

/-- Runs the program with arguments. -/
def runHere (args : List String) : IO UInt32 := do
  match invocation args with
  | .scan verbose args =>
    let path := resolve (← IO.currentDir).toString args.input
    conclude (scan Grammar.read verbose args path (← readInput path))
  | other => conclude other.answer

end FreeNames.CommandLine

def main (args : List String) : IO UInt32 := FreeNames.CommandLine.runHere args
