import FreeNames.Text.Quoted

/-!
# Files

A path is made absolute and freed of dots before it is looked up. What is found there is an `Input`.
A folder of files as a value (`Folder`) stands for the part of a file system that a run can see.
-/

namespace FreeNames.CommandLine

/-- Why a path cannot even be looked up. -/
inductive PathFault where
  /-- The path, or a name in it, is longer than a file system takes. -/
  | tooLong
  /-- A path ends at a NUL, so none can be in it. -/
  | hasNul
  deriving DecidableEq, Repr

/-- What is found at a path. -/
inductive Input where
  | missing
  /-- The path cannot be looked up. -/
  | refused (fault : PathFault)
  /-- Something that cannot be read, and why. -/
  | unreadable (reason : Text)
  | file (bytes : ByteArray)

/-- Why a folder cannot be read. -/
def folderReason (path : String) : Text := "[Errno 21] Is a directory: " ++ Text.quoted path

/-- The text of a file as UTF-8, each line end as one character. None if it is no UTF-8. -/
def textOf (bytes : ByteArray) : Option String :=
  (String.fromUTF8? bytes).map fun s => String.ofList (plainLineEnds s.toList)
where
  plainLineEnds : List Char → List Char
    | [] => []
    | '\r' :: '\n' :: rest => '\n' :: plainLineEnds rest
    | '\r' :: rest => '\n' :: plainLineEnds rest
    | c :: rest => c :: plainLineEnds rest

/-! ### Paths -/

/-- The names in a path, between its slashes. -/
def namesIn (path : String) : List String := (path.toList.splitOn '/').map String.ofList

/-- The parts of a path, latest first, behind those before it. -/
def parts : List String → List String → List String
  | before, [] => before
  | before, "" :: rest => parts before rest
  | before, "." :: rest => parts before rest
  | before, ".." :: rest => parts (before.drop 1) rest
  | before, name :: rest => parts (name :: before) rest

/-- An absolute path from its parts, latest first. -/
def ofParts (reversed : List String) : String := "/" ++ "/".intercalate reversed.reverse

/-- A path made absolute from a folder, without dots. -/
def resolve (folder path : String) : String :=
  let start := if path.startsWith "/" then [] else parts [] (namesIn folder)
  ofParts (parts start (namesIn path))

/-! ### Folders -/

/-- The most bytes that a name in a path may have. -/
def longestName : Nat := 255

/-- The most bytes that a path may have. -/
def longestPath : Nat := 4095

/-- A folder of files: what it holds, by paths from it. Nothing but a name is known of a folder in
it. -/
structure Folder where
  path : String
  files : List (String × Option ByteArray)

namespace Folder

/-- Whether an absolute path leads to a folder. -/
def isFolder (f : Folder) (path : String) : Bool :=
  let inside := if path == "/" then "/" else path ++ "/"
  path == f.path || f.path.startsWith inside ||
    f.files.any fun (name, bytes) =>
      let own := f.path ++ "/" ++ name
      own.startsWith inside || (own == path && bytes.isNone)

/-- Whether a name that is too long is looked up in a folder, on the way along the parts of a path
behind others, which are latest first. -/
def meetsLongName (f : Folder) (before : List String) : List String → Bool
  | [] => false
  | name :: rest =>
    if name.utf8ByteSize > longestName then f.isFolder (ofParts before)
    else f.meetsLongName (name :: before) rest

/-- What is found at an absolute path. -/
def look (f : Folder) (path : String) : Input :=
  if path.utf8ByteSize > longestPath || f.meetsLongName [] (parts [] (namesIn path)).reverse then
    .refused .tooLong
  else if f.isFolder path then .unreadable (folderReason path)
  else
    match f.files.find? fun (name, _) => f.path ++ "/" ++ name == path with
    | some (_, some bytes) => .file bytes
    | _ => .missing

/-- The absolute path that an argument stands for, and what is found there. -/
def find (f : Folder) (argument : String) : String × Input :=
  let path := resolve f.path argument
  (path, if argument.toList.contains '\x00' then .refused .hasNul else f.look path)

end Folder

end FreeNames.CommandLine
