import FreeNames.Text.DigitRanges
import FreeNames.Text.Quoted

/-!
# Arguments of a command

How the arguments of a command are told apart. An argument that starts with a dash names a switch, in
full or by the start of its long name, with a value behind an equals sign or in the next argument.
Behind a short name that takes no value stand further short names, without their dashes.
A dash alone, a negative number and what has a blank in it are plain arguments, and so is all that
follows two dashes.

A command has one place for a plain argument. It either takes one argument, or the first one and all
behind it, switches included. What finds no place is left over.
-/

namespace FreeNames.CommandLine

/-- What a switch does. -/
inductive Effect where
  | help
  | flag
  | value
  deriving DecidableEq, Repr

/-- A switch with its names. -/
structure Switch where
  names : List String
  effect : Effect
  deriving DecidableEq, Repr

/-- What a command does with its plain arguments. -/
inductive Place where
  | one
  | rest
  deriving DecidableEq, Repr

/-- A command: its name, what it shows of its use, and its switches. -/
structure Command where
  name : String
  usage : String
  help : String
  switches : List Switch
  place : Place

/-- A switch as it was named in an argument, with the text that follows its name there. -/
structure Named where
  switch : Switch
  name : String
  attached : Option (List Char)

/-- An argument. -/
inductive Word where
  | plain (text : String)
  | dashes
  | named (text : String) (n : Named)
  | unknown (text : String)

/-- The argument as it was written. -/
def Word.text : Word → String
  | plain text => text
  | dashes => "--"
  | named text _ => text
  | unknown text => text

/-- Why a command is not carried out. -/
inductive Stop where
  | help
  | error (message : Text)

/-! ### Telling arguments apart -/

/-- A text without the line end at its end, if there is one. -/
def withoutLineEnd (text : List Char) : List Char :=
  match text.getLast? with
  | some '\n' => text.dropLast
  | _ => text

/-- Whether a text is a negative number. A line end may follow it. -/
def isNegativeNumber (text : List Char) : Bool :=
  match withoutLineEnd text with
  | '-' :: rest =>
    let whole := rest.takeWhile Text.isDecimalDigit
    match rest.dropWhile Text.isDecimalDigit with
    | [] => !whole.isEmpty
    | '.' :: fraction => !fraction.isEmpty && fraction.all Text.isDecimalDigit
    | _ => false
  | _ => false

/-- A text up to its first equals sign, and what is behind the sign. -/
def splitEquals (text : List Char) : List Char × Option (List Char) :=
  match text.dropWhile (· != '=') with
  | _ :: value => (text.takeWhile (· != '='), some value)
  | [] => (text, none)

namespace Command

/-- The names of the switches, each with its switch. -/
def names (c : Command) : List (String × Switch) :=
  c.switches.flatMap fun s => s.names.map fun name => (name, s)

/-- The switches that a text can stand for, where it is no full name: by the start of a long name, or
by a short name with letters behind it. -/
def candidates (c : Command) (text : List Char) : List Named :=
  match text with
  | '-' :: '-' :: _ =>
    let (start, attached) := splitEquals text
    c.names.filterMap fun (name, s) =>
      if start.isPrefixOf name.toList then some ⟨s, name, attached⟩ else none
  | _ =>
    c.names.filterMap fun (name, s) =>
      if name.toList = text.take 2 then some ⟨s, name, some (text.drop 2)⟩
      else if text.isPrefixOf name.toList then some ⟨s, name, none⟩
      else none

/-- The switch with a full name, alone or in front of an equals sign. -/
def exact (c : Command) (text : String) : Option Named :=
  match c.names.lookup text with
  | some s => some ⟨s, text, none⟩
  | none =>
    let (name, attached) := splitEquals text.toList
    (c.names.lookup (String.ofList name)).map fun s => ⟨s, String.ofList name, attached⟩

/-- What an argument is, in front of two dashes. -/
def word (c : Command) (text : String) : Except Stop Word :=
  if !text.startsWith "-" || text == "-" then .ok (.plain text)
  else
    match c.exact text with
    | some n => .ok (.named text n)
    | none =>
      match c.candidates text.toList with
      | [n] => .ok (.named text n)
      | [] =>
        if isNegativeNumber text.toList || text.contains ' ' then .ok (.plain text)
        else .ok (.unknown text)
      | many => .error (.error ("ambiguous option: " ++ text ++ " could match " ++
          Text.join ", " (many.map fun n => n.name)))

/-- The arguments told apart. -/
def words (c : Command) : List String → Except Stop (List Word)
  | [] => .ok []
  | "--" :: rest => .ok (.dashes :: rest.map .plain)
  | text :: rest => do return (← c.word text) :: (← c.words rest)

end Command

/-! ### Sorting arguments -/

/-- The arguments of a command, sorted. -/
structure Sorted where
  /-- The switches in order, each with its value. -/
  switches : List (Switch × Option String)
  /-- The plain arguments that have a place. -/
  plain : List String
  /-- What is left over. -/
  left : List String

namespace Sorted

/-- Whether a switch with a name was given. -/
def has (s : Sorted) (name : String) : Bool := s.switches.any fun (w, _) => w.names.contains name

/-- The values given to a switch, in order. -/
def values (s : Sorted) (name : String) : List String :=
  s.switches.filterMap fun (w, v) => if w.names.contains name then v else none

end Sorted

/-- An error about a switch. -/
def Switch.error (s : Switch) (message : Text) : Stop :=
  .error ("argument " ++ "/".intercalate s.names ++ ": " ++ message)

/-- A switch that takes no value was given one. -/
def Switch.ignored (s : Switch) (value : List Char) : Stop :=
  s.error ("ignored explicit argument " ++ (Text.ofChars value).quoted)

namespace Command

/-- Switches that are named in one argument: all but the last take no value, and the last one may have
its value there. -/
structure Bundle where
  flags : List Switch
  last : Switch
  value : Option (List Char)

/-- The switches that a short name and the letters behind it stand for. -/
def bundle (c : Command) (s : Switch) : List Char → Except Stop Bundle
  | [] => .ok ⟨[], s, none⟩
  | letter :: rest =>
    if s.effect = .value then .ok ⟨[], s, some (letter :: rest)⟩
    else
      match c.names.lookup (String.ofList ['-', letter]) with
      | none => .error (s.ignored (letter :: rest))
      | some next => do
        let b ← c.bundle next rest
        return { b with flags := s :: b.flags }

/-- Whether a name is a short one: a dash and something else. -/
def isShort (name : String) : Bool := !name.startsWith "--"

/-- The switches that are named in one argument. -/
def named (c : Command) (n : Named) : Except Stop Bundle :=
  match n.attached with
  | none => .ok ⟨[], n.switch, none⟩
  | some text =>
    if n.switch.effect = .value then .ok ⟨[], n.switch, some text⟩
    else if isShort n.name && !text.isEmpty then c.bundle n.switch text
    else .error (n.switch.ignored text)

/-- Adds switches, unless one of them asks for help. -/
def give (sorted : Sorted) (given : List (Switch × Option String)) : Except Stop Sorted :=
  if given.any fun (s, _) => s.effect = .help then .error .help
  else .ok { sorted with switches := sorted.switches ++ given }

/-- Sorts arguments, behind those that are sorted. -/
def sort (c : Command) : List Word → Sorted → Except Stop Sorted
  | [], s => .ok s
  | .unknown text :: ws, s => c.sort ws { s with left := s.left ++ [text] }
  | .named _ n :: ws, s => do
    let b ← c.named n
    let flags := b.flags.map fun s => (s, none)
    match b.last.effect, b.value with
    | .value, some text => c.sort ws (← give s (flags ++ [(b.last, some (String.ofList text))]))
    | .value, none =>
      match ws with
      | .plain value :: ws => c.sort ws (← give s (flags ++ [(b.last, some value)]))
      | _ => .error (b.last.error "expected one argument")
    | _, _ => c.sort ws (← give s (flags ++ [(b.last, none)]))
  | .plain text :: ws, s =>
    if !s.plain.isEmpty then c.sort ws { s with left := s.left ++ [text] }
    else
      match c.place with
      | .rest => .ok { s with plain := text :: ws.map Word.text }
      | .one =>
        match ws with
        | .dashes :: ws => c.sort ws { s with plain := [text] }
        | ws => c.sort ws { s with plain := [text] }
  | .dashes :: ws, s =>
    match s.plain, ws with
    | [], .plain text :: ws =>
      match c.place with
      | .rest => .ok { s with plain := "--" :: text :: ws.map Word.text }
      | .one => c.sort ws { s with plain := [text] }
    | _, ws => c.sort ws { s with left := s.left ++ ["--"] }

/-- The arguments of a command, sorted. -/
def arguments (c : Command) (args : List String) : Except Stop Sorted := do
  c.sort (← c.words args) ⟨[], [], []⟩

end Command

end FreeNames.CommandLine
