import FreeNames.Grammar.RegExp.Symbol

/-!
# Reading a pattern

What is known of a pattern while it is read: how many code points its groups can match, which names
they have, and which flags are on. `Reading` reads symbols under that knowledge and fails where the
pattern is not well formed. The smaller parts of a pattern follow: digits, escapes, character classes
and the counts of quantifiers.
-/

namespace FreeNames.Grammar.RegExp

/-- The least and the most code points that a part of a pattern matches. -/
structure Width where
  low : Nat
  high : Nat
  deriving DecidableEq, Repr, Inhabited

namespace Width

/-- Beyond this width it is only known that there is no bound. -/
def most : Nat := Nat.pow 2 64

/-- Nothing is matched. -/
def zero : Width := ⟨0, 0⟩

/-- One code point is matched. -/
def one : Width := ⟨1, 1⟩

/-- One part after another. -/
def append (a b : Width) : Width := ⟨min (a.low + b.low) most, min (a.high + b.high) most⟩

instance : Append Width := ⟨append⟩

/-- One part or another. -/
def either (a b : Width) : Width := ⟨min a.low b.low, max a.high b.high⟩

/-- A part a number of times, without a bound if there is no most. -/
def times (w : Width) (least : Nat) (greatest : Option Nat) : Width :=
  ⟨min (w.low * least) most,
    match greatest with
    | some n => min (w.high * n) most
    | none => if w.high = 0 then 0 else most⟩

end Width

/-- What is known of a pattern while it is read. -/
structure Draft where
  /-- The symbols that are still to be read. -/
  rest : List Symbol
  /-- The groups in order, each with its width once it is closed. -/
  groups : Array (Option Width) := #[]
  names : List (List Symbol × Nat) := []
  /-- How many groups there were when the outermost lookbehind began, inside of one. -/
  beforeLookbehind : Option Nat := none
  /-- The groups, by number, on which a choice in the pattern depends. -/
  conditions : List Nat := []
  /-- Flags of the whole pattern. -/
  flags : List Char := []
  hasQuantifier : Bool := false

/-- Reading symbols. -/
abbrev Reading := StateT Draft Option

namespace Reading

/-- Asks that something hold. -/
def ensure (b : Bool) : Reading Unit := if b then pure () else failure

/-- The next symbol. -/
def ahead : Reading (Option Symbol) := return (← get).rest.head?

/-- Whether the next symbol is a given character. -/
def isNext (c : Char) : Reading Bool := return (← ahead).any fun s => s.is c

/-- Reads a symbol, which has to be there. -/
def take : Reading Symbol := do
  match (← get).rest with
  | [] => failure
  | s :: rest =>
    modify fun d => { d with rest := rest }
    return s

/-- Whether the next symbol is a given character, which is then read. -/
def takes (c : Char) : Reading Bool := do
  if ← isNext c then
    let _ ← take
    return true
  else return false

/-- Reads a given character. -/
def expect (c : Char) : Reading Unit := do ensure (← takes c)

/-- Reads the characters that satisfy a test, at most a number of them. -/
def takeWhile (test : Char → Bool) (most : Nat) : Reading (List Char) := modifyGet fun d =>
  let cs := ((d.rest.take most).takeWhile fun s => s.satisfies test).filterMap Symbol.char?
  (cs, { d with rest := d.rest.drop cs.length })

/-- Reads the symbols up to a given character, which is read too. There has to be one. -/
def takeUntil (c : Char) : Reading (List Symbol) := do
  let d ← get
  let symbols := d.rest.takeWhile fun s => !s.is c
  set { d with rest := d.rest.drop symbols.length }
  expect c
  ensure (!symbols.isEmpty)
  return symbols

/-- Reads exactly a number of hexadecimal digits. -/
def hexCode (count : Nat) : Reading Nat := do
  let digits ← takeWhile Text.isHexDigit count
  ensure (digits.length = count)
  return Text.digitsValue 16 digits

/-! ### Groups -/

/-- The width of a group by its number; none while the group is open or if there is no such group. -/
def groupWidth? (d : Draft) (group : Nat) : Option Width :=
  if group = 0 then none else (d.groups.getD (group - 1) none)

/-- Asks that a group can be referred to from inside a lookbehind: it was closed in front of it. -/
def ensureBeforeLookbehind (group : Nat) : Reading Unit := do
  let d ← get
  match d.beforeLookbehind with
  | none => pure ()
  | some count => ensure ((groupWidth? d group).isSome && group ≤ count)

/-- A reference to a closed group: what it matches. -/
def reference (group : Nat) : Reading Width := do
  match groupWidth? (← get) group with
  | none => failure
  | some w =>
    ensureBeforeLookbehind group
    return w

/-- Opens a group: its number. -/
def openGroup (name : Option (List Symbol)) : Reading Nat := do
  let d ← get
  let group := d.groups.size + 1
  let names ← match name with
    | none => pure d.names
    | some name =>
      ensure ((d.names.lookup name).isNone)
      pure ((name, group) :: d.names)
  set { d with groups := d.groups.push none, names := names }
  return group

/-- Closes a group. -/
def closeGroup (group : Nat) (w : Width) : Reading Unit :=
  modify fun d => { d with groups := d.groups.setIfInBounds (group - 1) (some w) }

/-- Whether symbols make up the name of a group: a letter or an underscore, then also digits. -/
def isGroupName (symbols : List Symbol) : Bool :=
  let isPart (c : Char) : Bool := Text.isIdentifierPart c && c ≠ '$' && c ≠ '\\'
  match symbols with
  | [] => false
  | first :: rest =>
    first.satisfies (fun c => Text.isIdentifierStart c && isPart c) &&
      rest.all fun s => s.satisfies isPart

/-- Reads the name of a group up to a given character. -/
def groupName (close : Char) : Reading (List Symbol) := do
  let name ← takeUntil close
  ensure (isGroupName name)
  return name

/-- The number of the group with a name. -/
def groupNamed (name : List Symbol) : Reading Nat := do
  match (← get).names.lookup name with
  | some group => return group
  | none => failure

/-! ### Escapes -/

/-- Letters that stand for a control character behind a backslash. -/
def controlCode? (c : Char) : Option Nat :=
  match c with
  | 'a' => some 7
  | 'b' => some 8
  | 'f' => some 12
  | 'n' => some 10
  | 'r' => some 13
  | 't' => some 9
  | 'v' => some 11
  | _ => none

/-- Letters that stand for a set of characters behind a backslash. -/
def isSetLetter (c : Char) : Bool := "dDsSwW".contains c

/-- Letters that stand for a place behind a backslash, outside a class. -/
def isPlaceLetter (c : Char) : Bool := "AbBZ".contains c

/-- Reads the digits of an escape that gives a code in hexadecimal, behind its letter. -/
def hexEscape (letter : Char) : Reading Nat := do
  if letter = 'x' then hexCode 2
  else if letter = 'u' then hexCode 4
  else
    ensure (letter = 'U')
    let code ← hexCode 8
    ensure (code ≤ 0x10ffff)
    return code

/-- Reads the rest of an escape in a class, behind the code point at its backslash: the code that it
stands for, or none for a set of them. -/
def classEscape (p : CodePoint) : Reading (Option Nat) := do
  match p.char? with
  | none => return some p.val
  | some c =>
    if isSetLetter c then return none
    else if let some code := controlCode? c then return some code
    else if c.isAlpha then return some (← hexEscape c)
    else if Text.isOctalDigit c then
      let digits ← takeWhile Text.isOctalDigit 2
      let code := Text.digitsValue 8 (c :: digits)
      ensure (code ≤ 0xff)
      return some code
    else
      ensure (!c.isDigit)
      return some p.val

/-- Reads the rest of an escape by digits outside a class, behind its first digit: an octal code, or a
reference to a group. -/
def digitEscape (first : Char) : Reading Width := do
  if first = '0' then
    let _ ← takeWhile Text.isOctalDigit 2
    return .one
  else
    match ← takeWhile Char.isDigit 1 with
    | [second] =>
      let isOctal := Text.isOctalDigit first && Text.isOctalDigit second
      let third ← if isOctal then takeWhile Text.isOctalDigit 1 else pure []
      if third.isEmpty then reference (Text.digitsValue 10 [first, second])
      else
        ensure (Text.digitsValue 8 (first :: second :: third) ≤ 0xff)
        return .one
    | _ => reference (Text.digitsValue 10 [first])

/-- Reads the rest of an escape outside a class, behind the code point at its backslash: what it
matches, or none if it stands for a place. -/
def escape (p : CodePoint) : Reading (Option Width) := do
  match p.char? with
  | none => return some .one
  | some c =>
    if isPlaceLetter c then return none
    else if isSetLetter c || (controlCode? c).isSome then return some .one
    else if c.isAlpha then
      let _ ← hexEscape c
      return some .one
    else if c.isDigit then return some (← digitEscape c)
    else return some .one

/-! ### Classes -/

/-- Reads a member of a class that begins with a symbol: its code, or none for a set. -/
def classMember : Symbol → Reading (Option Nat)
  | .plain p => return some p.val
  | .escaped p => classEscape p

/-- Reads a class up to its closing bracket, which closes nothing if it comes first. The ends of a
range have to be in order. -/
def classBody (isFirst : Bool) : Nat → Reading Unit
  | 0 => failure
  | n + 1 => do
    let s ← take
    if !isFirst && s.is ']' then return
    let low ← classMember s
    if ← takes '-' then
      let t ← take
      if t.is ']' then return
      match low, ← classMember t with
      | some a, some b => ensure (a ≤ b)
      | _, _ => failure
    classBody false n

/-- Reads a class behind its opening bracket. -/
def charClass : Reading Unit := do
  let _ ← takes '^'
  classBody true ((← get).rest.length + 1)

/-! ### Quantifiers -/

/-- A number of times that is given by digits has to be below this. -/
def repeatLimit : Nat := 4294967295

/-- How often a quantifier repeats: at least, and at most if there is a bound. -/
structure Count where
  least : Nat
  greatest : Option Nat

/-- The number of times that digits give, if there are any. -/
def countOf (digits : List Char) : Reading (Option Nat) := do
  if digits.isEmpty then return none
  let n := Text.digitsValue 10 digits
  ensure (n < repeatLimit)
  return some n

/-- Reads the counts of a quantifier behind its brace. None if the brace stands for itself, in which
case nothing is read. -/
def counts : Reading (Option Count) := do
  let d ← get
  if ← isNext '}' then return none
  let low ← takeWhile Char.isDigit d.rest.length
  let high ← if ← takes ',' then takeWhile Char.isDigit d.rest.length else pure low
  if !(← takes '}') then
    set d
    return none
  let least := (← countOf low).getD 0
  let greatest ← countOf high
  ensure (greatest.all fun n => least ≤ n)
  return some ⟨least, greatest⟩

end Reading

end FreeNames.Grammar.RegExp
