import FreeNames.Grammar.Complaint
import FreeNames.Grammar.RegExp
import FreeNames.Grammar.Token
import FreeNames.Number.Double

/-!
# From text to tokens

The scanner goes through the characters of a program text and reads one token at a time. Where it
finds a fault, it either refuses the text or, if it is tolerant, records the fault and goes on; a few
faults are refused always. Whether a slash begins a regular expression depends on the grammar, so
those are read on demand.

A template is read in pieces. The scanner keeps a stack of open braces, to know whether a closing
brace ends a substitution and the template goes on behind it.
-/

namespace FreeNames.Grammar

/-- An open brace. -/
inductive Brace where
  | plain
  | substitution
  deriving DecidableEq, Repr, Inhabited

/-- The state of reading tokens. -/
structure Scanner where
  text : Array Char
  tolerant : Bool
  isModule : Bool
  index : Nat
  line : Nat
  lineStart : Nat
  braces : List Brace
  /-- Faults that were passed over, in order. -/
  passed : Array SyntaxError
  deriving Inhabited

/-- Reading that may fail. -/
abbrev Lex (α : Type) := StateT Scanner (Except Failure) α

namespace Scanner

/-- The scanner before the first character. An empty text has no first line. -/
def ofText (text : String) (tolerant : Bool) : Scanner where
  text := text.toList.toArray
  tolerant := tolerant
  isModule := false
  index := 0
  line := if text.isEmpty then 0 else 1
  lineStart := 0
  braces := []
  passed := #[]

/-- Whether all characters are read. -/
def atEnd (s : Scanner) : Bool := s.index ≥ s.text.size

/-- A character ahead; behind the text there are only NULs. -/
def ahead (s : Scanner) (k : Nat) : Char := s.text.getD (s.index + k) '\x00'

/-- The next character. -/
def next (s : Scanner) : Char := s.ahead 0

/-- The characters from one place to another. -/
def slice (s : Scanner) (start stop : Nat) : String := String.ofList (s.text.extract start stop).toList

/-- The scanner some characters further, on the same line. -/
def skip (s : Scanner) (k : Nat) : Scanner := { s with index := s.index + k }

/-- The first place from `i` on whose character fails a test. -/
def spanFrom (text : Array Char) (test : Char → Bool) (i : Nat) : Nat :=
  if h : i < text.size then
    if test text[i] then spanFrom text test (i + 1) else i
  else i
termination_by text.size - i

/-- The first place from here on whose character fails a test. -/
def span (s : Scanner) (test : Char → Bool) : Nat := spanFrom s.text test s.index

/-- The scanner at the start of the line behind a line end, of which `c` has been read. -/
def newLine (s : Scanner) (c : Char) : Scanner :=
  let index := if c = '\r' && s.next = '\n' then s.index + 1 else s.index
  { s with index := index, line := s.line + 1, lineStart := index }

/-- More than the steps that any loop over the rest of the text takes. -/
def steps (s : Scanner) : Nat := s.text.size + 2

/-- A complaint about this place. -/
def errorHere (s : Scanner) (complaint : Complaint) : SyntaxError :=
  ⟨s.line, (s.index : Int) - s.lineStart + 1, complaint⟩

/-- A token from a place up to here. -/
def token (s : Scanner) (lexeme : Lexeme) (start : Nat) : Token :=
  ⟨lexeme, s.line, s.lineStart, start, s.index⟩

end Scanner

namespace Lex

/-- Refuses the text at this place. -/
def refuse {α : Type} (complaint : Complaint) : Lex α := do
  throw (.refused ((← get).errorHere complaint))

/-- Passes over a fault if the scanner is tolerant, else refuses the text. -/
def pass (error : SyntaxError) : Lex Unit := do
  if (← get).tolerant then modify fun s => { s with passed := s.passed.push error }
  else throw (.refused error)

/-- Passes over a fault at this place. -/
def passHere (complaint : Complaint) : Lex Unit := do pass ((← get).errorHere complaint)

/-- Reads one character. -/
def take : Lex Char := modifyGet fun s => (s.next, s.skip 1)

/-- Reads the characters that satisfy a test. -/
def takeWhile (test : Char → Bool) : Lex (List Char) := modifyGet fun s =>
  let stop := s.span test
  ((s.text.extract s.index stop).toList, { s with index := stop })

/-! ### Blanks and comments -/

/-- Skips the rest of the line and its end. -/
def lineComment : Lex Unit := modify fun s =>
  let s := { s with index := s.span fun c => !Text.isLineEnd c }
  if s.atEnd then s else (s.skip 1).newLine s.next

/-- Skips to the end of a comment in stars. -/
def blockComment : Nat → Lex Unit
  | 0 => throw .outOfSteps
  | n + 1 => do
    modify fun s => { s with index := s.span fun c => !Text.isLineEnd c && c != '*' }
    let s ← get
    if s.atEnd then passHere .illegal
    else if Text.isLineEnd s.next then
      set ((s.skip 1).newLine s.next)
      blockComment n
    else if s.ahead 1 = '/' then set (s.skip 2)
    else
      set (s.skip 1)
      blockComment n

/-- Skips blanks, line ends and comments. `fresh` says that the line holds nothing else so far. -/
def blanksFrom (fresh : Bool) : Nat → Lex Unit
  | 0 => throw .outOfSteps
  | n + 1 => do
    let s ← get
    if s.atEnd then return
    let c := s.next
    if Text.isBlank c then
      set (s.skip 1)
      blanksFrom fresh n
    else if Text.isLineEnd c then
      set ((s.skip 1).newLine c)
      blanksFrom true n
    else if c = '/' && s.ahead 1 = '/' then
      set (s.skip 2)
      lineComment
      blanksFrom true n
    else if c = '/' && s.ahead 1 = '*' then
      set (s.skip 2)
      blockComment s.steps
      blanksFrom fresh n
    else if fresh && c = '-' && s.ahead 1 = '-' && s.ahead 2 = '>' then
      set (s.skip 3)
      lineComment
      blanksFrom fresh n
    else if c = '<' && !s.isModule && s.ahead 1 = '!' && s.ahead 2 = '-' && s.ahead 3 = '-' then
      set (s.skip 4)
      lineComment
      blanksFrom fresh n

/-- Skips blanks, line ends and comments. -/
def blanks : Lex Unit := do
  let s ← get
  blanksFrom (s.index = 0) s.steps

/-! ### Escapes -/

/-- Reads hexadecimal digits of an escape, exactly `count` of them. The digits that are there are
read also when they are too few. -/
def hexEscape (count : Nat) : Lex (Option Nat) := do
  let s ← get
  let digits := ((s.text.extract s.index (s.index + count)).toList).takeWhile Text.isHexDigit
  set (s.skip digits.length)
  return if digits.length = count then some (Text.digitsValue 16 digits) else none

/-- Reads an escape in braces, behind the opening one. -/
def braceEscape : Lex CodePoint := do
  if (← get).next = '}' then refuse .illegal
  let digits ← takeWhile Text.isHexDigit
  let close ← if (← get).atEnd then pure '\x00' else take
  let code := Text.digitsValue 16 digits
  if code > 0x10ffff || close ≠ '}' then refuse .illegal
  return .ofNat code

/-! ### Words -/

/-- Reads the escape of an identifier character behind its backslash. -/
def identifierEscape (accepts : Char → Bool) : Lex CodePoint := do
  if (← take) ≠ 'u' then
    modify fun s => { s with index := s.index - 1 }
    refuse .illegal
  if (← get).next = '{' then
    modify (·.skip 1)
    braceEscape
  else
    match ← hexEscape 4 with
    | some code =>
      if code = '\\'.toNat || !accepts (Char.ofNat code) then refuse .illegal
      return .ofNat code
    | none => refuse .illegal

/-- Reads one character of an identifier, or the escape of one. -/
def identifierPoint (accepts : Char → Bool) : Lex CodePoint := do
  let c ← take
  if c = '\\' then identifierEscape accepts else return .ofChar c

/-- Reads the rest of an identifier with escapes. -/
def escapedIdentifier (points : List CodePoint) : Nat → Lex (List CodePoint)
  | 0 => throw .outOfSteps
  | n + 1 => do
    let s ← get
    if s.atEnd || !Text.isIdentifierPart s.next then return points.reverse
    escapedIdentifier ((← identifierPoint Text.isIdentifierPart) :: points) n

/-- Reads an identifier: its name and how many code points the name has. -/
def identifierName : Lex (Text × Nat) := do
  let s ← get
  let plain := fun c => Text.isIdentifierPart c && c != '\\'
  let stop := Scanner.spanFrom s.text plain (s.index + 1)
  if s.next ≠ '\\' && s.text.getD stop '\x00' ≠ '\\' then
    set { s with index := stop }
    return (s.slice s.index stop, stop - s.index)
  else
    let first ← identifierPoint Text.isIdentifierStart
    let points ← escapedIdentifier [first] s.steps
    return (⟨points⟩, points.length)

/-- The lexeme of a word. -/
def wordLexeme (name : Text) : Lexeme :=
  match name.string? with
  | some "null" => .nullWord
  | some "true" => .boolean true
  | some "false" => .boolean false
  | some word => if keywords.contains word then .keyword word else .identifier name
  | none => .identifier name

/-- Reads a word. A reserved word must not be written with escapes. -/
def word : Lex Token := do
  let start := (← get).index
  let (name, length) ← identifierName
  let lexeme := wordLexeme name
  let s ← get
  match lexeme with
  | .identifier _ => pure ()
  | _ =>
    if start + length ≠ s.index then
      pass (Scanner.errorHere { s with index := start } .escapedKeyword)
  return (← get).token lexeme start

/-! ### Marks -/

/-- The longest mark at the start of four characters. -/
def markOf (a b c d : Char) : Option String :=
  let one := String.ofList [a]
  let two := String.ofList [a, b]
  let three := String.ofList [a, b, c]
  let four := String.ofList [a, b, c, d]
  if ["(", ")", ";", ",", "[", "]", ":", "?", "~", leftBrace, rightBrace].contains one then some one
  else if a = '.' then some (if b = '.' && c = '.' then three else one)
  else if four == ">>>=" then some four
  else if ["===", "!==", ">>>", "<<=", ">>=", "**="].contains three then some three
  else if ["&&", "||", "==", "!=", "+=", "-=", "*=", "/=", "++", "--", "<<", ">>", "&=", "|=", "^=",
      "%=", "<=", ">=", "=>", "**"].contains two then some two
  else if ["<", ">", "=", "!", "+", "-", "*", "%", "&", "|", "^", "/"].contains one then some one
  else none

/-- Reads a mark and keeps account of the braces. -/
def mark : Lex Token := do
  let s ← get
  match markOf s.next (s.ahead 1) (s.ahead 2) (s.ahead 3) with
  | none => refuse .illegal
  | some text =>
    let braces :=
      if text == leftBrace then .plain :: s.braces
      else if text == rightBrace then s.braces.drop 1
      else s.braces
    let s := { s.skip text.length with braces := braces }
    set s
    return s.token (.punctuator text) (s.index - text.length)

/-! ### Numbers -/

/-- The token of a number that was read from `start` on. -/
def numberToken (start : Nat) (value : Value) (octal : Bool) : Lex Token := do
  return (← get).token (.number value octal) start

/-- Reads the digits of a number with a base mark, which was read. -/
def basedNumber (start base : Nat) (isDigit : Char → Bool) : Lex Token := do
  let digits ← takeWhile isDigit
  if digits.isEmpty then refuse .illegal
  let c := (← get).next
  if Text.isIdentifierStart c || c.isDigit then refuse .illegal
  numberToken start (.int (Text.digitsValue base digits)) false

/-- Reads the digits of a number in the old octal notation. -/
def oldOctalNumber (start : Nat) : Lex Token := do
  let digits ← takeWhile Text.isOctalDigit
  let c := (← get).next
  if Text.isIdentifierStart c || c.isDigit then refuse .illegal
  numberToken start (.int (Text.digitsValue 8 digits)) true

/-- Whether the digits from the second one behind a zero on are all octal. -/
def isOldOctal (s : Scanner) : Bool :=
  let digits := (s.text.extract (s.index + 1) (Scanner.spanFrom s.text Char.isDigit (s.index + 1))).toList
  digits.all Text.isOctalDigit

/-- The number `digits * 10 ^ exponent` as a double, written as a whole number if it is one. -/
def decimalValue (digits : List Char) (exponent : Int) : Value :=
  let bits := Double.ofDecimal (Text.digitsValue 10 digits) exponent
  match Double.toInt? bits with
  | some n => .int n
  | none => .float bits

/-- Reads the exponent of a decimal number, if there is one. -/
def exponent : Lex Int := do
  let s ← get
  if s.next = 'e' || s.next = 'E' then
    let sign := s.ahead 1
    set (s.skip (if sign = '+' || sign = '-' then 2 else 1))
    let digits ← takeWhile Char.isDigit
    if digits.isEmpty then refuse .illegal
    let n : Int := Text.digitsValue 10 digits
    return if sign = '-' then -n else n
  else return 0

/-- Reads a decimal number. -/
def decimalNumber (start : Nat) : Lex Token := do
  let whole ← takeWhile Char.isDigit
  let fraction ← do
    if (← get).next = '.' then
      modify (·.skip 1)
      takeWhile Char.isDigit
    else pure []
  let exponent ← exponent
  if Text.isIdentifierStart (← get).next then refuse .illegal
  numberToken start (decimalValue (whole ++ fraction) (exponent - fraction.length)) false

/-- Reads a number. -/
def number : Lex Token := do
  let s ← get
  let start := s.index
  let c := s.ahead 1
  if s.next = '0' && (c = 'x' || c = 'X') then
    set (s.skip 2)
    let digits ← takeWhile Text.isHexDigit
    if digits.isEmpty || Text.isIdentifierStart (← get).next then refuse .illegal
    numberToken start (.int (Text.digitsValue 16 digits)) false
  else if s.next = '0' && (c = 'b' || c = 'B') then
    set (s.skip 2)
    basedNumber start 2 Text.isBinaryDigit
  else if s.next = '0' && (c = 'o' || c = 'O') then
    set (s.skip 2)
    basedNumber start 8 Text.isOctalDigit
  else if s.next = '0' && Text.isOctalDigit c && isOldOctal (s.skip 1) then
    set (s.skip 1)
    oldOctalNumber start
  else decimalNumber start

/-! ### Strings -/

/-- The character that a character stands for behind a backslash. -/
def plainEscape (c : Char) : CodePoint :=
  match c with
  | 'n' => .ofChar '\n'
  | 'r' => .ofChar '\r'
  | 't' => .ofChar '\t'
  | 'b' => .ofChar '\x08'
  | 'f' => .ofChar '\x0c'
  | 'v' => .ofChar '\x0b'
  | c => .ofChar c

/-- Reads the rest of an octal escape behind its first digit: its code, and whether it is more than
a plain zero. -/
def octalEscape (first : Char) : Lex (Nat × Bool) := do
  let s ← get
  let most := if first ≤ '3' then 2 else 1
  let digits := ((s.text.extract s.index (s.index + most)).toList).takeWhile Text.isOctalDigit
  set (s.skip digits.length)
  return (Text.digitsValue 8 (first :: digits), first ≠ '0' || !digits.isEmpty)

/-- Reads the rest of an escape in a string, behind the backslash: what it stands for, and whether it
is octal. -/
def stringEscape : Lex (List CodePoint × Bool) := do
  let c ← take
  if Text.isLineEnd c then
    modify (·.newLine c)
    return ([], false)
  else if c = 'u' then
    if (← get).next = '{' then
      modify (·.skip 1)
      return ([← braceEscape], false)
    else
      match ← hexEscape 4 with
      | some code => return ([.ofNat code], false)
      | none => refuse .illegal
  else if c = 'x' then
    match ← hexEscape 2 with
    | some code => return ([.ofNat code], false)
    | none => refuse .badHexEscape
  else if c = '8' || c = '9' then
    passHere .illegal
    return ([.ofChar c], false)
  else if Text.isOctalDigit c then
    let (code, octal) ← octalEscape c
    return ([.ofNat code], octal)
  else return ([plainEscape c], false)

/-- Reads the rest of a string up to its closing quote: its code points, latest first, and whether an
octal escape is among them. None if the string does not end on its line. -/
def stringBody (quote : Char) (points : List CodePoint) (octal : Bool) :
    Nat → Lex (Option (List CodePoint × Bool))
  | 0 => throw .outOfSteps
  | n + 1 => do
    if (← get).atEnd then return none
    let c ← take
    if c = quote then return some (points, octal)
    else if c = '\\' then
      let (more, isOctal) ← stringEscape
      stringBody quote (more ++ points) (isOctal || octal) n
    else if Text.isLineEnd c then return none
    else stringBody quote (.ofChar c :: points) octal n

/-- Reads a string. -/
def string : Lex Token := do
  let start := (← get).index
  let quote ← take
  match ← stringBody quote [] false (← get).steps with
  | some (points, octal) => return (← get).token (.string ⟨points.reverse⟩ octal) start
  | none =>
    modify fun s => { s with index := start }
    refuse .illegal

/-! ### Templates -/

/-- Reads the rest of an escape in a template, behind the backslash. -/
def templateEscape : Lex (List CodePoint) := do
  let c ← take
  if Text.isLineEnd c then
    modify (·.newLine c)
    return []
  else if c = 'u' then
    let s ← get
    if s.next = '{' then
      set (s.skip 1)
      return [← braceEscape]
    else
      match ← hexEscape 4 with
      | some code => return [.ofNat code]
      | none =>
        set s
        return [.ofChar c]
  else if c = 'x' then
    match ← hexEscape 2 with
    | some code => return [.ofNat code]
    | none => refuse .badHexEscape
  else if c = '0' then
    if (← get).next.isDigit then refuse .octalInTemplate
    return [.ofNat 0]
  else if Text.isOctalDigit c then refuse .octalInTemplate
  else return [plainEscape c]

/-- Reads a piece of a template up to its end: its code points, latest first, and whether the
template ends here. -/
def templateBody (points : List CodePoint) : Nat → Lex (List CodePoint × Bool)
  | 0 => throw .outOfSteps
  | n + 1 => do
    if (← get).atEnd then refuse .illegal
    let c ← take
    if c = '\x60' then return (points, true)
    else if c = '$' && (← get).next = '{' then
      modify (·.skip 1)
      return (points, false)
    else if c = '\\' then
      let more ← templateEscape
      templateBody (more ++ points) n
    else if Text.isLineEnd c then
      modify (·.newLine c)
      templateBody (.ofChar '\n' :: points) n
    else templateBody (.ofChar c :: points) n

/-- Reads a piece of a template. -/
def template : Lex Token := do
  let start := (← get).index
  let head := (← take) = '\x60'
  let (points, tail) ← templateBody [] (← get).steps
  modify fun s =>
    let braces := if head then s.braces else s.braces.drop 1
    { s with braces := if tail then braces else .substitution :: braces }
  let s ← get
  let raw := s.slice (start + 1) (s.index - if tail then 1 else 2)
  return s.token (.template raw ⟨points.reverse⟩ head tail) start

/-! ### Regular expressions -/

/-- Reads the pattern of a regular expression behind its slash. -/
def patternBody (inClass : Bool) : Nat → Lex Unit
  | 0 => throw .outOfSteps
  | n + 1 => do
    if (← get).atEnd then refuse .unterminatedRegExp
    let c ← take
    if c = '\\' then
      if Text.isLineEnd (← take) then refuse .unterminatedRegExp
      patternBody inClass n
    else if Text.isLineEnd c then refuse .unterminatedRegExp
    else if inClass then patternBody (c ≠ ']') n
    else if c = '/' then return
    else patternBody (c = '[') n

/-- Reads the flags of a regular expression. -/
def flags (points : List CodePoint) : Nat → Lex (List CodePoint)
  | 0 => throw .outOfSteps
  | n + 1 => do
    let s ← get
    if s.atEnd || !Text.isIdentifierPart s.next then return points.reverse
    set (s.skip 1)
    if s.next = '\\' && !(s.skip 1).atEnd then
      if s.ahead 1 = 'u' then
        set (s.skip 2)
        match ← hexEscape 4 with
        | some code =>
          passHere .illegal
          flags (.ofNat code :: points) n
        | none =>
          modify fun t => { t with index := s.index + 2 }
          passHere .illegal
          flags (.ofChar 'u' :: points) n
      else
        passHere .illegal
        flags points n
    else flags (.ofChar s.next :: points) n

/-- Reads a regular expression, whose slash is the next character. Each escape in the pattern that
spells no code point is a fault, and a pattern that is not well formed is one more. -/
def regExp : Lex Token := do
  let start := (← get).index
  modify (·.skip 1)
  patternBody false (← get).steps
  let s ← get
  let pattern := s.slice (start + 1) (s.index - 1)
  let flags ← flags [] s.steps
  for _ in RegExp.badEscapes pattern do passHere .badRegExp
  if !RegExp.isWellFormed pattern then passHere .badRegExp
  return (← get).token (.regExp pattern ⟨flags⟩) start

/-! ### Tokens -/

/-- Reads the token at this place. -/
def token : Lex Token := do
  let s ← get
  if s.atEnd then return s.token .endOfText s.index
  let c := s.next
  if Text.isIdentifierStart c then word
  else if c = '"' || c = '\x27' then string
  else if c.isDigit || (c = '.' && (s.ahead 1).isDigit) then number
  else if c = '\x60' || (c = '}' && s.braces.head? == some .substitution) then template
  else mark

end Lex

end FreeNames.Grammar
