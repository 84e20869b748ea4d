import FreeNames.Grammar.Scanner
import FreeNames.Options
import FreeNames.Tree.Kind

/-!
# Reading by grammar rules

A grammar rule is a `Parser`: it looks at one token ahead, reads tokens and makes a node. The rules
of a grammar call each other in circles; where a circle closes, a rule names its `Goal` and leaves
the reading to whoever runs it, so that every rule here is a plain definition. The run of a grammar
(in `Grammar.Program`) hands down goals with a number of steps that a text of its length cannot use
up.

Some texts can be told apart only at their end: `(a, b)` may turn out to be the parameters of an
arrow function and `[a, b]` the left side of an assignment. Such a text is read as an expression,
while the context notes whether it could be an assignment target or a binding, and whether it holds
an initializer that only a pattern may have. `isolated` and `inherited` say how a part hands its
notes to the whole.
-/

namespace FreeNames.Grammar

/-- A place in the text. -/
structure Mark where
  index : Nat
  line : Nat
  column : Int
  deriving Inhabited

/-- What holds where a rule is tried. -/
structure Context where
  strict : Bool := false
  /-- The word `await` is an operator. -/
  allowAwait : Bool := false
  /-- The word `in` is an operator. -/
  allowIn : Bool := true
  /-- A directive may turn on strict mode. -/
  allowStrictDirective : Bool := true
  /-- The word `yield` is a name. -/
  allowYield : Bool := true
  /-- What was read could be assigned to. -/
  isTarget : Bool := false
  /-- What was read could be a binding. -/
  isBinding : Bool := false
  /-- The initializer of a property, which only a pattern may have. -/
  initializer : Option Token := none
  inFunction : Bool := false
  inLoop : Bool := false
  inSwitch : Bool := false
  labels : List Text := []
  deriving Inhabited

/-- The state of reading a program. -/
structure State where
  scanner : Scanner
  options : Options
  /-- The next token. -/
  ahead : Token
  /-- Whether a line end stands before the next token. -/
  lineBreak : Bool
  /-- Where the next token starts. -/
  start : Mark
  /-- Where the last token ends. -/
  last : Mark
  context : Context
  /-- The names that the pattern being read binds so far. -/
  names : Array Token
  deriving Inhabited

/-- What can be asked for where the rules close a circle. -/
inductive Goal where
  | assignment
  | exponent
  | unary
  | call
  | member
  /-- A binding pattern of a declaration of this kind, or of a parameter. -/
  | pattern (kind : String)
  | statement
  | item
  deriving Inhabited

/-- Reading with a state, which may fail. -/
abbrev Reading := StateT State (Except Failure)

/-- A grammar rule: reading that can ask for goals. -/
abbrev Parser := ReaderT (Goal → Reading Value) Reading

namespace Parser

/-- Leaves the reading of a goal to the run of the grammar. -/
def ask (goal : Goal) : Parser Value := do (← read) goal

/-! ### Faults -/

/-- Refuses the text. -/
def refuse {α : Type} (error : SyntaxError) : Parser α := throw (.refused error)

/-- Runs the scanner. -/
def scan {α : Type} (lex : Lex α) : Parser α := fun _ s =>
  match lex.run s.scanner with
  | .ok (a, scanner) => .ok (a, { s with scanner := scanner })
  | .error e => .error e

/-- Passes over a fault if the reader is tolerant, else refuses the text. -/
def pass (error : SyntaxError) : Parser Unit := scan (Lex.pass error)

/-- A fault after the last token. -/
def faultAfterLast (complaint : Complaint) : Parser SyntaxError := do
  let last := (← get).last
  return ⟨last.line, last.column + 1, complaint⟩

/-- Refuses the text after the last token. -/
def refuseAfterLast {α : Type} (complaint : Complaint) : Parser α := do
  refuse (← faultAfterLast complaint)

/-- Passes over a fault after the last token; its line is the one where the next token ends. -/
def passAfterLast (complaint : Complaint) : Parser Unit := do
  let s ← get
  pass ⟨s.scanner.line, s.last.column + 1, complaint⟩

/-- What is said of a token that cannot stand where it stands. -/
def complaintOf (t : Token) : Parser Complaint := do
  match t.lexeme with
  | .endOfText => return .unexpectedEnd
  | .identifier _ => return .unexpectedIdentifier
  | .number .. => return .unexpectedNumber
  | .string .. => return .unexpectedString
  | .template raw .. => return .unexpectedTemplate raw
  | .keyword word =>
    if isFutureReserved word then return .unexpectedReserved
    else if (← get).context.strict && isStrictReserved word then return .strictReserved
    else return .unexpectedToken word
  | _ => return .unexpectedToken t.text

/-- A fault at a token. Columns count from the start of the line of the last token. -/
def faultAt (t : Token) (complaint : Complaint) : Parser SyntaxError := do
  let last := (← get).last
  return ⟨t.line, (t.start : Int) - (last.index - last.column) + 1, complaint⟩

/-- Refuses the text at a token. -/
def refuseAt {α : Type} (t : Token) (complaint : Complaint) : Parser α := do
  refuse (← faultAt t complaint)

/-- Refuses the text for a token that cannot stand where it stands. -/
def refuseToken {α : Type} (t : Token) : Parser α := do refuseAt t (← complaintOf t)

/-- Passes over a fault at a token. -/
def passAt (t : Token) (complaint : Complaint) : Parser Unit := do pass (← faultAt t complaint)

/-- Passes over a token that cannot stand where it stands. -/
def passToken (t : Token) : Parser Unit := do passAt t (← complaintOf t)

/-! ### Tokens -/

/-- The place that the scanner has reached. -/
def scannerMark (s : Scanner) : Mark := ⟨s.index, s.line, (s.index : Int) - s.lineStart⟩

/-- The next token. -/
def ahead : Parser Token := return (← get).ahead

/-- Reads a token and looks at the one after it. In strict mode more words are keywords. -/
def take : Parser Token := do
  let token ← ahead
  modify fun s => { s with last := scannerMark s.scanner }
  scan Lex.blanks
  modify fun s =>
    if s.scanner.index = s.start.index then s else { s with start := scannerMark s.scanner }
  let next ← scan Lex.token
  modify fun s =>
    let lexeme := match next.lexeme with
      | .identifier name =>
        if s.context.strict && isStrictReserved name then .keyword name.shown else .identifier name
      | other => other
    { s with ahead := { next with lexeme := lexeme }, lineBreak := token.line != next.line }
  return token

/-- Reads a regular expression where its slash was taken for a mark. -/
def takeRegExp : Parser Token := do
  modify fun s => { s with scanner := { s.scanner with index := s.start.index } }
  scan Lex.blanks
  let token ← scan Lex.regExp
  modify fun s => { s with ahead := token }
  take

/-- The token after the next one. The scanner goes back to its place, but braces and faults that it
met stay noted. -/
def peek : Parser Token := do
  let s := (← get).scanner
  let next ← scan (do Lex.blanks; Lex.token)
  scan (modify fun t => { t with index := s.index, line := s.line, lineStart := s.lineStart })
  return next

/-- Whether the next token is a given mark. -/
def isMark (mark : String) : Parser Bool := return (← ahead).isMark mark

/-- Whether the next token is one of some marks. -/
def isOneOfMarks (marks : List String) : Parser Bool := return marks.any (← ahead).isMark

/-- Whether the next token is a given keyword. -/
def isKeyword (word : String) : Parser Bool := return (← ahead).isKeyword word

/-- Whether the next token is an identifier that is special in some places. -/
def isWord (word : String) : Parser Bool := return (← ahead).isWord word

/-- Whether the text ends here. -/
def isEnd : Parser Bool := return (← ahead).isEnd

/-- Reads a given mark. -/
def expect (mark : String) : Parser Unit := do
  let token ← take
  if !token.isMark mark then refuseToken token

/-- Reads a given keyword. -/
def expectKeyword (word : String) : Parser Unit := do
  let token ← take
  if !token.isKeyword word then refuseToken token

/-- Whether the next token is a given mark, which is then read. -/
def takesMark (mark : String) : Parser Bool := do
  if ← isMark mark then
    let _ ← take
    return true
  else return false

/-- Whether the next token is a given keyword, which is then read. -/
def takesKeyword (word : String) : Parser Bool := do
  if ← isKeyword word then
    let _ ← take
    return true
  else return false

/-- Reads the comma between arguments or properties. A tolerant reader takes a semicolon for it, and
passes over a missing one. -/
def expectSeparator : Parser Unit := do
  if (← get).scanner.tolerant then
    let token ← ahead
    if token.isMark "," then let _ ← take
    else if token.isMark ";" then
      let _ ← take
      passToken token
    else passAt token (.unexpectedToken token.text)
  else expect ","

/-- Reads the end of a statement: a semicolon, or nothing before a line end, a closing brace or the
end of the text. -/
def endStatement : Parser Unit := do
  if ← isMark ";" then let _ ← take
  else if !(← get).lineBreak then
    if !(← isEnd) && !(← isMark rightBrace) then refuseToken (← ahead)
    modify fun s => { s with last := s.start }

/-- Whether the reader passes over faults. -/
def isTolerant : Parser Bool := return (← get).scanner.tolerant

/-- Whether a module is read. -/
def isModule : Parser Bool := return (← get).scanner.isModule

/-! ### Contexts -/

/-- What holds here. -/
def context : Parser Context := return (← get).context

/-- Changes what holds here. -/
def change (f : Context → Context) : Parser Unit :=
  modify fun s => { s with context := f s.context }

/-- What was read can be neither assigned to nor a binding. -/
def markPlain : Parser Unit := change fun c => { c with isTarget := false, isBinding := false }

/-- What was read can be assigned to, but is no binding. -/
def markTarget : Parser Unit := change fun c => { c with isTarget := true, isBinding := false }

/-- Reads a part whose notes do not concern the whole. The part must make sense as it is. -/
def isolated {α : Type} (rule : Parser α) : Parser α := do
  let before ← context
  change fun c => { c with isTarget := true, isBinding := true, initializer := none }
  let result ← rule
  if let some token := (← context).initializer then refuseToken token
  change fun c => { c with
    isTarget := before.isTarget, isBinding := before.isBinding, initializer := before.initializer }
  return result

/-- Reads a part that the whole can be a target or a binding only with. -/
def inherited {α : Type} (rule : Parser α) : Parser α := do
  let before ← context
  change fun c => { c with isTarget := true, isBinding := true, initializer := none }
  let result ← rule
  change fun c => { c with
    isTarget := c.isTarget && before.isTarget
    isBinding := c.isBinding && before.isBinding
    initializer := before.initializer <|> c.initializer }
  return result

/-- Reads a part with the word `in` as an operator or not. -/
def withIn {α : Type} (allow : Bool) (rule : Parser α) : Parser α := do
  let before := (← context).allowIn
  change fun c => { c with allowIn := allow }
  let result ← rule
  change fun c => { c with allowIn := before }
  return result

/-- Reads a part in a loop. -/
def inLoop {α : Type} (rule : Parser α) : Parser α := do
  let before := (← context).inLoop
  change fun c => { c with inLoop := true }
  let result ← rule
  change fun c => { c with inLoop := before }
  return result

/-- Reads a part, after which `yield` and `await` mean what they meant before. -/
def keepingWords {α : Type} (rule : Parser α) : Parser α := do
  let before ← context
  let result ← rule
  change fun c => { c with allowYield := before.allowYield, allowAwait := before.allowAwait }
  return result

/-- Reads a part, after which strict mode is as before. -/
def keepingStrict {α : Type} (rule : Parser α) : Parser α := do
  let before ← context
  let result ← rule
  change fun c => { c with
    strict := before.strict, allowStrictDirective := before.allowStrictDirective }
  return result

/-! ### Repetition -/

/-- Repeats a step until it gives a result, at most a number of times. -/
def repeatUpTo {α β : Type} (step : α → Parser (α ⊕ β)) : Nat → α → Parser β
  | 0, _ => throw .outOfSteps
  | n + 1, a => do
    match ← step a with
    | .inl a => repeatUpTo step n a
    | .inr b => return b

/-- Repeats a step until it gives a result. Every step reads a token, so the number of characters
bounds their number. -/
def repeating {α β : Type} (a : α) (step : α → Parser (α ⊕ β)) : Parser β := do
  repeatUpTo step ((← get).scanner.steps) a

/-- Reads items until a test holds. -/
def itemsUntil {α : Type} (stop : Parser Bool) (item : Parser α) : Parser (List α) :=
  repeating [] fun items => do
    if ← stop then return .inr items.reverse
    else return .inl ((← item) :: items)

/-- Reads items, with a separator between them, until a closing mark, which is not read. The
separator may also stand behind the last item. -/
def separated {α : Type} (close : String) (separator : Parser Unit) (item : Parser α) :
    Parser (List α) :=
  itemsUntil (isMark close) do
    let a ← item
    if !(← isMark close) then separator
    return a

/-- Reads one or more items with commas between them. -/
def commaList {α : Type} (item : Parser α) : Parser (List α) := do
  let first ← item
  let rest ← itemsUntil (return !(← isMark ",")) do
    let _ ← take
    item
  return first :: rest

/-- Reads a pattern and gives the names that it binds beside it. -/
def collecting (rule : Parser Value) : Parser (Value × List Token) := do
  let before := (← get).names
  modify fun s => { s with names := #[] }
  let v ← rule
  let names := (← get).names
  modify fun s => { s with names := before }
  return (v, names.toList)

/-- Notes a name that the pattern being read binds. -/
def noteName (t : Token) : Parser Unit := modify fun s => { s with names := s.names.push t }

/-! ### Nodes -/

/-- The place of the next token. -/
def here : Parser Mark := return (← get).start

/-- The place of a token. A token over several lines starts before the line that it ends on; its
column is then counted from `lineStart`, one line up. -/
def markFrom (t : Token) (lineStart : Nat) : Mark :=
  let column : Int := (t.start : Int) - t.lineStart
  if column < 0 then ⟨t.start, t.line - 1, column + lineStart⟩ else ⟨t.start, t.line, column⟩

/-- The place of a token. -/
def markOf (t : Token) : Mark := markFrom t 0

/-- An object without a place. -/
def object (fields : List (String × Value)) : Value :=
  .object 0 (fields.filter fun (_, v) => !v.isNull)

/-- A line and a column as an object. -/
def placeValue (m : Mark) : Value := object [("line", .int m.line), ("column", .int m.column)]

/-- A node of a type that is read from a place up to the last token. Fields that are null are left
out. -/
def finish (mark : Mark) (type : String) (fields : List (String × Value)) : Parser Value := do
  let s ← get
  let range : Value :=
    if s.options.ranges.isTrue then .array [.int mark.index, .int s.last.index] else .null
  let loc : Value :=
    if s.options.locations.isTrue then object [("start", placeValue mark), ("end", placeValue s.last)]
    else .null
  return object (("type", .text type) :: fields ++ [("range", range), ("loc", loc)])

/-- A node of a kind that is read from a place up to the last token. -/
def node (mark : Mark) (kind : Kind) (fields : List (String × Value)) : Parser Value :=
  finish mark kind.name fields

/-- The text of a token as it was written. -/
def rawText (t : Token) : Parser String := return (← get).scanner.slice t.start t.stop

/-- A name. -/
def identifier (mark : Mark) (name : Text) : Parser Value :=
  node mark .identifier [("name", .text name)]

/-- A literal. -/
def literal (mark : Mark) (value : Value) (token : Token) : Parser Value := do
  node mark .literal [("value", value), ("raw", .text (← rawText token))]

/-- The empty statement that stands for a body that could not be read. -/
def missingBody : Parser Value := do node (← here) .emptyStatement []

end Parser

/-! ### Looking at nodes -/

/-- A field of a value that is an object, else null. -/
def fieldOf (v : Value) (name : String) : Value :=
  match v with
  | .object _ fields => (fields.lookup name).getD .null
  | _ => .null

/-- Whether a value is a node of a type. -/
def hasType (v : Value) (type : String) : Bool := (fieldOf v "type").isText type

/-- Whether a value is a node of a kind. -/
def isKind (v : Value) (kind : Kind) : Bool := hasType v kind.name

/-- The name of a node, empty if it has none. -/
def nameOf (v : Value) : Text :=
  match fieldOf v "name" with
  | .text name => name
  | _ => ""

/-- Whether a node is a name of which a test holds. -/
def isNameWith (v : Value) (test : Text → Bool) : Bool := isKind v .identifier && test (nameOf v)

/-- The items of a value that is an array. -/
def itemsOf : Value → List Value
  | .array items => items
  | _ => []

end FreeNames.Grammar
