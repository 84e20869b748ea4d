import FreeNames.Grammar.Statement

/-!
# Programs

`read` reads a program text under some options, either strictly, so that the first fault refuses the
text, or tolerantly, so that faults are passed over where that is possible and recorded.
-/

namespace FreeNames.Grammar

/-- The rule of a goal. -/
def Goal.rule : Goal → Parser Value
  | assignment => Parser.assignment
  | exponent => Parser.exponent
  | unary => Parser.unary
  | call => Parser.callChain
  | member => Parser.memberChain
  | pattern kind => Parser.pattern kind
  | statement => Parser.statement
  | item => Parser.item

/-- Reads a goal with at most a number of goals inside each other. -/
def Goal.run : Nat → Goal → Reading Value
  | 0, _ => throw .outOfSteps
  | n + 1, goal => goal.rule.run (Goal.run n)

/-- Reads the items of a program. -/
def Parser.program (sort : ProgramSort) : Parser Value := do
  if sort = .modular then
    Parser.change fun c => { c with strict := true }
    Parser.scan (modify fun s => { s with isModule := true })
  let mark ← Parser.here
  let prologue ← Parser.directives
  let items ← Parser.itemsUntil Parser.isEnd (Parser.ask .item)
  Parser.node mark .program
    [("sourceType", .text sort.name), ("body", .array (prologue ++ items))]

/-- Looks at the first token. A program where nothing is read ends where the scanner is then. -/
def Parser.prime : Parser Unit := do
  let _ ← Parser.take
  modify fun s => { s with last := Parser.scannerMark s.scanner }

/-- A text that was read: its syntax tree, and the faults that were passed over. -/
structure Parsed where
  tree : Value
  passed : List SyntaxError

/-- The text with a first line that starts with `#!` made a comment of the same length. -/
def withoutHashBang (text : String) : String :=
  match text.toList with
  | '#' :: '!' :: rest => String.ofList ('/' :: '/' :: rest)
  | _ => text

/-- Reads a program text. -/
def read (options : Options) (tolerant : Bool) (text : String) : Except Failure Parsed := do
  let text := if options.allowHashBang.isTrue then withoutHashBang text else text
  let scanner := Scanner.ofText text tolerant
  let start := Parser.scannerMark scanner
  let state : State := {
    scanner := scanner, options := options
    ahead := scanner.token .endOfText 0
    lineBreak := false, start := start, last := start, context := {}, names := #[] }
  let rule : Parser Value := do
    Parser.prime
    Parser.program options.sort
  let steps := 8 * scanner.text.size + 64
  let (tree, state) ← (rule.run (Goal.run steps)).run state
  return ⟨tree, state.scanner.passed.toList⟩

end FreeNames.Grammar
