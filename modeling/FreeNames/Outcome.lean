import FreeNames.Grammar.Program
import FreeNames.Log

/-!
# Reading with a second try

A program text is read strictly. If it is refused and the caller asks for it, the text is read once
more, tolerantly; the outcome then has the tree of the second reading and the message of the first.
If both readings refuse the text, the refusal of the first one counts.

The rules hold for any way to read a text (`Reader`); `Grammar.read` is the one that is used.
-/

namespace FreeNames

/-- A way to read a program text: under options, strictly or tolerantly. -/
abbrev Reader := Options → Bool → String → Except Grammar.Failure Grammar.Parsed

/-- How a caller wants a text read, and what to call it in messages. -/
structure Request where
  options : Option Options
  /-- Whether a refused text is read again tolerantly. -/
  loose : Bool
  name : Text

/-- A text that was read, strictly or at the second try. -/
structure Outcome where
  tree : Value
  name : Text
  /-- Why the first try failed. -/
  parsingError : Option Text
  /-- The faults that the second try passed over. -/
  diagnostics : List Grammar.SyntaxError

namespace Request

/-- The options of the readings. -/
def effective (r : Request) : Options := (r.options.getD .default).forAnalysis

/-- The record of a refused first try. -/
def strictRecord (r : Request) (e : Grammar.SyntaxError) : Log.Record :=
  ⟨.warning, .parsing,
    "Strict parse of " ++ r.name ++ " failed (" ++ e.message ++ "); retrying in tolerant mode"⟩

/-- The record of a refused second try. -/
def tolerantRecord (r : Request) (e : Grammar.SyntaxError) : Log.Record :=
  ⟨.warning, .parsing, "Tolerant parse of " ++ r.name ++ " failed too (" ++ e.message ++ ")"⟩

end Request

/-- The second try, after a refusal. -/
def Reader.retry (read : Reader) (r : Request) (text : String) (refusal : Grammar.SyntaxError) :
    Except Grammar.Failure Outcome × List Log.Record :=
  let first := r.strictRecord refusal
  match read r.effective true text with
  | .ok parsed => (.ok ⟨parsed.tree, r.name, some refusal.message, parsed.passed⟩, [first])
  | .error (.refused e) => (.error (.refused refusal), [first, r.tolerantRecord e])
  | .error failure => (.error failure, [first])

/-- Reads a text as a caller wants it, and what is logged on the way. -/
def Reader.parse (read : Reader) (r : Request) (text : String) :
    Except Grammar.Failure Outcome × List Log.Record :=
  match read r.effective false text with
  | .ok parsed => (.ok ⟨parsed.tree, r.name, none, parsed.passed⟩, [])
  | .error (.refused e) =>
    if r.loose then read.retry r text e else (.error (.refused e), [])
  | .error failure => (.error failure, [])

end FreeNames
