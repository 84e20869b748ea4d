import FreeNames.Text

/-!
# The log

What an analysis reports about its own work: records with a level, the channel that they belong to
and a text. They are part of the result, in the order in which they were written.
-/

namespace FreeNames.Log

/-- How much a record matters. -/
inductive Level where
  | debug
  | info
  | warning
  deriving DecidableEq, Repr

/-- The part of the work that a record is about. -/
inductive Channel where
  | scopes
  | analysis
  | parsing
  deriving DecidableEq, Repr

/-- The name of a level. -/
def Level.name : Level → String
  | debug => "DEBUG"
  | info => "INFO"
  | warning => "WARNING"

/-- The name of a channel. -/
def Channel.name : Channel → String
  | scopes => "scoping.scope_builder"
  | analysis => "jsglobals.pipeline"
  | parsing => "jsparser.esprima_parser"

/-- One record. -/
structure Record where
  level : Level
  channel : Channel
  text : Text
  deriving DecidableEq, Repr

/-- A record with its level and channel in front. -/
def Record.verbose (r : Record) : Text := r.level.name ++ " " ++ r.channel.name ++ ": " ++ r.text

end FreeNames.Log
