import FreeNames.Group
import FreeNames.Outcome
import FreeNames.Scope.Build
import FreeNames.Tree.Labelled

/-!
# The free names of a program

An analysis takes a program, as text or as a syntax tree, builds its binding tables and groups the
references that nothing binds by their names.
-/

namespace FreeNames

/-- What an analysis of a tree comes to: the tree with the tables that were built, also where the
analysis stopped, the groups or the fault, and the log. -/
structure Analyzed where
  tree : Tree
  result : Except Fault (List Group)
  log : List Log.Record

namespace Tree

/-- Whether the tree is a program. -/
def isProgram (t : Tree) : Bool :=
  match t.root.node? with
  | some n => n.type.isText Kind.program.name
  | none => false

/-- The references of the tree that its tables do not bind, by name. -/
def freeGroups (t : Tree) : Except Fault (List Group) := references t.tables t.root >>= groups

/-- The record of how many names were found. -/
def countRecord (name : Text) (found : List Group) : Log.Record :=
  ⟨.info, .analysis, name ++ ": " ++ toString found.length ++ " global name(s)"⟩

/-- Analyses a tree that is called by a name in the log. -/
def analyze (t : Tree) (name : Text) : Analyzed :=
  if !t.isProgram then ⟨t, .error .notAProgram, []⟩
  else
    let (built, fault) := buildScopes t.tables t.root
    let t := { t with tables := built.tables }
    match fault with
    | some fault => ⟨t, .error fault, built.log⟩
    | none =>
      match t.freeGroups with
      | .error fault => ⟨t, .error fault, built.log⟩
      | .ok found => ⟨t, .ok found, built.log ++ [countRecord name found]⟩

end Tree

/-- A program to analyse. -/
inductive Source where
  | text (s : String)
  | tree (t : Tree)

/-- What an analysis finds. -/
structure Findings where
  tree : Tree
  groups : List Group
  parsingError : Option Text
  diagnostics : List Grammar.SyntaxError

/-- Why an analysis finds nothing. -/
inductive Trouble where
  | unreadable (failure : Grammar.Failure)
  | fault (fault : Fault)

namespace Findings

/-- The names that were found, in order. -/
def names (f : Findings) : List Name := f.groups.map Group.name

/-- The group of a value that is a name. -/
def get? (f : Findings) (name : Value) : Option Group := findGroup? f.groups name

end Findings

/-- The findings of an analysed tree, with what is known of how its text was read. -/
def Analyzed.findings (a : Analyzed) (parsingError : Option Text)
    (diagnostics : List Grammar.SyntaxError) : Except Trouble Findings :=
  match a.result with
  | .ok found => .ok ⟨a.tree, found, parsingError, diagnostics⟩
  | .error fault => .error (.fault fault)

/-- Analyses a program, and what is logged on the way. -/
def Source.analyze (read : Reader) (r : Request) : Source → Except Trouble Findings × List Log.Record
  | .tree t =>
    let a := t.analyze r.name
    (a.findings none [], a.log)
  | .text s =>
    match read.parse r s with
    | (.error failure, log) => (.error (.unreadable failure), log)
    | (.ok outcome, log) =>
      let a := (Tree.ofValue outcome.tree).analyze r.name
      (a.findings outcome.parsingError outcome.diagnostics, log ++ a.log)

end FreeNames
