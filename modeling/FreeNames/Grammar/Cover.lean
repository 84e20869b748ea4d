import FreeNames.Grammar.Parser

/-!
# Expressions that turn out to be patterns

`asPattern` turns an expression into the pattern that it spells. `Parameters` collects the
parameters of a function with what strict mode holds against them: their names may not repeat, nor
be protected or reserved words. Whether the function is strict is known only at the end of its
directives, so the first offender is kept until then.
-/

namespace FreeNames.Grammar

/-! ### Expressions as patterns -/

/-- Whether an object is a part of a pattern itself or a property in it. -/
inductive PatternRole where
  | part
  | property

mutual
/-- The pattern that an expression, or a list of them, spells. What spells none stays. -/
def spelled (role : PatternRole) : Value → Value
  | .array items => .array (spelledItems role items)
  | .object label fields =>
    let is (kind : Kind) : Bool := isKind (.object label fields) kind
    if is .spreadElement then
      .object label (spelledFields .restElement "argument" .part fields)
    else match role with
      | .property => .object label (spelledFields .property "value" .part fields)
      | .part =>
        if is .arrayExpression then
          .object label (spelledFields .arrayPattern "elements" .part fields)
        else if is .objectExpression then
          .object label (spelledFields .objectPattern "properties" .property fields)
        else if is .assignmentExpression then
          .object label (spelledFields .assignmentPattern "left" .part fields)
        else .object label fields
  | v => v

/-- The patterns that items spell. -/
def spelledItems (role : PatternRole) : List Value → List Value
  | [] => []
  | v :: rest => spelled role v :: spelledItems role rest

/-- The fields of a pattern of a kind, of which one is made of patterns. A pattern has no operator. -/
def spelledFields (kind : Kind) (name : String) (role : PatternRole) :
    List (String × Value) → List (String × Value)
  | [] => []
  | (own, v) :: rest =>
    let rest := spelledFields kind name role rest
    if own = "type" then (own, .text kind.name) :: rest
    else if own = name then (own, spelled role v) :: rest
    else if own = "operator" then rest
    else (own, v) :: rest
end

/-- The pattern that an expression spells. -/
def asPattern (v : Value) : Value := spelled .part v

mutual
/-- The names that a pattern, or a list of them, binds. -/
def boundNames (role : PatternRole) : Value → List Text
  | .array items => boundNamesOfItems role items
  | .object label fields =>
    let is (kind : Kind) : Bool := isKind (.object label fields) kind
    if is .restElement then boundNamesOfFields "argument" .part fields
    else match role with
      | .property => boundNamesOfFields "value" .part fields
      | .part =>
        if is .identifier then [nameOf (.object label fields)]
        else if is .assignmentPattern then boundNamesOfFields "left" .part fields
        else if is .arrayPattern then boundNamesOfFields "elements" .part fields
        else if is .objectPattern then boundNamesOfFields "properties" .property fields
        else []
  | _ => []

/-- The names that items bind. -/
def boundNamesOfItems (role : PatternRole) : List Value → List Text
  | [] => []
  | v :: rest => boundNames role v ++ boundNamesOfItems role rest

/-- The names that one of some fields binds. -/
def boundNamesOfFields (name : String) (role : PatternRole) : List (String × Value) → List Text
  | [] => []
  | (own, v) :: rest => if own = name then boundNames role v else boundNamesOfFields name role rest
end

/-! ### Parameters -/

/-- What strict mode blames: a token, or a part of an expression whose token is not known. -/
inductive Offender where
  | token (t : Token)
  | part

/-- The parameters of a function. -/
structure Parameters where
  nodes : List Value := []
  /-- All parameters are plain names. -/
  simple : Bool := true
  names : List Text := []
  /-- A parameter that breaks a rule of strict mode. -/
  offender : Option Offender := none
  /-- The first name that only strict mode refuses, met outside strict mode. -/
  firstOffender : Option Offender := none
  /-- What is held against the offender. -/
  complaint : Option Complaint := none

namespace Parameters

/-- Adds a name that a parameter binds. -/
def addName (ps : Parameters) (strict : Bool) (name : Text) (who : Offender) : Parameters :=
  let repeated := ps.names.contains name
  let checked :=
    if strict then
      let ps :=
        if isRestricted name then
          { ps with offender := some who, complaint := some .strictParameterName }
        else ps
      if repeated then
        { ps with offender := some who, complaint := some .strictDuplicateParameter }
      else ps
    else if ps.firstOffender.isSome then ps
    else if isRestricted name then
      { ps with firstOffender := some who, complaint := some .strictParameterName }
    else if isStrictReserved name then
      { ps with firstOffender := some who, complaint := some .strictReserved }
    else if repeated then
      { ps with offender := some who, complaint := some .strictDuplicateParameter }
    else ps
  { checked with names := name :: checked.names }

/-- Adds a parameter whose names are added. -/
def addNode (ps : Parameters) (v : Value) : Parameters :=
  { ps with nodes := ps.nodes ++ [v], simple := ps.simple && isKind v .identifier }

/-- What is held against the offender. -/
def blame (ps : Parameters) : Complaint := ps.complaint.getD .unexpected

end Parameters

namespace Parser

/-- Refuses the text for an offender. -/
def refuseOffender (who : Offender) (complaint : Complaint) : Parser Unit :=
  match who with
  | .token t => refuseAt t complaint
  | .part => refuseAfterLast complaint

/-- Passes over a fault of an offender. -/
def passOffender (who : Offender) (complaint : Complaint) : Parser Unit :=
  match who with
  | .token t => passAt t complaint
  | .part => do pass (← faultAfterLast complaint)

/-- The placeholder for parameters whose arrow is still to come. -/
def arrowHead : String := "ArrowParameterPlaceHolder"

/-- Parameters in front of an arrow. -/
def arrowParameters (params : List Value) (isAsync : Bool) : Value :=
  object [("type", .text arrowHead), ("params", .array params), ("async", .bool isAsync)]

/-- The default of an arrow parameter, where the word `yield` alone is a name. -/
def yieldAsName (param : Value) : Parser Value := do
  if !isKind param .assignmentPattern then return param
  let right := fieldOf param "right"
  if !isKind right .yieldExpression then return param
  if !(fieldOf right "argument").isNull then refuseToken (← ahead)
  let renamed := (itemsOfFields right).filterMap fun (name, v) =>
    if name = "type" then some (name, .text Kind.identifier.name)
    else if name = "argument" || name = "delegate" then none
    else some (name, v)
  let right := Value.object 0 (renamed ++ [("name", .text "yield")])
  return .object 0 ((itemsOfFields param).map fun (name, v) =>
    if name = "right" then (name, right) else (name, v))
where
  itemsOfFields : Value → List (String × Value)
    | .object _ fields => fields
    | _ => []

/-- The parameters that the text in front of an arrow spells: one name, or a list in parentheses.
None if it can be no parameters. -/
def parametersOf (v : Value) : Parser (Option Parameters) := do
  let isList := hasType v arrowHead
  if !isList && !isKind v .identifier then return none
  let params := if isList then itemsOf (fieldOf v "params") else [v]
  let isAsync := isList && (fieldOf v "async").isTrue
  let strict := (← context).strict
  let ps ← params.foldlM (m := Parser) (fun ps param => do
    let param ← yieldAsName param
    if isAsync && isNameWith param (· == "await") then refuseToken (← ahead)
    let ps := (boundNames .part param).foldl (fun ps name => ps.addName strict name .part) ps
    return ps.addNode param) {}
  if strict || !(← context).allowYield then
    if ps.nodes.any (isKind · .yieldExpression) then refuseToken (← ahead)
  if ps.complaint = some .strictDuplicateParameter then
    refuseAfterLast .strictDuplicateParameter
  return some ps

end Parser

end FreeNames.Grammar
