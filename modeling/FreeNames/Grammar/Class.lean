import FreeNames.Grammar.Function

/-!
# Classes

A class is strict throughout. The parts of a member are read word by word, since `static`, `async`,
`get` and `set` are names of members as well.
-/

namespace FreeNames.Grammar.Parser

/-- What is known of a class member behind the words in front of its key. -/
structure MemberHead where
  /-- The token that decides what the member is. -/
  token : Token
  key : Option Value
  computed : Bool
  isStatic : Bool
  isAsync : Bool

/-- Reads the word `async` in front of a method, if it is not the key itself. -/
def asyncInFront (h : MemberHead) : Parser MemberHead := do
  let next ← ahead
  if h.token.isWord "async" && !(← get).lineBreak && !next.text.isOneOf [":", "(", "*"] then
    let key ← propertyKey
    if next.isWord "constructor" then passAt next .constructorAsync
    return { h with token := next, key := some key, isAsync := true }
  else return h

/-- Reads the key of a class member, with `static` and `async` in front of it. A star is read, too;
the key behind it is still to come. -/
def memberHead : Parser MemberHead := do
  let token ← ahead
  if ← takesMark "*" then return ⟨token, none, false, false, false⟩
  let computed ← isMark "["
  let key ← propertyKey
  let next ← ahead
  if nameOf key == "static" && (next.isPropertyName || next.isMark "*") then
    if ← takesMark "*" then asyncInFront ⟨next, some key, false, true, false⟩
    else
      let computed := next.isMark "["
      let key ← propertyKey
      asyncInFront ⟨next, some key, computed, true, false⟩
  else asyncInFront ⟨token, some key, computed, false, false⟩

/-- Reads what follows the head of a class member: the key, whether it is computed, the function, and
whether the member is a getter, a setter or a method. -/
def memberRest (h : MemberHead) : Parser (Value × Bool × Value × String) := do
  let hasKey := (← ahead).isPropertyName
  if h.token.isWord "get" && hasKey then
    let computed ← isMark "["
    let key ← propertyKey
    change fun c => { c with allowYield := false }
    return (key, computed, ← getter, "get")
  else if h.token.isWord "set" && hasKey then
    let computed ← isMark "["
    let key ← propertyKey
    return (key, computed, ← setter, "set")
  else if h.token.isMark "*" && hasKey then
    let computed ← isMark "["
    let key ← propertyKey
    return (key, computed, ← generatorMethod, "method")
  else
    match h.key with
    | some key =>
      if ← isMark "(" then return (key, h.computed, ← method h.isAsync, "method")
      else refuseToken (← ahead)
    | none => refuseToken (← ahead)

/-- Reads a class member. `hasConstructor` says whether the class has a constructor already. -/
def member (hasConstructor : Bool) : Parser (Value × Bool) := do
  let mark ← here
  let h ← memberHead
  let (key, computed, value, kind) ← memberRest h
  let isConstructor := !computed && !h.isStatic && isKeyText key "constructor"
  if !computed && h.isStatic && isKeyText key "prototype" then refuseAt h.token .staticPrototype
  if isConstructor then
    if kind != "method" || (fieldOf value "generator").isTrue then
      refuseAt h.token .constructorAccessor
    if hasConstructor then refuseAt h.token .secondConstructor
  let v ← node mark .methodDefinition [("key", key), ("computed", .bool computed), ("value", value),
    ("kind", .text (if isConstructor then "constructor" else kind)), ("static", .bool h.isStatic)]
  return (v, hasConstructor || isConstructor)

/-- Reads the body of a class. -/
def classBody : Parser Value := do
  let mark ← here
  expect leftBrace
  let members ← repeating (([], false) : List Value × Bool) fun (members, hasConstructor) => do
    if ← isMark rightBrace then return .inr members.reverse
    else if ← takesMark ";" then return .inl (members, hasConstructor)
    else
      let (v, hasConstructor) ← member hasConstructor
      return .inl (v :: members, hasConstructor)
  expect rightBrace
  node mark .classBody [("body", .array members)]

/-- Reads a class. The rule `hasName` says whether it has a name. -/
def classWith (kind : Kind) (hasName : Parser Bool) : Parser Value := do
  let mark ← here
  let before := (← context).strict
  change fun c => { c with strict := true }
  expectKeyword "class"
  let id ← if ← hasName then variableName "" else pure .null
  let superClass ← if ← takesKeyword "extends" then isolated (ask .call) else pure .null
  let body ← classBody
  change fun c => { c with strict := before }
  node mark kind [("id", id), ("superClass", superClass), ("body", body)]

/-- Reads a class declaration. -/
def classDeclaration (nameIsOptional : Bool) : Parser Value :=
  classWith .classDeclaration do return !nameIsOptional || (← ahead).isIdentifier

/-- Reads a class expression. -/
def classExpression : Parser Value :=
  classWith .classExpression do return (← ahead).isIdentifier

end FreeNames.Grammar.Parser
