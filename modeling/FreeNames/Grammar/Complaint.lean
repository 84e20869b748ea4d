import FreeNames.Text

/-!
# What is wrong with a program text

The causes for which a program text is refused, each with its wording. A `SyntaxError` is a cause and
the place where it was noticed.
-/

namespace FreeNames.Grammar

/-- Why a program text is refused. -/
inductive Complaint where
  /-- A character, or a token, that cannot stand where it stands. -/
  | illegal
  /-- A token that cannot stand where it stands. -/
  | unexpectedToken (text : Text)
  /-- Something unexpected that has no text to show. -/
  | unexpected
  | unexpectedEnd
  | unexpectedIdentifier
  | unexpectedNumber
  | unexpectedString
  | unexpectedTemplate (raw : String)
  | unexpectedReserved
  | badHexEscape
  | escapedKeyword
  | unterminatedRegExp
  | badRegExp
  | octalInTemplate
  | badAssignmentTarget
  | badForInTarget
  | badForLoopTarget
  | loopInitializer (loop : String)
  | duplicateProto
  | getterParameters
  | setterParameters
  | setterRest
  | illegalReturn
  | illegalBreak
  | illegalContinue
  | illegalImport
  | illegalExport
  | unknownLabel (label : Text)
  | duplicateLabel (label : Text)
  | newlineAfterThrow
  | noCatchOrFinally
  | secondDefault
  | missingInitializer (kind : String)
  | duplicateBinding (name : Text)
  | letAsLexicalName
  | parameterAfterRest
  | secondConstructor
  | constructorAccessor
  | constructorAsync
  | staticPrototype
  | useStrictWithComplexParameters
  | generatorInLegacyContext
  | strictWith
  | strictOctal
  | strictDelete
  | strictAssignment
  | strictReserved
  | strictPostfix
  | strictPrefix
  | strictVariable
  | strictCatch
  | strictFunctionName
  | strictParameterName
  | strictDuplicateParameter
  | strictFunction
  deriving DecidableEq, Repr, Inhabited

/-- The wording of a complaint. -/
def Complaint.text : Complaint → Text
  | illegal => "Unexpected token ILLEGAL"
  | unexpectedToken text => "Unexpected token " ++ text
  | unexpected => "Unexpected token"
  | unexpectedEnd => "Unexpected end of input"
  | unexpectedIdentifier => "Unexpected identifier"
  | unexpectedNumber => "Unexpected number"
  | unexpectedString => "Unexpected string"
  | unexpectedTemplate raw => "Unexpected quasi " ++ raw
  | unexpectedReserved => "Unexpected reserved word"
  | badHexEscape => "Invalid hexadecimal escape sequence"
  | escapedKeyword => "Keyword must not contain escaped characters"
  | unterminatedRegExp => "Invalid regular expression: missing /"
  | badRegExp => "Invalid regular expression"
  | octalInTemplate => "Octal literals are not allowed in template strings."
  | badAssignmentTarget => "Invalid left-hand side in assignment"
  | badForInTarget => "Invalid left-hand side in for-in"
  | badForLoopTarget => "Invalid left-hand side in for-loop"
  | loopInitializer loop => loop ++ " loop variable declaration may not have an initializer"
  | duplicateProto => "Duplicate __proto__ fields are not allowed in object literals"
  | getterParameters => "Getter must not have any formal parameters"
  | setterParameters => "Setter must have exactly one formal parameter"
  | setterRest => "Setter function argument must not be a rest parameter"
  | illegalReturn => "Illegal return statement"
  | illegalBreak => "Illegal break statement"
  | illegalContinue => "Illegal continue statement"
  | illegalImport => "Unexpected token"
  | illegalExport => "Unexpected token"
  | unknownLabel label => "Undefined label '" ++ label ++ "'"
  | duplicateLabel label => "Label '" ++ label ++ "' has already been declared"
  | newlineAfterThrow => "Illegal newline after throw"
  | noCatchOrFinally => "Missing catch or finally after try"
  | secondDefault => "More than one default clause in switch statement"
  | missingInitializer kind => "Missing initializer in " ++ kind ++ " declaration"
  | duplicateBinding name => "Duplicate binding " ++ name
  | letAsLexicalName => "let is disallowed as a lexically bound name"
  | parameterAfterRest => "Rest parameter must be last formal parameter"
  | secondConstructor => "A class may only have one constructor"
  | constructorAccessor => "Class constructor may not be an accessor"
  | constructorAsync => "Class constructor may not be an async method"
  | staticPrototype => "Classes may not have static property named prototype"
  | useStrictWithComplexParameters =>
    "Illegal 'use strict' directive in function with non-simple parameter list"
  | generatorInLegacyContext => "Generator declarations are not allowed in legacy contexts"
  | strictWith => "Strict mode code may not include a with statement"
  | strictOctal => "Octal literals are not allowed in strict mode."
  | strictDelete => "Delete of an unqualified identifier in strict mode."
  | strictAssignment => "Assignment to eval or arguments is not allowed in strict mode"
  | strictReserved => "Use of future reserved word in strict mode"
  | strictPostfix =>
    "Postfix increment/decrement may not have eval or arguments operand in strict mode"
  | strictPrefix =>
    "Prefix increment/decrement may not have eval or arguments operand in strict mode"
  | strictVariable => "Variable name may not be eval or arguments in strict mode"
  | strictCatch => "Catch variable may not be eval or arguments in strict mode"
  | strictFunctionName => "Function name may not be eval or arguments in strict mode"
  | strictParameterName => "Parameter name eval or arguments is not allowed in strict mode"
  | strictDuplicateParameter => "Strict mode function may not have duplicate parameter names"
  | strictFunction =>
    "In strict mode code, functions can only be declared at top level or inside a block"

/-- A complaint and the place where it was noticed. Columns count from one. -/
structure SyntaxError where
  line : Nat
  column : Int
  complaint : Complaint
  deriving DecidableEq, Repr, Inhabited

/-- The message of a syntax error. -/
def SyntaxError.message (e : SyntaxError) : Text :=
  "Line " ++ toString e.line ++ ": " ++ e.complaint.text

/-- Why reading a program text ends without a program. -/
inductive Failure where
  /-- The text is refused. -/
  | refused (error : SyntaxError)
  /-- A template goes on where none has begun. -/
  | strayTemplate
  /-- The steps set aside for the text were not enough. -/
  | outOfSteps
  deriving DecidableEq, Repr, Inhabited

end FreeNames.Grammar
