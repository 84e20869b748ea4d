import FreeNames.Tree.Text

/-!
# Tokens

The words, marks and literals that a program text is made of. A token has its place in the text and
the line on which it ends, which a literal over several lines makes different from the line on which
it starts.
-/

namespace FreeNames.Grammar

/-- What a token is. -/
inductive Lexeme where
  | endOfText
  | identifier (name : Text)
  | keyword (word : String)
  | nullWord
  | boolean (b : Bool)
  | punctuator (mark : String)
  /-- A number; `octal` for the old notation with a leading zero. -/
  | number (value : Value) (octal : Bool)
  /-- A string by its value; `octal` if an octal escape stands in it. -/
  | string (value : Text) (octal : Bool)
  /-- A piece of a template: the text between its ends, and the same with escapes resolved. -/
  | template (raw : String) (cooked : Text) (head tail : Bool)
  | regExp (pattern : String) (flags : Text)
  deriving Inhabited

/-- A token and its place. -/
structure Token where
  lexeme : Lexeme
  /-- The line on which the token ends. -/
  line : Nat
  /-- Where that line starts. -/
  lineStart : Nat
  start : Nat
  stop : Nat
  deriving Inhabited

namespace Token

/-- The text that a token stands for. -/
def text (t : Token) : Text :=
  match t.lexeme with
  | .endOfText => ""
  | .identifier name => name
  | .keyword word => word
  | .nullWord => "null"
  | .boolean true => "true"
  | .boolean false => "false"
  | .punctuator mark => mark
  | .number value _ => value.plain
  | .string value _ => value
  | .template raw .. => raw
  | .regExp .. => ""

/-- Whether a token has a text, and one that is not empty or zero. -/
def hasText (t : Token) : Bool :=
  match t.lexeme with
  | .number value _ => value.isTrue
  | _ => !t.text.isEmpty

/-- Whether the token is a given mark. -/
def isMark (t : Token) (mark : String) : Bool :=
  match t.lexeme with
  | .punctuator own => own == mark
  | _ => false

/-- Whether the token is a given keyword. -/
def isKeyword (t : Token) (word : String) : Bool :=
  match t.lexeme with
  | .keyword own => own == word
  | _ => false

/-- Whether the token is a given identifier, such as a word that is special only in some places. -/
def isWord (t : Token) (word : String) : Bool :=
  match t.lexeme with
  | .identifier own => own == word
  | _ => false

/-- Whether the token is an identifier. -/
def isIdentifier (t : Token) : Bool :=
  match t.lexeme with
  | .identifier _ => true
  | _ => false

/-- Whether the token is a string. -/
def isString (t : Token) : Bool :=
  match t.lexeme with
  | .string .. => true
  | _ => false

/-- Whether the token is the end of the text. -/
def isEnd (t : Token) : Bool :=
  match t.lexeme with
  | .endOfText => true
  | _ => false

/-- Whether the token is a piece of a template. -/
def isTemplate (t : Token) : Bool :=
  match t.lexeme with
  | .template .. => true
  | _ => false

/-- Whether the token begins a template. -/
def isTemplateHead (t : Token) : Bool :=
  match t.lexeme with
  | .template _ _ head _ => head
  | _ => false

/-- Whether the token is a word that can name a property: an identifier, a keyword or a literal
word. -/
def isName (t : Token) : Bool :=
  match t.lexeme with
  | .identifier _ | .keyword _ | .nullWord | .boolean _ => true
  | _ => false

/-- Whether the token holds an octal notation that strict mode refuses. -/
def isOctal (t : Token) : Bool :=
  match t.lexeme with
  | .number _ octal => octal
  | .string _ octal => octal
  | _ => false

/-- Whether the token begins the name of a property. -/
def isPropertyName (t : Token) : Bool :=
  t.isName || match t.lexeme with
    | .string .. | .number .. => true
    | .punctuator mark => mark == "["
    | _ => false

end Token

/-! ### Reserved words -/

/-- The words that are keywords everywhere. -/
def keywords : List String :=
  ["if", "in", "do", "var", "for", "new", "try", "let", "this", "else", "case", "void", "with",
   "enum", "while", "break", "catch", "throw", "const", "yield", "class", "super", "return",
   "typeof", "delete", "switch", "export", "import", "default", "finally", "extends", "function",
   "continue", "debugger", "instanceof"]

/-- Keywords that no statement of the language gives a use here. -/
def isFutureReserved (word : String) : Bool :=
  word == "enum" || word == "export" || word == "import" || word == "super"

/-- Words that are reserved in strict mode. -/
def isStrictReserved (word : Text) : Bool :=
  word.isOneOf ["implements", "interface", "package", "private", "protected", "public", "static",
    "yield", "let"]

/-- Names that strict mode protects. -/
def isRestricted (word : Text) : Bool := word.isOneOf ["eval", "arguments"]

end FreeNames.Grammar
