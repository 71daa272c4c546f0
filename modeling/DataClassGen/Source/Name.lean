import DataClassGen.Text.Letter
import DataClassGen.Text.Split

/-!
# Names and literals in Kotlin sources

How an identifier, a string and a character are written. A name that is a keyword, or that holds
characters an identifier must not have, stands between backticks. In a string literal `$` is
escaped, so that no literal is read as a template.

The names of properties come from names of methods by changing the case of the first letter;
the uppercase of a letter can be several letters.
-/

namespace DataClassGen.Source

/-! ### Identifiers -/

/-- The hard keywords of Kotlin, then the soft ones, then the modifiers. -/
def keywords : List String :=
  ["as", "break", "class", "continue", "do", "else", "false", "for", "fun", "if", "in",
    "interface", "is", "null", "object", "package", "return", "super", "this", "throw", "true",
    "try", "typealias", "typeof", "val", "var", "when", "while",
    "by", "catch", "constructor", "delegate", "dynamic", "field", "file", "finally", "get",
    "import", "init", "param", "property", "receiver", "set", "setparam", "value", "where",
    "actual", "abstract", "annotation", "companion", "const", "crossinline", "data", "enum",
    "expect", "external", "final", "infix", "inline", "inner", "internal", "lateinit", "noinline",
    "open", "operator", "out", "override", "private", "protected", "public", "reified", "sealed",
    "suspend", "tailrec", "vararg"]

/-- A keyword. -/
def isKeyword (name : String) : Bool := keywords.contains name

/-- A letter or an underscore, then letters, numbers and underscores; but not one underscore
alone. -/
def isPlainIdentifier (name : String) : Bool :=
  match name.toList with
  | [] => false
  | first :: rest =>
    (Text.isLetter first || first == '_') && name != "_" &&
      rest.all fun c => Text.isLetter c || Text.isNumber c || c == '_'

/-- A name as it is written. -/
def escape (name : String) : String :=
  if isKeyword name || !isPlainIdentifier name then "`" ++ name ++ "`" else name

/-- Names with dots between them, each as it is written. -/
def dotted (names : List String) : String := Text.joinWith "." (names.map escape)

/-! ### The case of the first letter -/

/-- The text with its first letter in uppercase. -/
def capitalize (s : String) : String :=
  match s.toList with
  | [] => ""
  | first :: rest => String.ofList (Text.upper first ++ rest)

/-- The text with its first letter in lowercase. -/
def lowercaseFirst (s : String) : String :=
  match s.toList with
  | [] => ""
  | first :: rest => String.ofList (Text.lower first ++ rest)

/-- The text with its first letter in lowercase, unless its first two letters are capitals. -/
def decapitalize (s : String) : String :=
  match s.toList with
  | first :: second :: _ =>
    if Text.isCapital first && Text.isCapital second then s else lowercaseFirst s
  | _ => lowercaseFirst s

/-! ### Literals -/

/-- The quote around a character literal. -/
def singleQuote : Char := Char.ofNat 39

/-- A character of a string literal. -/
def stringChar (c : Char) : List Char :=
  match c with
  | '"' => ['\\', '"']
  | '\\' => ['\\', '\\']
  | '\n' => ['\\', 'n']
  | '\r' => ['\\', 'r']
  | '\t' => ['\\', 't']
  | '$' => ['\\', '$']
  | c => [c]

/-- A text as a string literal. -/
def stringLiteral (s : String) : String :=
  String.ofList ('"' :: s.toList.flatMap stringChar ++ ['"'])

/-- A character as a character literal. -/
def charLiteral (c : Char) : String :=
  let body :=
    if c == singleQuote then ['\\', singleQuote]
    else
      match c with
      | '\\' => ['\\', '\\']
      | '\n' => ['\\', 'n']
      | '\r' => ['\\', 'r']
      | '\t' => ['\\', 't']
      | c => [c]
  String.ofList (singleQuote :: body ++ [singleQuote])

end DataClassGen.Source
