import DataClassGen.Json.Basic
import DataClassGen.Numeric.Shortest
import DataClassGen.Text.Split

/-!
# Writing JSON

A value as text, either without any blanks or with every item of a list and every member of an
object on a line of its own, two blanks deeper than its surroundings. A double keeps a decimal
point, so that it reads back as one; a double without a decimal text is written `null`.
-/

namespace DataClassGen.Json

/-- A hexadecimal digit. -/
def hexDigit (n : Nat) : Char :=
  if n < 10 then Char.ofNat (48 + n) else Char.ofNat (87 + n)

/-- A character of a string, as it stands between the quotes. -/
def escapedChar (c : Char) : List Char :=
  match c with
  | '"' => ['\\', '"']
  | '\\' => ['\\', '\\']
  | '\x08' => ['\\', 'b']
  | '\x0c' => ['\\', 'f']
  | '\n' => ['\\', 'n']
  | '\r' => ['\\', 'r']
  | '\t' => ['\\', 't']
  | c =>
    if c.toNat < 32 then ['\\', 'u', '0', '0', hexDigit (c.toNat / 16), hexDigit (c.toNat % 16)]
    else [c]

/-- A string between its quotes. -/
def quoted (s : String) : String :=
  String.ofList ('"' :: s.toList.flatMap escapedChar ++ ['"'])

/-- A double: its shortest digits with a decimal point, or `null`. -/
def doubleText (x : Binary64) : String := if x.isFinite then x.textWithPoint else "null"

mutual

/-- The value without blanks. -/
def compact : Json → String
  | .null | .unusable => "null"
  | .bool true => "true"
  | .bool false => "false"
  | .int n => toString n
  | .double x => doubleText x
  | .str s => quoted s
  | .arr items => "[" ++ Text.joinWith "," (compactItems items) ++ "]"
  | .obj members => "\x7b" ++ Text.joinWith "," (compactMembers members) ++ "\x7d"

/-- The items without blanks. -/
def compactItems : List Json → List String
  | [] => []
  | item :: items => compact item :: compactItems items

/-- The members without blanks. -/
def compactMembers : List (String × Json) → List String
  | [] => []
  | (key, value) :: members => (quoted key ++ ":" ++ compact value) :: compactMembers members

end

/-- Entries between brackets, one to a line, two blanks deeper than `margin`; the brackets
alone if there are none. -/
def bracketed (opening closing margin : String) (entries : List String) : String :=
  if entries.isEmpty then opening ++ closing
  else
    opening ++ "\n" ++ Text.joinWith ",\n" (entries.map fun entry => margin ++ "  " ++ entry) ++
      "\n" ++ margin ++ closing

mutual

/-- The value over several lines, the lines after the first set in by `margin`. -/
def prettyFrom (margin : String) : Json → String
  | .null | .unusable => "null"
  | .bool true => "true"
  | .bool false => "false"
  | .int n => toString n
  | .double x => doubleText x
  | .str s => quoted s
  | .arr items => bracketed "[" "]" margin (prettyItems (margin ++ "  ") items)
  | .obj members => bracketed "\x7b" "\x7d" margin (prettyMembers (margin ++ "  ") members)

/-- The items over several lines. -/
def prettyItems (margin : String) : List Json → List String
  | [] => []
  | item :: items => prettyFrom margin item :: prettyItems margin items

/-- The members over several lines. -/
def prettyMembers (margin : String) : List (String × Json) → List String
  | [] => []
  | (key, value) :: members =>
    (quoted key ++ ": " ++ prettyFrom margin value) :: prettyMembers margin members

end

/-- The value over several lines. -/
def pretty (value : Json) : String := prettyFrom "" value

end DataClassGen.Json
