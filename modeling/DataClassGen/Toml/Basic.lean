import DataClassGen.Text.Split
import DataClassGen.Toml.Moment

/-!
# TOML values

The value of a TOML document, and the value as one line of text: a table between braces in the
order of its keys, a key quoted where it has to be, and a string in the plainest kind of quotes
that can hold it.
-/

namespace DataClassGen.Toml

/-- A TOML value. The entries of a table are in the order of their keys. -/
inductive Value where
  | string (value : String)
  | integer (value : Int)
  | float (value : Binary64)
  | boolean (value : Bool)
  | moment (value : Moment)
  | array (items : List Value)
  | table (entries : List (String × Value))

/-! ### Moments as tables -/

/-- The key by which a table stands for a moment. -/
def momentKey : String := "$__toml_private_datetime"

/-- The entry of the moment key, if that is the first key. -/
def momentEntry? : List (String × Value) → Option Value
  | (key, value) :: _ => if key = momentKey then some value else none
  | [] => none

namespace Value

mutual

/-- The value with its moments in place of the tables that stand for them. A table stands for a
moment if the moment key is its first one; the entry must be the text of a moment then, and the
others do not count. -/
def settled? : Value → Option Value
  | .array items => (settledItems? items).map .array
  | .table entries =>
    match momentEntry? entries with
    | some (.string text) => (Moment.read? text.toList).map .moment
    | some _ => none
    | none => (settledEntries? entries).map .table
  | value => some value

/-- The values with their moments. -/
def settledItems? : List Value → Option (List Value)
  | [] => some []
  | item :: items =>
    (settled? item).bind fun item => (settledItems? items).map (item :: ·)

/-- The entries with their moments. The table that they make up stands for none. -/
def settledEntries? : List (String × Value) → Option (List (String × Value))
  | [] => some []
  | (key, value) :: entries =>
    (settled? value).bind fun value => (settledEntries? entries).map ((key, value) :: ·)

end

end Value

/-! ### Strings as text -/

/-- The longest run of `c`. -/
def longestRun (c : Char) (cs : List Char) : Nat :=
  (cs.foldl (fun (longest, run) d =>
    let run := if c = d then run + 1 else 0
    (max longest run, run)) (0, 0)).1

/-- A control character that has to be escaped, line feeds and tabs aside. -/
def needsEscape (c : Char) : Bool :=
  (c.toNat ≤ 0x1F && c != '\t' && c != '\n') || c.toNat == 0x7F

/-- Four digits of a hexadecimal number. -/
def hex4 (n : Nat) : List Char :=
  let digits := (Nat.toDigits 16 n).map Char.toUpper
  List.replicate (4 - digits.length) '0' ++ digits

/-- A character in a double-quoted string; `isLong` if the string may span lines. -/
def escapedChar (isLong : Bool) (c : Char) : List Char :=
  if c == '\x08' then ['\\', 'b']
  else if c == '\t' then ['\\', 't']
  else if c == '\n' then if isLong then ['\n'] else ['\\', 'n']
  else if c == '\x0c' then ['\\', 'f']
  else if c == '\r' then ['\\', 'r']
  else if c == '\\' then ['\\', '\\']
  else if c.toNat ≤ 0x1F || c.toNat == 0x7F then '\\' :: 'u' :: hex4 c.toNat
  else [c]

/-- The characters of a double-quoted string, where more than `allowed` quotes in a row are
escaped; `run` of them stand in front. -/
def doubleQuotedBody (isLong : Bool) (allowed : Nat) : Nat → List Char → List Char
  | _, [] => []
  | run, c :: cs =>
    if c == '"' then
      if allowed < run + 1 then '\\' :: '"' :: doubleQuotedBody isLong allowed 0 cs
      else '"' :: doubleQuotedBody isLong allowed (run + 1) cs
    else escapedChar isLong c ++ doubleQuotedBody isLong allowed 0 cs

/-- A string on one line between double quotes. -/
def doubleQuoted (cs : List Char) : String :=
  "\"" ++ String.ofList (doubleQuotedBody false 0 0 cs) ++ "\""

/-- What stands in front of a string between three quotes: its first line is the next one, if it
has more than one. -/
def longStart (cs : List Char) : String := if cs.contains '\n' then "\n" else ""

/-- A string between three double quotes. -/
def longDoubleQuoted (cs : List Char) : String :=
  "\"\"\"" ++ longStart cs ++ String.ofList (doubleQuotedBody true 2 0 cs) ++ "\"\"\""

/-- A string between single quotes, which hide nothing. -/
def singleQuoted (cs : List Char) : String := "'" ++ String.ofList cs ++ "'"

/-- A string between three single quotes, which hide nothing. -/
def longSingleQuoted (cs : List Char) : String :=
  "'''" ++ longStart cs ++ String.ofList cs ++ "'''"

/-- A string as text: in double quotes if nothing in it has to be escaped, else in single ones if
they can hold it, else in three of either kind, else with escapes. -/
def stringText (s : String) : String :=
  let cs := s.toList
  let hasControls := cs.any needsEscape
  let hasBackslash := cs.contains '\\'
  let hasNewline := cs.contains '\n'
  let doubles := longestRun '"' cs
  let singles := longestRun (Char.ofNat 39) cs
  if !(hasControls || hasBackslash || 0 < doubles || hasNewline) then doubleQuoted cs
  else if !(hasControls || 0 < singles || hasNewline) then singleQuoted cs
  else if !(hasControls || hasBackslash || 2 < doubles) then longDoubleQuoted cs
  else if !(hasControls || 2 < singles) then longSingleQuoted cs
  else if hasNewline then longDoubleQuoted cs
  else doubleQuoted cs

/-- A character of a key that needs no quotes. -/
def isBareKeyChar (c : Char) : Bool := c.isAlphanum || c == '_' || c == '-'

/-- A key as text: bare if it can be, else quoted. -/
def keyText (key : String) : String :=
  let cs := key.toList
  let isPlain (quote : Char) : Bool :=
    !(cs.any needsEscape) && !(cs.contains quote) && !(cs.contains '\n')
  if !cs.isEmpty && cs.all isBareKeyChar then key
  else if isPlain '"' && !(cs.contains '\\') then doubleQuoted cs
  else if isPlain (Char.ofNat 39) then singleQuoted cs
  else doubleQuoted cs

/-! ### Values as text -/

/-- A float as text: the fewest digits, with a point. -/
def floatText (x : Binary64) : String :=
  if x.isNaN then "nan"
  else if x.isFinite then x.textWithPoint
  else if x.isNegative then "-inf"
  else "inf"

namespace Value

mutual

/-- The value in one line. -/
def text : Value → String
  | .string s => stringText s
  | .integer n => toString n
  | .float x => floatText x
  | .boolean true => "true"
  | .boolean false => "false"
  | .moment m => m.text
  | .array items => "[" ++ Text.joinWith ", " (texts items) ++ "]"
  | .table entries =>
    if entries.isEmpty then "\x7b\x7d"
    else "\x7b " ++ Text.joinWith ", " (entryTexts entries) ++ " \x7d"

/-- The values, each in one line. -/
def texts : List Value → List String
  | [] => []
  | item :: items => text item :: texts items

/-- The entries of a table. -/
def entryTexts : List (String × Value) → List String
  | [] => []
  | (key, value) :: entries => (keyText key ++ " = " ++ text value) :: entryTexts entries

end

end Value

end DataClassGen.Toml
