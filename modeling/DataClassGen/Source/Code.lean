import DataClassGen.Source.TypeName

/-!
# Code

A piece of code is a list of parts. A name, a string and a type in it are kept as what they are
until the file is written, since only then it is known how a class is to be referred to.
-/

namespace DataClassGen.Source

/-- A part of a piece of code. -/
inductive CodePart where
  /-- Text that is written as it stands. -/
  | literal (text : String)
  /-- A name, escaped where it has to be. -/
  | name (name : String)
  /-- A text, written as a string literal. -/
  | string (value : String)
  /-- A type. -/
  | type (type : TypeName)
  deriving DecidableEq

/-- A piece of code. -/
abbrev Code := List CodePart

namespace Code

/-- Text that is written as it stands; none at all if it is empty. -/
def lit (text : String) : Code := if text.isEmpty then [] else [.literal text]

/-- A name. -/
def ident (name : String) : Code := [.name name]

/-- A string literal. -/
def str (value : String) : Code := [.string value]

/-- A type. -/
def typed (type : TypeName) : Code := [.type type]

/-- A class. -/
def classed (cls : ClassName) : Code := typed (.ofClass cls)

/-- Pieces one after the other, with `sep` between neighbours. -/
def joined (sep : String) : List Code → Code
  | [] => []
  | [code] => code
  | code :: next :: rest => code ++ lit sep ++ joined sep (next :: rest)

/-- The code begins with literal text that begins with `start`. -/
def beginsWith (start : String) : Code → Bool
  | .literal text :: _ => Text.beginsWith start text
  | _ => false

/-- The code behind literal text `start`. -/
def after? (start : String) : Code → Option Code
  | .literal text :: rest => (Text.after? start text).map fun text => lit text ++ rest
  | _ => none

/-- The code as text, with types written by `resolve`. -/
def textWith (resolve : TypeName → String) (code : Code) : String :=
  Text.concat (code.map fun
    | .literal text => text
    | .name name => escape name
    | .string value => stringLiteral value
    | .type type => resolve type)

/-- The code as text, with canonical names. -/
def shown (code : Code) : String := code.textWith TypeName.shown

end Code

end DataClassGen.Source
