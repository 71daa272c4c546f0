import DataClassGen.Keyed
import DataClassGen.Text.Blank
import DataClassGen.Text.Split

/-!
# Definitions of options

An option is defined on the command line as `name=value`. Blanks around the name do not count,
those around the value do. Of two definitions of one name the later holds.
-/

namespace DataClassGen

/-- Why an argument defines no option. -/
inductive DefinitionFault where
  /-- There is no equals sign in it. -/
  | noValue (argument : String)
  /-- There is nothing in front of the equals sign. -/
  | noName (argument : String)
  deriving DecidableEq, Repr

/-- The fault in words. -/
def DefinitionFault.message : DefinitionFault → String
  | .noValue argument => "expected KEY=VALUE, got '" ++ argument ++ "'"
  | .noName argument => "missing option name in '" ++ argument ++ "'"

namespace Definition

/-- The name and the value that an argument defines. -/
def parse (argument : String) : Except DefinitionFault (String × String) :=
  match Text.cutFirst? '=' argument with
  | none => .error (.noValue argument)
  | some (name, value) =>
    if (Text.trim name).isEmpty then .error (.noName argument) else .ok (Text.trim name, value)

/-- Texts by name, in order, with these definitions added. -/
def override (texts definitions : List (String × String)) : List (String × String) :=
  definitions.foldl (fun texts (name, value) => insertByKey name value texts) texts

end Definition

end DataClassGen
