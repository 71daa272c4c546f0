import DataClassGen.Failure
import DataClassGen.Keyed
import DataClassGen.Text.Blank
import DataClassGen.Text.Split
import DataClassGen.Toml.Reader

/-!
# Options

What a run is told: where the sources go, which classes to convert, and whether a value class
nested in another type is converted all the same. Options come as texts by name, the way an
annotation processor is given them; a configuration file gives the same texts as the entries of
its topmost table. Names that are not known have no effect.
-/

namespace DataClassGen

/-- What a run is told. -/
structure Options where
  /-- The directory that the sources go under. -/
  srcDir : String
  /-- The simple names of the classes to convert, in order; none of them means all classes. -/
  targets : List String := []
  /-- A value class nested in another type is reported, but converted. -/
  ignoreNested : Bool := false
  deriving DecidableEq, Repr

namespace Options

/-- The option for the directory of the sources. -/
def srcKey : String := "avkSrc"

/-- The option for the classes to convert, their names divided by colons. -/
def targetsKey : String := "avkTargets"

/-- The option for converting nested value classes all the same. -/
def ignoreNestedKey : String := "avkIgnoreNested"

/-- The names in a text that divides them by colons, in order. -/
def parseTargets (value : String) : List String :=
  orderedNames (((Text.split ':' value).map Text.trim).filter (!·.isEmpty))

/-- A truth value, in exactly one spelling each. -/
def parseBool (key value : String) : Except Failure Bool :=
  match value with
  | "true" => .ok true
  | "false" => .ok false
  | _ => .error (.invalidOption key value)

/-- The options with these texts. -/
def ofTexts (texts : List (String × String)) : Except Failure Options := do
  let srcDir ←
    match texts.lookup srcKey with
    | some value => if Text.isBlankText value then .error (.missingOption srcKey) else .ok value
    | none => .error (.missingOption srcKey)
  let ignoreNested ←
    match texts.lookup ignoreNestedKey with
    | some value => parseBool ignoreNestedKey value
    | none => .ok false
  return { srcDir, targets := ((texts.lookup targetsKey).map parseTargets).getD [], ignoreNested }

/-- The text of an option in a configuration file: a string as it is, a truth value in its
spelling, the strings of an array divided by colons. -/
def textOf (key : String) : Toml.Value → Except Failure String
  | .string s => .ok s
  | .boolean true => .ok "true"
  | .boolean false => .ok "false"
  | .array items =>
    .ok (Text.joinWith ":" (items.filterMap fun
      | .string s => some s
      | _ => none))
  | value => .error (.invalidOption key value.text)

/-- The texts of a configuration file, in the order of their names. -/
def textsOfToml (source : String) : Except Failure (List (String × String)) :=
  match Toml.read? source with
  | none => .error .toml
  | some entries => entries.mapM fun (key, value) => do return (key, ← textOf key value)

/-- The class is to be converted: its name or that of the top-level class around it was given,
or none was. -/
def isTargeted (options : Options) (simpleName outermost : String) : Bool :=
  options.targets.isEmpty || options.targets.contains simpleName ||
    options.targets.contains outermost

end Options

end DataClassGen
