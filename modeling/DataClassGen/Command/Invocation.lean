import DataClassGen.Command.Definition
import DataClassGen.Diagnostic
import DataClassGen.LogLevel

/-!
# Command lines

What the arguments of the program ask for. A command line is a command with values, and options
among them:

* an option with a long name takes its value behind an equals sign or as the next argument;
* an option with a short name takes its value as the rest of its argument, with or without an
  equals sign, or as the next argument;
* a value that is the next argument begins with no hyphen, unless it is a lone hyphen;
* behind `--` every argument is a value.

The options on logging and reporting may stand in front of the command or behind it, and the ones
behind it hold.
-/

namespace DataClassGen

/-! ### Options with values -/

/-- An option of the command line. -/
inductive Setting where
  | logLevel
  | reportFormat
  | definition
  | config
  deriving DecidableEq, Repr

namespace Setting

/-- The option's long name. -/
def longName? : Setting → Option String
  | .logLevel => some "log-level"
  | .reportFormat => some "diagnostics-format"
  | .definition => none
  | .config => some "config"

/-- The option's short name. -/
def shortName? : Setting → Option Char
  | .definition => some 'A'
  | .config => some 'c'
  | .logLevel | .reportFormat => none

/-- The option as it is written. -/
def shown (s : Setting) : String :=
  match s.longName?, s.shortName? with
  | some name, _ => "--" ++ name
  | none, some name => "-" ++ String.singleton name
  | none, none => ""

/-- The options that may stand on both sides of the command. -/
def global : List Setting := [.logLevel, .reportFormat]

/-- The options that may stand behind the command that generates files. -/
def ofGenerate : List Setting := .definition :: .config :: global

end Setting

/-- Why a command line is not followed. -/
inductive Stop where
  /-- The usage was asked for. -/
  | help
  /-- The version was asked for. -/
  | version
  | unknownArgument (argument : String)
  | missingValue (setting : Setting)
  | invalidValue (setting : Setting) (value reason : String)
  | repeated (setting : Setting)
  | missingCommand
  | missingRounds
  | emptyPath
  deriving DecidableEq, Repr

/-! ### Words -/

/-- What an argument is by itself. -/
inductive Word where
  /-- An option with its value. -/
  | given (setting : Setting) (value : String)
  /-- An option whose value is the next argument. -/
  | awaiting (setting : Setting)
  /-- The mark behind which every argument is a value. -/
  | endOfSettings
  | plain (text : String)
  deriving DecidableEq, Repr

namespace Word

/-- An argument that begins with two hyphens, without them. -/
def ofLong (known : List Setting) (argument name : String) : Except Stop Word :=
  let (name, value?) :=
    match Text.cutFirst? '=' name with
    | some (name, value) => (name, some value)
    | none => (name, none)
  match known.find? (·.longName? == some name), value? with
  | some setting, some value => .ok (.given setting value)
  | some setting, none => .ok (.awaiting setting)
  | none, none => .error (if name == "help" then .help else .unknownArgument argument)
  | none, some _ => .error (.unknownArgument argument)

/-- An argument that begins with one hyphen: the character behind it, and the rest. -/
def ofShort (known : List Setting) (argument : String) (name : Char) (rest : List Char) :
    Except Stop Word :=
  match known.find? (·.shortName? == some name), rest with
  | some setting, [] => .ok (.awaiting setting)
  | some setting, '=' :: value => .ok (.given setting (String.ofList value))
  | some setting, value => .ok (.given setting (String.ofList value))
  | none, _ => .error (if name == 'h' then .help else .unknownArgument argument)

/-- What an argument is, where these options are known. -/
def ofArgument (known : List Setting) (argument : String) : Except Stop Word :=
  match argument.toList with
  | ['-', '-'] => .ok .endOfSettings
  | '-' :: '-' :: name => ofLong known argument (String.ofList name)
  | '-' :: name :: rest => ofShort known argument name rest
  | _ => .ok (.plain argument)

/-- The argument can be the value of the option in front of it. -/
def isValue (argument : String) : Bool := !Text.beginsWith "-" argument || argument == "-"

end Word

/-! ### Settings -/

/-- The values of options. -/
structure Settings where
  logLevel : Option LogLevel := none
  reportFormat : Option ReportFormat := none
  definitions : List (String × String) := []
  config : Option String := none
  deriving DecidableEq, Repr

/-- A way of printing diagnostics, by its name. -/
def ReportFormat.parse? : String → Option ReportFormat
  | "text" => some .text
  | "json" => some .json
  | _ => none

namespace Settings

/-- The settings with one option more. Only definitions may be repeated. -/
def add (settings : Settings) : Setting → String → Except Stop Settings
  | .logLevel, value =>
    if settings.logLevel.isSome then .error (.repeated .logLevel)
    else
      match LogLevel.parse value with
      | .ok level => .ok { settings with logLevel := some level }
      | .error failure => .error (.invalidValue .logLevel value failure.message)
  | .reportFormat, value =>
    if settings.reportFormat.isSome then .error (.repeated .reportFormat)
    else
      match ReportFormat.parse? value with
      | some format => .ok { settings with reportFormat := some format }
      | none => .error (.invalidValue .reportFormat value "expected text or json")
  | .definition, value =>
    match Definition.parse value with
    | .ok definition => .ok { settings with definitions := settings.definitions ++ [definition] }
    | .error fault => .error (.invalidValue .definition value fault.message)
  | .config, value =>
    if settings.config.isSome then .error (.repeated .config)
    else if value.isEmpty then .error .emptyPath
    else .ok { settings with config := some value }

end Settings

/-! ### Arguments -/

/-- A path, which is not empty. -/
def checkPath (path : String) : Except Stop String :=
  if path.isEmpty then .error .emptyPath else .ok path

/-- The settings with the options among arguments, and the paths among them. The first argument
that is wrong or asks for help ends the reading. -/
def readArguments (known : List Setting) (settings : Settings) :
    List String → Except Stop (Settings × List String)
  | [] => .ok (settings, [])
  | argument :: rest => do
    match ← Word.ofArgument known argument with
    | .endOfSettings => return (settings, ← rest.mapM checkPath)
    | .plain path =>
      let path ← checkPath path
      let (settings, paths) ← readArguments known settings rest
      return (settings, path :: paths)
    | .given setting value => readArguments known (← settings.add setting value) rest
    | .awaiting setting =>
      match rest with
      | [] => throw (.missingValue setting)
      | value :: rest =>
        if Word.isValue value then readArguments known (← settings.add setting value) rest
        else throw (.missingValue setting)

/-- The settings with the options in front of the command, and the arguments from the command on. -/
def readBeforeCommand (settings : Settings) : List String → Except Stop (Settings × List String)
  | [] => .error .missingCommand
  | argument :: rest => do
    if argument == "--version" || Text.beginsWith "-V" argument then throw .version
    match ← Word.ofArgument Setting.global argument with
    | .endOfSettings => throw .missingCommand
    | .plain _ => return (settings, argument :: rest)
    | .given setting value => readBeforeCommand (← settings.add setting value) rest
    | .awaiting setting =>
      match rest with
      | [] => throw (.missingValue setting)
      | value :: rest =>
        if Word.isValue value then readBeforeCommand (← settings.add setting value) rest
        else throw (.missingValue setting)

/-! ### Invocations -/

/-- What the program is to do. -/
inductive Command where
  /-- Source files are generated from the rounds in some files. -/
  | generate (definitions : List (String × String)) (config : Option String) (rounds : List String)
  /-- What is in the rounds in some files is listed. -/
  | check (rounds : List String)
  deriving DecidableEq, Repr

/-- A command, and how the program goes about it. -/
structure Invocation where
  logLevel : Option LogLevel
  reportFormat : ReportFormat
  command : Command
  deriving DecidableEq, Repr

namespace Invocation

/-- The settings and the paths behind a command, where these options are known. There must be a
path. -/
def readBehindCommand (known : List Setting) (arguments : List String) :
    Except Stop (Settings × List String) := do
  let (settings, paths) ← readArguments known {} arguments
  if paths.isEmpty then throw .missingRounds
  return (settings, paths)

/-- An invocation with settings from both sides of the command. -/
def ofSettings (before behind : Settings) (command : Command) : Invocation :=
  { logLevel := behind.logLevel <|> before.logLevel
    reportFormat := (behind.reportFormat <|> before.reportFormat).getD .text
    command }

/-- What the arguments of the program ask for. -/
def parse (arguments : List String) : Except Stop Invocation := do
  let (before, arguments) ← readBeforeCommand {} arguments
  match arguments with
  | "generate" :: arguments =>
    let (behind, rounds) ← readBehindCommand Setting.ofGenerate arguments
    return ofSettings before behind (.generate behind.definitions behind.config rounds)
  | "check" :: arguments =>
    let (behind, rounds) ← readBehindCommand Setting.global arguments
    return ofSettings before behind (.check rounds)
  | ["help"] | ["help", "generate"] | ["help", "check"] | ["help", "help"] => throw .help
  | argument :: _ => throw (.unknownArgument argument)
  | [] => throw .missingCommand

end Invocation

end DataClassGen
