import DataClassGen.Command.Invocation
import DataClassGen.Element.Decode
import DataClassGen.Run.Session

/-!
# The program

What the program does with its arguments: it reads rounds from files, converts them and writes
source files, or lists which declarations can be converted. Diagnostics and failures go to the
error output, what was written or found to the output. The code it ends with is 0 if all went
well, 1 if an error was reported, and the code of the failure if there was one.
-/

namespace DataClassGen

/-- What a run of the program leaves besides files. -/
structure Outcome where
  code : Nat
  output : String := ""
  errorOutput : String := ""
  deriving DecidableEq, Repr

/-- A failure that ends a run, and what the run failed to do. -/
structure Fatal where
  failure : Failure
  context : Option String := none
  deriving DecidableEq, Repr

namespace Fatal

/-- The failure in words. -/
def message (fatal : Fatal) : String :=
  match fatal.context with
  | some context => context ++ ": " ++ fatal.failure.message
  | none => fatal.failure.message

/-- What is said of a defect of the conversion. -/
def defectNote : String :=
  "This is a bug in avk; please report it along with the round files."

/-- What the program prints of the failure. -/
def report (fatal : Fatal) : String :=
  "Error: " ++ fatal.message ++ "\n" ++
    (if fatal.failure.isInternal then defectNote ++ "\n" else "")

/-- What is left of a run that the failure ended, which printed `printed` before. -/
def outcome (fatal : Fatal) (printed : String) : Outcome :=
  { code := fatal.failure.exitCode, errorOutput := printed ++ fatal.report }

end Fatal

section Commands

variable {m : Type → Type} [Monad m]

/-- The failures of a step, with what it fails to do. -/
def whileDoing {n : Type → Type} [Monad n] {α : Type} (context : String)
    (step : ExceptT Failure n α) : ExceptT Fatal n α :=
  step.adapt fun failure => { failure, context := some context }

/-- The failures of a step, by themselves. -/
def unexplained {n : Type → Type} [Monad n] {α : Type} (step : ExceptT Failure n α) :
    ExceptT Fatal n α :=
  step.adapt fun failure => { failure }

/-! ### Reading -/

/-- A file that must have a reading. -/
def readAs {α : Type} (failure : Failure) (reading : Bytes → Option α) (bytes : Bytes) :
    ExceptT Failure m α :=
  match reading bytes with
  | some value => return value
  | none => throw failure

/-- The round in a file. -/
def loadRound (access : FileAccess m) (path : String) : ExceptT Fatal m Round := do
  let bytes ← whileDoing ("Failed to read round: " ++ path) (access.read path)
  whileDoing ("Failed to parse round: " ++ path) (readAs .json Round.ofBytes? bytes)

/-- The texts of a configuration file. -/
def loadConfig (access : FileAccess m) (path : String) :
    ExceptT Fatal m (List (String × String)) := do
  let source ← whileDoing ("Failed to read config: " ++ path) do
    readAs (.io "the file is not a text") Text.ofBytes? (← access.read path)
  whileDoing ("Failed to parse config: " ++ path)
    (ExceptT.mk (pure (Options.textsOfToml source)))

/-- The options of a configuration file, if there is one, and of definitions, which go before. -/
def collectOptions (access : FileAccess m) (definitions : List (String × String))
    (config : Option String) : ExceptT Fatal m Options := do
  let texts ←
    match config with
    | some path => loadConfig access path
    | none => pure []
  unexplained (ExceptT.mk (pure (Options.ofTexts (Definition.override texts definitions))))

/-! ### Converting -/

/-- A task of a session with access to files. -/
abbrev Task (m : Type → Type) := ExceptT Fatal (StateT Session m)

/-- The round in a file is taken in. -/
def takeIn (access : FileAccess m) (path : String) : Task m Unit := do
  let round ← ExceptT.mk (StateT.lift (loadRound access path))
  whileDoing ("Failed to process round: " ++ path) (Session.process round).withFiles

/-- The rounds in some files are taken in. -/
def takeInAll (access : FileAccess m) : List String → Task m Unit
  | [] => return ()
  | path :: paths => do
    takeIn access path
    takeInAll access paths

/-- The rounds in some files are taken in, and source files are written. -/
def writeSources (access : FileAccess m) (rounds : List String) :
    Task m (List GeneratedFile) := do
  takeInAll access rounds
  whileDoing "Failed to generate Kotlin sources" (Session.finish access)

/-- The declarations that have a model or are skipped, in order. -/
def Session.findings (session : Session) : List (String × Lifecycle) :=
  session.registry.states.filter fun (_, state) => state == .modeled || state == .skipped

/-- The rounds in some files are taken in, and what they have is listed. -/
def summarize (access : FileAccess m) (rounds : List String) :
    Task m (List (String × Lifecycle)) := do
  takeInAll access rounds
  return (← getThe Session).findings

/-! ### Commands -/

/-- The code of a run that came to its end. -/
def codeOf (log : Log) : Nat := if log.hasErrors then 1 else 0

/-- Source files are generated from the rounds in some files. -/
def runGenerate (access : FileAccess m) (format : ReportFormat)
    (definitions : List (String × String)) (config : Option String) (rounds : List String) :
    m Outcome := do
  match ← (collectOptions access definitions config).run with
  | .error fatal => return fatal.outcome ""
  | .ok options =>
    let (result, session) ← (writeSources access rounds).run.run { options }
    let report := session.log.render format
    match result with
    | .error fatal => return fatal.outcome report
    | .ok files =>
      return {
        code := codeOf session.log
        output := Text.concat (files.map fun file => file.path ++ "\n")
        errorOutput := report }

/-- A declaration in a list of what was found. -/
def findingLine : String × Lifecycle → String
  | (name, state) => (if state.hasModel then "✓ " else "✗ ") ++ name ++ "\n"

/-- The list of what was found. -/
def findingsText (found : List (String × Lifecycle)) : String :=
  Text.concat (found.map findingLine) ++ "\n" ++
    toString (found.filter (·.2.hasModel)).length ++ " of " ++ toString found.length ++
    " declaration(s) convertible\n"

/-- What is in the rounds in some files is listed. -/
def runCheck (access : FileAccess m) (format : ReportFormat) (rounds : List String) :
    m Outcome := do
  let (result, session) ← (summarize access rounds).run.run { options := { srcDir := "" } }
  match result with
  | .error fatal => return fatal.outcome (session.log.render format)
  | .ok found =>
    let session :=
      if session.candidates = 0 then (Session.reportNoValueClasses.runOn session).2 else session
    return {
      code := codeOf session.log
      output := findingsText found
      errorOutput := session.log.render format }

/-- A command is carried out. -/
def Invocation.run (access : FileAccess m) (invocation : Invocation) : m Outcome :=
  match invocation.command with
  | .generate definitions config rounds =>
    runGenerate access invocation.reportFormat definitions config rounds
  | .check rounds => runCheck access invocation.reportFormat rounds

end Commands

/-! ### Command lines that are not followed -/

namespace Stop

/-- How the program is used. -/
def usage : String :=
  "Convert AutoValue classes to Kotlin data classes\n\n" ++
  "Usage: avk [OPTIONS] generate [-A KEY=VALUE]... [-c CONFIG] ROUNDS...\n" ++
  "       avk [OPTIONS] check ROUNDS...\n\n" ++
  "Options:\n" ++
  "      --log-level LEVEL            trace, debug, info, warn, error or off\n" ++
  "      --diagnostics-format FORMAT  text or json\n" ++
  "  -A KEY=VALUE                     generator option\n" ++
  "  -c, --config CONFIG              file with generator options\n" ++
  "  -h, --help                       print this help\n" ++
  "  -V, --version                    print the version\n"

/-- The version of the program. -/
def versionText : String := "avk 0.3.0\n"

/-- What is wrong with the command line; nothing is if it asks about the program. -/
def fault? : Stop → Option String
  | .help | .version => none
  | .unknownArgument argument => some ("unexpected argument '" ++ argument ++ "'")
  | .missingValue setting => some ("a value is required for '" ++ setting.shown ++ "'")
  | .invalidValue setting value reason =>
    some ("invalid value '" ++ value ++ "' for '" ++ setting.shown ++ "': " ++ reason)
  | .repeated setting => some ("'" ++ setting.shown ++ "' cannot be used multiple times")
  | .missingCommand => some "a command is required"
  | .missingRounds => some "at least one round file is required"
  | .emptyPath => some "a path is empty"

/-- The code of a run whose command line is not understood. -/
def misuseCode : Nat := 2

/-- What is left of a run that did nothing. -/
def outcome (stop : Stop) : Outcome :=
  match stop.fault? with
  | some fault =>
    { code := misuseCode, errorOutput := "error: " ++ fault ++ "\n\n" ++ usage }
  | none => { code := 0, output := if stop = .version then versionText else usage }

end Stop

/-- The program with these arguments. -/
def runProgram {m : Type → Type} [Monad m] (access : FileAccess m) (arguments : List String) :
    m Outcome :=
  match Invocation.parse arguments with
  | .ok invocation => invocation.run access
  | .error stop => return stop.outcome

end DataClassGen
