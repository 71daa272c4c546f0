import DataClassGen.Files.Access
import DataClassGen.Files.Path
import DataClassGen.Model.Class
import DataClassGen.Model.Enum
import DataClassGen.Run.Candidate
import DataClassGen.Run.Registry
import DataClassGen.Source.Cleanup

/-!
# Sessions

A session takes rounds in, one after the other, and gives the source files out. Every value class
of a round is counted, and one that is to be converted and was not seen before is placed, modelled
and registered. What cannot be converted is reported and skipped. Files are generated from what is
registered then, and a class whose file was generated is not generated again.

A step that fails leaves the session as far as the step came.
-/

namespace DataClassGen

/-- The state of a run. -/
structure Session where
  options : Options
  registry : Registry := {}
  /-- How many value classes the rounds had, converted or not. -/
  candidates : Nat := 0
  /-- What was reported. -/
  log : Log := []

/-- A source file that was generated. -/
structure GeneratedFile where
  path : String
  /-- The canonical name of the class that the file is for. -/
  qualifiedName : String
  contents : String
  deriving DecidableEq, Repr

namespace Session

/-- A step of a session, which may fail. -/
abbrev Step := ExceptT Failure (StateM Session)

namespace Step

/-- The result of a step, and the session it leaves. -/
def runOn {α : Type} (step : Step α) (session : Session) : Except Failure α × Session :=
  StateT.run (ExceptT.run step) session

/-- The step that has this result and leaves this registry. -/
def ofRegistry {α : Type} (step : Registry → Except Failure α × Registry) : Step α :=
  ExceptT.mk fun session =>
    let (result, registry) := step session.registry
    pure (result, { session with registry })

/-- The step that has this result and leaves this log. -/
def ofReporting {α : Type} (step : Reporting α) : Step α :=
  ExceptT.mk fun session =>
    let (result, log) := step.runOn session.log
    pure (result, { session with log })

end Step

/-! ### Taking in -/

/-- One value class more. -/
def count : Step Unit := modify fun session =>
  { session with candidates := session.candidates + 1 }

/-- Some diagnostics more. -/
def report (log : Log) : Step Unit := modify fun session =>
  { session with log := session.log ++ log }

/-- The declaration is known from now on; it was not before. -/
def discover (name : String) : Step Bool :=
  .ofRegistry fun registry =>
    let (isNew, registry) := registry.discover name
    (.ok isNew, registry)

/-- The declaration enters a state. -/
def enter (name : String) (state : Lifecycle) : Step Unit :=
  .ofRegistry fun registry =>
    match registry.transition name state with
    | .ok registry => (.ok (), registry)
    | .error failure => (.error failure, registry)

/-- The names of those nested enums that are plain, each of them registered. -/
def registerEnums : List TypeElement → Step (List String)
  | [] => return []
  | element :: elements => do
    let (model, log) := EnumModel.ofElement? element
    report log
    match model with
    | none => registerEnums elements
    | some model =>
      let known ← .ofRegistry fun registry =>
        let (known, registry) := registry.registerEnum model
        (.ok known, registry)
      return known.qualifiedName :: (← registerEnums elements)

/-- The value class is modelled and registered, or skipped if it has no model. -/
def convert (element : TypeElement) (isTopLevel : Bool) : Step Unit := do
  enter element.qualifiedName .validated
  let enums ← registerEnums (element.nestedTypes.filter (·.isEnum))
  match ← .ofReporting (ClassModel.ofElement? element enums) with
  | none => enter element.qualifiedName .skipped
  | some model =>
    .ofRegistry fun registry =>
      (.ok (), (registry.registerClass { model with isTopLevel }).2)
    enter element.qualifiedName .modeled

/-- A value class is taken in. -/
def accept (element : TypeElement) : Step Unit := do
  count
  let options := (← get).options
  if options.isTargeted element.simpleName element.outermostSimpleName then
    if ← discover element.qualifiedName then
      let (place, log) := element.placement options
      report log
      match place with
      | .nowhere => enter element.qualifiedName .skipped
      | .ownFile => convert element true
      | .insideEnclosing => convert element false

/-- The value classes of a round are taken in. -/
def process (round : Round) : Step Unit := round.valueClasses.forM accept

/-! ### Giving out -/

/-- What is reported of rounds without value classes. -/
def noValueClasses : String := "No AutoValue classes found"

/-- The log says that there is nothing to convert. -/
def reportNoValueClasses : Step Unit :=
  report [{ severity := .error, message := noValueClasses }]

/-- The file of a class, which the registry loses. -/
def generateFile (root : String) : Step GeneratedFile := do
  let file ← .ofRegistry fun registry => registry.compose root
  return {
    path := Path.ofSource (← get).options.srcDir file.package file.root.name
    qualifiedName := root
    contents := file.emit }

/-- The files of the classes that are registered. -/
def generate : Step (List GeneratedFile) := do
  if (← get).candidates = 0 then
    reportNoValueClasses
    return []
  else
    let files ← (← get).registry.roots.mapM generateFile
    .ofRegistry Registry.drain
    return files

/-- The declarations whose files are written are emitted, and then all must be emitted or
skipped. -/
def settle : Step Unit := do
  ((← get).registry.inState .composed).forM fun name => enter name .emitted
  match (← get).registry.unfinished with
  | [] => return ()
  | names =>
    throw (.internal ("declarations left unfinished: " ++ Text.joinWith ", " names))

/-! ### With files -/

section Files

variable {m : Type → Type} [Monad m]

/-- A step of a session with access to files. -/
abbrev FileStep (m : Type → Type) := ExceptT Failure (StateT Session m)

/-- A step that looks at no files. -/
def Step.withFiles {α : Type} (step : Step α) : FileStep m α :=
  ExceptT.mk fun session => pure (step.runOn session)

/-- The files are written, one after the other. -/
def writeAll (access : FileAccess m) : List GeneratedFile → ExceptT Failure m Unit
  | [] => return ()
  | file :: files => do
    access.write file.path file.contents
    writeAll access files

/-- The files of the classes that are registered are generated and written. -/
def finish (access : FileAccess m) : FileStep m (List GeneratedFile) := do
  let files ← generate.withFiles
  ExceptT.mk (StateT.lift (writeAll access files))
  settle.withFiles
  return files

end Files

end Session

end DataClassGen
