import DataClassGen.Diagnostic
import DataClassGen.Failure

/-!
# Reporting

A computation that reports diagnostics as it goes and may fail. What it reported before a failure
stays reported.
-/

namespace DataClassGen

/-- A computation that adds to a log and may fail. -/
abbrev Reporting := ExceptT Failure (StateM Log)

namespace Reporting

/-- A diagnostic added to the log. -/
def report (severity : Severity) (message : String) (element : Option String) : Reporting Unit :=
  modify fun log => log ++ [{ severity, message, element }]

/-- A result that reports nothing. -/
def ofExcept {α : Type} (result : Except Failure α) : Reporting α := ExceptT.mk (pure result)

/-- The result, and the log that the computation leaves. -/
def runOn {α : Type} (computation : Reporting α) (log : Log) : Except Failure α × Log :=
  StateT.run (ExceptT.run computation) log

end Reporting

end DataClassGen
