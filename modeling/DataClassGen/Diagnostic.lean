import DataClassGen.Json.Printer
import DataClassGen.Json.Record

/-!
# Diagnostics

What a run reports about declarations: a severity, a message and, where there is one, the
qualified name of the element it is about. A log keeps them in the order of their reports.
-/

namespace DataClassGen

/-- How severe a diagnostic is. -/
inductive Severity where
  | note
  | warning
  | error
  deriving DecidableEq, Repr

namespace Severity

/-- All severities. -/
def all : List Severity := [.note, .warning, .error]

/-- The severity's name. -/
def name : Severity → String
  | .note => "note"
  | .warning => "warning"
  | .error => "error"

/-- A severity, from a document. -/
def ofJson? (value : Json) : Option Severity := Json.choice? all name .document value

end Severity

/-- A report about an element, or about none in particular. -/
structure Diagnostic where
  severity : Severity
  message : String
  element : Option String := none
  deriving DecidableEq, Repr

namespace Diagnostic

/-- The diagnostic in one line. -/
def line (d : Diagnostic) : String :=
  let text := d.severity.name ++ ": " ++ d.message
  match d.element with
  | some element => text ++ " [" ++ element ++ "]"
  | none => text

/-- A diagnostic, from a document. -/
def ofJson? (value : Json) : Option Diagnostic := do
  let fields ← Json.record? ["kind", "message", "element"] value
  return {
    severity := ← fields.required "kind" Severity.ofJson?
    message := ← fields.required "message" Json.string?
    element := ← fields.optional "element" Json.string? }

/-- A diagnostic, for a document. -/
def toJson (d : Diagnostic) : Json :=
  .obj ([("kind", .str d.severity.name), ("message", .str d.message)] ++
    Json.optionalMember "element" (d.element.map .str))

end Diagnostic

/-- Diagnostics in the order of their reports. -/
abbrev Log := List Diagnostic

namespace Log

/-- The diagnostics of one severity. -/
def ofSeverity (log : Log) (severity : Severity) : Log :=
  List.filter (fun d : Diagnostic => d.severity == severity) log

/-- How many diagnostics of one severity there are. -/
def count (log : Log) (severity : Severity) : Nat := (log.ofSeverity severity).length

/-- An error was reported. -/
def hasErrors (log : Log) : Bool := 0 < log.count .error

end Log

/-- How diagnostics are printed. -/
inductive ReportFormat where
  /-- A line for each. -/
  | text
  /-- A JSON list. -/
  | json
  deriving DecidableEq, Repr

/-- The diagnostics as they are printed. -/
def Log.render (log : Log) : ReportFormat → String
  | .text => Text.concat (log.map fun d => d.line ++ "\n")
  | .json => (Json.arr (log.map Diagnostic.toJson)).pretty ++ "\n"

end DataClassGen
