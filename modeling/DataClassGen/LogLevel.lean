import DataClassGen.Failure
import DataClassGen.Text.Letter

/-!
# Log levels

How much a program tells of its own doings. The levels are ordered from the most to the least
talkative.
-/

namespace DataClassGen

/-- How much a program tells of its own doings. -/
inductive LogLevel where
  | trace
  | debug
  | info
  | warn
  | error
  | off
  deriving DecidableEq, Repr

namespace LogLevel

/-- The level of a program that is told none. -/
def default : LogLevel := .info

/-- The level's name in a filter. -/
def name : LogLevel → String
  | .trace => "trace"
  | .debug => "debug"
  | .info => "info"
  | .warn => "warn"
  | .error => "error"
  | .off => "off"

/-- The level's name in a message. -/
def title : LogLevel → String
  | .trace => "TRACE"
  | .debug => "DEBUG"
  | .info => "INFO"
  | .warn => "WARN"
  | .error => "ERROR"
  | .off => "OFF"

/-- The place of the level, from the most talkative on. -/
def rank : LogLevel → Nat
  | .trace => 0
  | .debug => 1
  | .info => 2
  | .warn => 3
  | .error => 4
  | .off => 5

/-- A level by its name, in ASCII letters of either case. -/
def parse (s : String) : Except Failure LogLevel :=
  match Text.asciiLower s with
  | "trace" => .ok .trace
  | "debug" => .ok .debug
  | "info" => .ok .info
  | "warn" | "warning" => .ok .warn
  | "error" => .ok .error
  | "off" => .ok .off
  | _ => .error (.invalidOption "log-level" s)

end LogLevel

end DataClassGen
