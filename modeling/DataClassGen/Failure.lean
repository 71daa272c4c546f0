/-!
# Failures

The causes that end a run. A declaration that cannot be converted is no failure: it is reported
and left out. A failure is either the caller's (an option, a malformed document), the
surroundings' (a file that cannot be read or written) or a defect of the conversion itself.
-/

namespace DataClassGen

/-- The cause that ends a run. -/
inductive Failure where
  /-- An option that must be given was not. -/
  | missingOption (key : String)
  /-- An option has a value that it cannot have. -/
  | invalidOption (key value : String)
  /-- A use of a type that has no counterpart. -/
  | unsupportedType (shown : String)
  /-- A default was wanted for a type without values. -/
  | illegalDefault (shown : String)
  /-- A class lists a child that is not registered. -/
  | missingChild (child parent : String)
  /-- A nested class that no class took in. -/
  | orphanedChild (name : String)
  /-- A declaration was to enter a state that does not follow the one it is in. -/
  | invalidTransition (name source target : String)
  /-- A file could not be read or written. -/
  | io (reason : String)
  /-- A document is not an element model. -/
  | json
  /-- A configuration file is malformed. -/
  | toml
  /-- Something that cannot happen did. -/
  | internal (reason : String)
  deriving DecidableEq, Repr

namespace Failure

/-- The failure in words. -/
def message : Failure → String
  | .missingOption key => "missing required option: " ++ key
  | .invalidOption key value => "invalid value for option " ++ key ++ ": " ++ value
  | .unsupportedType shown => "unsupported type: " ++ shown
  | .illegalDefault shown =>
    "parameter with void, Unit, or Nothing type is illegal: " ++ shown
  | .missingChild child parent => "missing child " ++ child ++ " for parent " ++ parent
  | .orphanedChild name => "orphaned nested declaration: " ++ name
  | .invalidTransition name source target =>
    "invalid declaration state for " ++ name ++ ": " ++ source ++ " -> " ++ target
  | .io reason => "I/O error: " ++ reason
  | .json => "JSON error: malformed element model"
  | .toml => "TOML error: malformed configuration"
  | .internal reason => "internal error: " ++ reason

/-- The failure is a defect of the conversion. -/
def isInternal : Failure → Bool
  | .unsupportedType _ | .illegalDefault _ | .missingChild _ _ | .orphanedChild _
  | .invalidTransition _ _ _ | .internal _ => true
  | .missingOption _ | .invalidOption _ _ | .io _ | .json | .toml => false

/-- The code that a program ends with after the failure. -/
def exitCode : Failure → Nat
  | .missingOption _ | .invalidOption _ _ => 2
  | .json | .toml => 3
  | .io _ => 4
  | .unsupportedType _ | .illegalDefault _ | .missingChild _ _ | .orphanedChild _
  | .invalidTransition _ _ _ | .internal _ => 70

/-- A defect of the conversion ends a program with code 70, and nothing else does. -/
theorem exitCode_eq_70_iff (f : Failure) : f.exitCode = 70 ↔ f.isInternal = true := by
  cases f <;> simp [exitCode, isInternal]

end Failure

end DataClassGen
