import DataClassGen.Json.Record

/-!
# The states of a declaration

A declaration is discovered, validated, modeled, composed into a file and emitted, in this order;
until it is composed it can be skipped instead. Nothing follows on `emitted` and `skipped`.
-/

namespace DataClassGen

/-- How far a declaration has come. -/
inductive Lifecycle where
  /-- It was seen in a round. -/
  | discovered
  /-- It may be nested where it is. -/
  | validated
  /-- It has a model. -/
  | modeled
  /-- Its model is part of a file. -/
  | composed
  /-- Its file is written. -/
  | emitted
  /-- It is left out. -/
  | skipped
  deriving DecidableEq, Repr

namespace Lifecycle

/-- All states. -/
def all : List Lifecycle := [.discovered, .validated, .modeled, .composed, .emitted, .skipped]

/-- The state's name in a document. -/
def name : Lifecycle → String
  | .discovered => "discovered"
  | .validated => "validated"
  | .modeled => "modeled"
  | .composed => "composed"
  | .emitted => "emitted"
  | .skipped => "skipped"

/-- The state's name in a message. -/
def title : Lifecycle → String
  | .discovered => "Discovered"
  | .validated => "Validated"
  | .modeled => "Modeled"
  | .composed => "Composed"
  | .emitted => "Emitted"
  | .skipped => "Skipped"

/-- The second state may follow on the first. -/
def allows : Lifecycle → Lifecycle → Bool
  | .discovered, .validated | .validated, .modeled | .modeled, .composed | .composed, .emitted
  | .discovered, .skipped | .validated, .skipped | .modeled, .skipped => true
  | _, _ => false

/-- No state follows. -/
def isFinal : Lifecycle → Bool
  | .emitted | .skipped => true
  | _ => false

/-- The declaration has a model. -/
def hasModel : Lifecycle → Bool
  | .modeled | .composed | .emitted => true
  | _ => false

/-- A state is final just when no state may follow on it. -/
theorem isFinal_iff (s : Lifecycle) : s.isFinal = true ↔ ∀ t, s.allows t = false := by
  cases s <;> simp [isFinal, allows]
  case composed => exact ⟨.emitted, rfl⟩
  all_goals exact ⟨.skipped, rfl⟩

/-- A state, from a document. -/
def ofJson? (value : Json) : Option Lifecycle := Json.choice? all name .document value

/-- A state, for a document. -/
def toJson (s : Lifecycle) : Json := .str s.name

end Lifecycle

end DataClassGen
