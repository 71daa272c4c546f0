import DataClassGen.Numeric.Binary64

/-!
# JSON values

The value of a JSON text. A number is an integer when it is written as one and fits the signed
or unsigned 64-bit range, and a double otherwise. The members of an object are kept in order
and with their repetitions, since a reader of a record refuses a repeated field.

Some texts are well formed but stand for no value: a string with half a surrogate pair or with
broken UTF-8, a number beyond every double, a list or object nested too deeply, an object with
such a string for a key. They are `unusable`: they may be passed over, but not read.
-/

namespace DataClassGen

/-- A JSON value. -/
inductive Json where
  /-- The value `null`. -/
  | null
  /-- A truth value. -/
  | bool (value : Bool)
  /-- A number written as an integer, of at most 64 bits. -/
  | int (value : Int)
  /-- Any other number. -/
  | double (value : Binary64)
  /-- A string. -/
  | str (value : String)
  /-- A list. -/
  | arr (items : List Json)
  /-- An object. -/
  | obj (members : List (String × Json))
  /-- A well-formed text without a value. -/
  | unusable
  deriving Inhabited

namespace Json

mutual

/-- Nothing in the value is unusable. -/
def isUsable : Json → Bool
  | .null | .bool _ | .int _ | .double _ | .str _ => true
  | .arr items => areUsable items
  | .obj members => membersUsable members
  | .unusable => false

/-- Nothing in the items is unusable. -/
def areUsable : List Json → Bool
  | [] => true
  | item :: items => isUsable item && areUsable items

/-- Nothing in the members is unusable. -/
def membersUsable : List (String × Json) → Bool
  | [] => true
  | (_, value) :: members => isUsable value && membersUsable members

end

/-- How many of the members have this key. -/
def countKey (key : String) (members : List (String × Json)) : Nat :=
  members.countP (·.1 == key)

end Json

end DataClassGen
