import DataClassGen.Json.Basic

/-!
# Records in JSON

How the values of a fixed shape are laid out as JSON values. A record is an object of its fields
or a list of them in their order; an object may hold further members, which are ignored, but no
field twice. A field with a default may be left out; an optional one may also be `null`. A choice
between names is a string, or an object whose only member has the name for its key and `null` for
its value.

A variant with contents carries its name in one of two ways. As one member among the contents
(`splitTag?`): then the contents are the fields of a record, and the name comes first if they are a
list. Or beside a member that holds the contents (`splitContent?`), or in front of them in a list of
the two: then contents that are fields of the variant itself are an object, never a list.

In the first way, and in the second when the contents come before the name, the contents are set
aside until the name is known. What was set aside must be usable throughout, and is then read a
little more freely: a choice may have an empty object for its value, and a name among the contents
or in front of them may be given as its number.
-/

namespace DataClassGen.Json

/-- How a value is come by: directly from the document, or from what was set aside. -/
inductive Source where
  | document
  | setAside
  deriving DecidableEq, Repr

/-! ### Depth -/

mutual

/-- How deep lists and objects nest in the value. -/
def depth : Json → Nat
  | .null | .bool _ | .int _ | .double _ | .str _ | .unusable => 0
  | .arr items => depthOfItems items + 1
  | .obj members => depthOfMembers members + 1

/-- How deep lists and objects nest in the items. -/
def depthOfItems : List Json → Nat
  | [] => 0
  | item :: items => max (depth item) (depthOfItems items)

/-- How deep lists and objects nest in the members. -/
def depthOfMembers : List (String × Json) → Nat
  | [] => 0
  | (_, value) :: members => max (depth value) (depthOfMembers members)

end

/-! ### Simple values -/

/-- A string. -/
def string? : Json → Option String
  | .str s => some s
  | _ => none

/-- A truth value. -/
def bool? : Json → Option Bool
  | .bool b => some b
  | _ => none

/-- An integer of 64 bits with its sign. -/
def int64? : Json → Option Int
  | .int n => if Int64.minValue.toInt ≤ n && n ≤ Int64.maxValue.toInt then some n else none
  | _ => none

/-- A double; an integer is rounded to one. -/
def double? : Json → Option Binary64
  | .double x => some x
  | .int (.ofNat n) => some (.ofNat n)
  | .int (.negSucc n) => some (Binary64.ofNat (n + 1)).negate
  | _ => none

/-- A string of exactly one character. -/
def char? : Json → Option Char
  | .str s =>
    match s.toList with
    | [c] => some c
    | _ => none
  | _ => none

/-- A list, each item read by `read`. -/
def list? {α : Type} (read : Json → Option α) : Json → Option (List α)
  | .arr items => items.mapM read
  | _ => none

/-- One of `choices`, by its name. -/
def choice? {α : Type} (choices : List α) (name : α → String) (source : Source) :
    Json → Option α
  | .str s => choices.find? (name · == s)
  | .obj [(s, .null)] => choices.find? (name · == s)
  | .obj [(s, .obj [])] =>
    if source = .setAside then choices.find? (name · == s) else none
  | _ => none

/-! ### Records -/

/-- The fields of a record, by name. -/
abbrev Fields := List (String × Json)

/-- The fields of a variant, which is laid out as an object, among them fields of these names. -/
def fields? (names : List String) : Json → Option Fields
  | .obj members =>
    if names.all fun name => countKey name members ≤ 1 then some members else none
  | _ => none

/-- The fields of a record whose fields have these names, in this order. -/
def record? (names : List String) : Json → Option Fields
  | .arr items => if items.length ≤ names.length then some (names.zip items) else none
  | value => fields? names value

namespace Fields

/-- A field that must be there. -/
def required {α : Type} (fields : Fields) (name : String) (read : Json → Option α) : Option α :=
  (fields.lookup name).bind read

/-- A field with a default. -/
def defaulted {α : Type} (fields : Fields) (name : String) (default : α)
    (read : Json → Option α) : Option α :=
  match fields.lookup name with
  | none => some default
  | some value => read value

/-- A list that is empty unless the field is there. -/
def list {α : Type} (fields : Fields) (name : String) (read : Json → Option α) :
    Option (List α) :=
  fields.defaulted name [] (list? read)

/-- A field that may be absent or `null`. -/
def optional {α : Type} (fields : Fields) (name : String) (read : Json → Option α) :
    Option (Option α) :=
  match fields.lookup name with
  | none | some .null => some none
  | some value => (read value).map some

end Fields

/-! ### Variants -/

/-- The name of a variant and its contents, where the name is a member of the contents called
`kind` or their first item. -/
def splitTag? : Json → Option (Json × Json)
  | .obj members =>
    if countKey "kind" members = 1 then
      (members.lookup "kind").map fun tag => (tag, .obj (members.filter (·.1 != "kind")))
    else none
  | .arr (tag :: items) => some (tag, .arr items)
  | _ => none

/-- A variant's name among `names`, given as a string; as a number too, if it was set aside. -/
def tag? (names : List String) (source : Source) : Json → Option String
  | .str s => if names.contains s then some s else none
  | .int (.ofNat n) => if source = .setAside then names[n]? else none
  | _ => none

/-- The name of a variant among `names`, its contents, and how the contents are come by, where a
member `kind` holds the name and a member `value` the contents, or a list holds the two. The member
is a choice, the first item is just a name. -/
def splitContent? (names : List String) (source : Source) :
    Json → Option (String × Json × Source)
  | .obj members =>
    match members.filter fun (key, _) => key == "kind" || key == "value" with
    | [("kind", tag), ("value", content)] =>
      (choice? names id source tag).map (·, content, source)
    | [("value", content), ("kind", tag)] =>
      if content.isUsable then (choice? names id source tag).map (·, content, .setAside) else none
    | _ => none
  | .arr [tag, content] => (tag? names source tag).map (·, content, source)
  | _ => none

/-! ### Writing -/

/-- A member, left out if the list is empty. -/
def listMember (name : String) (items : List Json) : List (String × Json) :=
  if items.isEmpty then [] else [(name, .arr items)]

/-- A member, left out if there is no value. -/
def optionalMember (name : String) (value : Option Json) : List (String × Json) :=
  match value with
  | none => []
  | some value => [(name, value)]

end DataClassGen.Json
