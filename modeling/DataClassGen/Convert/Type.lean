import DataClassGen.Element.Basic
import DataClassGen.Failure
import DataClassGen.Source.Code

/-!
# Converting types

The Kotlin type of a use of a type. Primitive types, and the classes that box them, become the
built-in classes; arrays of primitive types have built-in classes of their own. The result is
nowhere nullable: that is put on where annotations say so. Wildcards have no counterpart.

A type also has a zero value if it is primitive, and no value at all if it is one of the types
that stand for that; these settle the defaults of properties.
-/

namespace DataClassGen

open Source

/-- The built-in class of a primitive type. -/
def PrimitiveKind.builtinName : PrimitiveKind → String
  | .boolean => "Boolean"
  | .byte => "Byte"
  | .short => "Short"
  | .char => "Char"
  | .int => "Int"
  | .long => "Long"
  | .float => "Float"
  | .double => "Double"

/-- The classes that have built-in counterparts. -/
def builtinCounterparts : List (String × String) :=
  [("java.lang.Boolean", "Boolean"), ("java.lang.Byte", "Byte"), ("java.lang.Short", "Short"),
    ("java.lang.Character", "Char"), ("java.lang.Integer", "Int"), ("java.lang.Long", "Long"),
    ("java.lang.Float", "Float"), ("java.lang.Double", "Double"), ("java.lang.String", "String"),
    ("java.lang.Object", "Any")]

/-- The class that stands for the one of this canonical name. -/
def convertClass (canonical : String) : ClassName :=
  match builtinCounterparts.lookup canonical with
  | some name => .builtin name
  | none => .ofCanonical canonical

namespace TypeUse

mutual

/-- The type that stands for a use of a type. -/
def convert : TypeUse → Except Failure TypeName
  | .primitive kind => .ok (.builtin kind.builtinName)
  | .declared name args => do return .named (convertClass name) (← convertAll args) false
  | .parameter name => .ok (.parameter name [] false)
  | .array (.primitive kind) => .ok (.builtin (kind.builtinName ++ "Array"))
  | .array .void => .error (.unsupportedType (shown (.array .void)))
  | .array (.wildcard upper lower) =>
    .error (.unsupportedType (shown (.array (.wildcard upper lower))))
  | .array component => do return .named (.builtin "Array") [← convert component] false
  | .void => .ok (.builtin "Unit")
  | .wildcard upper lower => .error (.unsupportedType (shown (.wildcard upper lower)))

/-- The types that stand for uses of types. -/
def convertAll : List TypeUse → Except Failure (List TypeName)
  | [] => .ok []
  | use :: uses => do
    let type ← convert use
    let types ← convertAll uses
    return type :: types

end

end TypeUse

/-! ### Defaults -/

namespace Source.TypeName

/-- The type has no value that a property could hold. -/
def isValueless (t : TypeName) : Bool :=
  t.isBuiltin "Unit" || t.isBuiltin "Nothing" ||
    t.class?.any fun cls => cls.canonical == "java.lang.Void"

/-- The zero values of the built-in classes that have one. -/
def zeroValues : List (String × String) :=
  [("Boolean", "false"), ("Char", "0.toChar()"), ("Byte", "0.toByte()"),
    ("Short", "0.toShort()"), ("Int", "0"), ("Float", "0f"), ("Long", "0L"), ("Double", "0.0")]

/-- The zero value of the type, if it has one; a nullable type has none. A type without values is
refused. -/
def zero? (t : TypeName) : Except Failure (Option Code) :=
  if t.isValueless then .error (.illegalDefault t.shown)
  else if t.isNullable then .ok none
  else .ok ((zeroValues.find? fun (name, _) => t.isBuiltin name).map fun (_, zero) => Code.lit zero)

/-- The default of a constructor's property of this type. A builder has the defaults for itself,
unless adapters generated for the class need them too; otherwise a nullable property is null, and
a primitive one zero. -/
def constructorDefault? (t : TypeName) (hasBuilder needsAdapter : Bool) :
    Except Failure (Option Code) :=
  if hasBuilder && !needsAdapter then .ok none
  else if t.isNullable then .ok (some (Code.lit "null"))
  else t.zero?

end Source.TypeName

end DataClassGen
