import DataClassGen.Convert.Annotation
import DataClassGen.Convert.Doc
import DataClassGen.Convert.Visibility

/-!
# Converting signatures of methods

The function with the signature of a method and no body. A static method becomes one that is static
in the companion object, the last parameter of a method with any number of arguments becomes a
`vararg`, and thrown types become an annotation. The annotations that generated functions are given
stand here too.
-/

namespace DataClassGen

open Source

/-! ### Annotations of generated functions -/

/-- The annotation for a function that is static on the virtual machine. -/
def jvmStatic : Annotation := { cls := .topLevelOf "kotlin.jvm" "JvmStatic" }

/-- The annotation for a function with another name on the virtual machine. -/
def jvmName (name : String) : Annotation :=
  { cls := .topLevelOf "kotlin.jvm" "JvmName", members := [Code.str name] }

/-- The annotation for a function that should be replaced by an expression. -/
def deprecation (message replacement : String) : Annotation :=
  { cls := .builtin "Deprecated"
    members := [
      Code.lit "message = " ++ Code.str message,
      Code.lit "replaceWith = " ++ Code.classed (.builtin "ReplaceWith") ++ Code.lit "(" ++
        Code.str replacement ++ Code.lit ")"] }

/-- The annotation that silences a warning. -/
def suppression (warning : String) : Annotation :=
  { cls := .builtin "Suppress", members := [Code.str warning] }

/-- The call that marks what is still to be written. -/
def todo (message : String) : Code := Code.lit "TODO(" ++ Code.str message ++ Code.lit ")"

/-! ### Parts of a signature -/

/-- A parameter; it may be null if it is marked so. -/
def Variable.toParameter (v : Variable) : Except Failure Parameter := do
  let type ← v.type.convert
  return { name := v.name, type := type.withNull (isMarkedNullable v.annotations) }

/-- A type parameter with its bound. A bound by the class of all objects says nothing; more than
one other bound has no counterpart. -/
def TypeParameter.convert (p : TypeParameter) : Except Failure TypeName := do
  let bounds ← (p.bounds.filter fun b => !b.isDeclared "java.lang.Object").mapM TypeUse.convert
  if 1 < bounds.length then
    throw (.unsupportedType (p.name ++ " extends " ++
      Text.joinWith " & " (p.bounds.map TypeUse.shown)))
  return .parameter p.name bounds false

/-- The result type of a method, if it gives a value. -/
def Method.resultType? (m : Method) : Except Failure (Option TypeName) := do
  let type ← m.returnType.convert
  return if type.isBuiltin "Unit" then none
    else some (type.withNull (isMarkedNullable m.annotations))

/-- The type of the components of an array. -/
def componentOf? : TypeName → Option TypeName
  | .named cls (component :: _) _ => if cls = .builtin "Array" then some component else none
  | .named cls [] _ =>
    if cls.package = builtinPackage then
      match Text.before? "Array" cls.simpleName with
      | some primitive => if primitive.isEmpty then none else some (.builtin primitive)
      | none => none
    else none
  | .parameter .. => none

/-- A parameter that stands for any number of arguments. -/
def Source.Parameter.toVararg (p : Parameter) : Parameter :=
  { p with type := (componentOf? p.type).getD p.type, modifiers := p.modifiers ++ [.vararg] }

/-- The parameters with the last standing for any number of arguments. -/
def lastVararg : List Parameter → List Parameter
  | [] => []
  | [p] => [p.toVararg]
  | p :: rest => p :: lastVararg rest

/-- The annotation for a function that throws these types. -/
def throwing (thrown : List TypeName) : Annotation :=
  { cls := .builtin "Throws"
    members := [Code.joined ", " (thrown.map fun t => Code.typed t ++ Code.lit "::class")] }

/-! ### Signatures -/

/-- The function with the signature of a method and no body. -/
def Method.toFunction (m : Method) : Except Failure Function := do
  let typeParameters ← m.typeParameters.mapM TypeParameter.convert
  let returns ← m.resultType?
  let parameters ← m.parameters.mapM Variable.toParameter
  let thrown ← m.thrownTypes.mapM TypeUse.convert
  return {
    name := m.name
    modifiers := [visibilityOf m.modifiers]
    annotations :=
      (if m.isStatic then [jvmStatic] else []) ++
        (if thrown.isEmpty then [] else [throwing thrown])
    typeParameters
    parameters := if m.isVarargs then lastVararg parameters else parameters
    returns
    doc := Doc.clean? m.doc }

end DataClassGen
