import DataClassGen.Element.Basic
import DataClassGen.Json.Reader
import DataClassGen.Json.Record

/-!
# Reading elements

The element model from JSON values. Each reader gives nothing if the value does not have the
shape; there is no more to be known about such a document. The readers that call themselves are
bounded by the depth of the value they start from.
-/

namespace DataClassGen

open Json (Source Fields fields? record? choice? string?)

/-! ### Uses of types -/

namespace TypeUse

/-- The names of the variants of a use of a type. -/
def variantNames : List String :=
  ["primitive", "declared", "type_variable", "array", "wildcard", "void"]

/-- A use of a type, from a value at most `bound` deep. All of it is set aside before it is read,
so what it contains has been set aside already. -/
def readWithin? : Nat → Source → Json → Option TypeUse
  | 0, _, _ => none
  | bound + 1, source, value =>
    if !value.isUsable then none
    else do
      let (tag, content) ← Json.splitTag? value
      let inner := readWithin? bound .setAside
      match ← Json.tag? variantNames source tag with
      | "primitive" =>
        let fields ← record? ["primitive"] content
        return .primitive (← fields.required "primitive"
          (choice? PrimitiveKind.all PrimitiveKind.name .setAside))
      | "declared" =>
        let fields ← record? ["name", "args"] content
        return .declared (← fields.required "name" string?) (← fields.list "args" inner)
      | "type_variable" =>
        let fields ← record? ["name"] content
        return .parameter (← fields.required "name" string?)
      | "array" =>
        let fields ← record? ["component"] content
        return .array (← fields.required "component" inner)
      | "wildcard" =>
        let fields ← record? ["extends", "super"] content
        return .wildcard (← fields.optional "extends" inner) (← fields.optional "super" inner)
      | _ =>
        let _ ← record? [] content
        return .void

/-- A use of a type. -/
def ofJson? (value : Json) : Option TypeUse := readWithin? (value.depth + 1) .document value

end TypeUse

/-! ### Annotations and constants -/

/-- The names of the variants of a member's value. -/
def MemberValue.variantNames : List String :=
  ["string", "bool", "int", "long", "float", "double", "char", "enum", "class", "array",
    "annotation"]

/-- The names of the variants of a constant. -/
def Constant.variantNames : List String :=
  ["string", "bool", "int", "long", "float", "double", "char"]

mutual

/-- The value of a member, from a value at most `bound` deep. -/
def MemberValue.readWithin? : Nat → Source → Json → Option MemberValue
  | 0, _, _ => none
  | bound + 1, source, value => do
    let (name, content, inside) ← Json.splitContent? MemberValue.variantNames source value
    match name with
    | "string" => (string? content).map .string
    | "bool" => (Json.bool? content).map .bool
    | "int" => (Json.int64? content).map .int
    | "long" => (Json.int64? content).map .long
    | "float" => (Json.double? content).map .float
    | "double" => (Json.double? content).map .double
    | "char" => (Json.char? content).map .char
    | "enum" =>
      let fields ← fields? ["type_name", "constant"] content
      return .enumConstant (← fields.required "type_name" string?)
        (← fields.required "constant" string?)
    | "class" => (string? content).map .classLiteral
    | "array" => (Json.list? (MemberValue.readWithin? bound inside) content).map .array
    | _ =>
      (AnnotationUse.readWithin? bound inside content).map fun a =>
        .nested a.typeName a.members

/-- An annotation, from a value at most `bound` deep. Of two members with one name the later
one counts. -/
def AnnotationUse.readWithin? : Nat → Source → Json → Option AnnotationUse
  | 0, _, _ => none
  | bound + 1, source, value => do
    let fields ← record? ["type", "members"] value
    let typeName ← fields.required "type" string?
    let members ← fields.defaulted "members" [] fun
      | .obj members => members.mapM fun (name, value) =>
          (MemberValue.readWithin? bound source value).map (name, ·)
      | _ => none
    return { typeName, members := members.foldl (fun found (k, v) => insertByKey k v found) [] }

end

/-- The value of a member. -/
def MemberValue.ofJson? (value : Json) : Option MemberValue :=
  MemberValue.readWithin? (value.depth + 1) .document value

/-- An annotation. -/
def AnnotationUse.ofJson? (value : Json) : Option AnnotationUse :=
  AnnotationUse.readWithin? (value.depth + 1) .document value

/-- The value of a constant. -/
def Constant.ofJson? (value : Json) : Option Constant := do
  let (name, content, _) ← Json.splitContent? Constant.variantNames .document value
  match name with
  | "string" => (string? content).map .string
  | "bool" => (Json.bool? content).map .bool
  | "int" => (Json.int64? content).map .int
  | "long" => (Json.int64? content).map .long
  | "float" => (Json.double? content).map .float
  | "double" => (Json.double? content).map .double
  | _ => (Json.char? content).map .char

/-! ### Members -/

/-- A modifier. -/
def Modifier.ofJson? (value : Json) : Option Modifier :=
  choice? Modifier.all Modifier.name .document value

/-- A kind of type. -/
def ElementKind.ofJson? (value : Json) : Option ElementKind :=
  choice? ElementKind.all ElementKind.name .document value

/-- A kind of variable. -/
def FieldKind.ofJson? (value : Json) : Option FieldKind :=
  choice? FieldKind.all FieldKind.name .document value

/-- A field, a constant of an enum or a parameter. -/
def Variable.ofJson? (value : Json) : Option Variable := do
  let fields ← record?
    ["name", "type", "kind", "modifiers", "annotations", "doc", "constant_value"] value
  return {
    name := ← fields.required "name" string?
    type := ← fields.required "type" TypeUse.ofJson?
    kind := ← fields.defaulted "kind" .field FieldKind.ofJson?
    modifiers := ← fields.list "modifiers" Modifier.ofJson?
    annotations := ← fields.list "annotations" AnnotationUse.ofJson?
    doc := ← fields.optional "doc" string?
    constantValue := ← fields.optional "constant_value" Constant.ofJson? }

/-- A type parameter. -/
def TypeParameter.ofJson? (value : Json) : Option TypeParameter := do
  let fields ← record? ["name", "bounds"] value
  return {
    name := ← fields.required "name" string?
    bounds := ← fields.list "bounds" TypeUse.ofJson? }

/-- A method. -/
def Method.ofJson? (value : Json) : Option Method := do
  let fields ← record? ["name", "modifiers", "annotations", "doc", "return_type", "parameters",
    "type_parameters", "thrown_types", "varargs"] value
  return {
    name := ← fields.required "name" string?
    modifiers := ← fields.list "modifiers" Modifier.ofJson?
    annotations := ← fields.list "annotations" AnnotationUse.ofJson?
    doc := ← fields.optional "doc" string?
    returnType := ← fields.required "return_type" TypeUse.ofJson?
    parameters := ← fields.list "parameters" Variable.ofJson?
    typeParameters := ← fields.list "type_parameters" TypeParameter.ofJson?
    thrownTypes := ← fields.list "thrown_types" TypeUse.ofJson?
    isVarargs := ← fields.defaulted "varargs" false Json.bool? }

/-! ### Types -/

/-- What a nested type knows of the type it is declared in. -/
def EnclosingType.ofJson? (value : Json) : Option EnclosingType := do
  let fields ← record? ["qualified_name", "kind", "annotations"] value
  return {
    qualifiedName := ← fields.required "qualified_name" string?
    kind := ← fields.defaulted "kind" .classType ElementKind.ofJson?
    annotations := ← fields.list "annotations" AnnotationUse.ofJson? }

/-- A type, from a value at most `bound` deep. -/
def TypeElement.readWithin? : Nat → Json → Option TypeElement
  | 0, _ => none
  | bound + 1, value => do
    let fields ← record? ["qualified_name", "package", "kind", "modifiers", "annotations", "doc",
      "superclass", "interfaces", "type_parameters", "fields", "methods", "nested_types",
      "enclosing"] value
    return {
      qualifiedName := ← fields.required "qualified_name" string?
      package := ← fields.defaulted "package" "" string?
      kind := ← fields.defaulted "kind" .classType ElementKind.ofJson?
      modifiers := ← fields.list "modifiers" Modifier.ofJson?
      annotations := ← fields.list "annotations" AnnotationUse.ofJson?
      doc := ← fields.optional "doc" string?
      superclass := ← fields.optional "superclass" TypeUse.ofJson?
      interfaces := ← fields.list "interfaces" TypeUse.ofJson?
      typeParameters := ← fields.list "type_parameters" TypeParameter.ofJson?
      fields := ← fields.list "fields" Variable.ofJson?
      methods := ← fields.list "methods" Method.ofJson?
      nestedTypes := ← fields.list "nested_types" (TypeElement.readWithin? bound)
      enclosing := ← fields.optional "enclosing" EnclosingType.ofJson? }

/-- A type. -/
def TypeElement.ofJson? (value : Json) : Option TypeElement :=
  TypeElement.readWithin? (value.depth + 1) value

/-- A round. -/
def Round.ofJson? (value : Json) : Option Round := do
  let fields ← record? ["elements"] value
  return { elements := ← fields.list "elements" TypeElement.ofJson? }

/-- A round, from the bytes of a document. -/
def Round.ofBytes? (bytes : Bytes) : Option Round := (Json.read? bytes).bind Round.ofJson?

end DataClassGen
