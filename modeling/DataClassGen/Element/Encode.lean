import DataClassGen.Element.Basic
import DataClassGen.Json.Record

/-!
# Writing elements

The element model as JSON values. Lists without items and values that are absent are left out;
the kind of a type and of a field, the package of a type, whether a method takes any number of
arguments and the elements of a round are always there.
-/

namespace DataClassGen

open Json (listMember optionalMember)

/-! ### Uses of types -/

mutual

/-- A use of a type. -/
def TypeUse.toJson : TypeUse → Json
  | .primitive kind => .obj [("kind", .str "primitive"), ("primitive", .str kind.name)]
  | .declared name args =>
    .obj ([("kind", .str "declared"), ("name", .str name)] ++
      listMember "args" (TypeUse.toJsonAll args))
  | .parameter name => .obj [("kind", .str "type_variable"), ("name", .str name)]
  | .array component => .obj [("kind", .str "array"), ("component", TypeUse.toJson component)]
  | .wildcard upper lower =>
    .obj (("kind", .str "wildcard") :: optionalMember "extends" (TypeUse.toJsonOption upper) ++
      optionalMember "super" (TypeUse.toJsonOption lower))
  | .void => .obj [("kind", .str "void")]

/-- Uses of types. -/
def TypeUse.toJsonAll : List TypeUse → List Json
  | [] => []
  | use :: uses => TypeUse.toJson use :: TypeUse.toJsonAll uses

/-- A use of a type that may be absent. -/
def TypeUse.toJsonOption : Option TypeUse → Option Json
  | none => none
  | some use => some (TypeUse.toJson use)

end

/-! ### Annotations and constants -/

/-- A variant with its name beside its contents. -/
def Json.variant (name : String) (content : Json) : Json :=
  .obj [("kind", .str name), ("value", content)]

mutual

/-- The value of a member. -/
def MemberValue.toJson : MemberValue → Json
  | .string s => .variant "string" (.str s)
  | .bool b => .variant "bool" (.bool b)
  | .int n => .variant "int" (.int n)
  | .long n => .variant "long" (.int n)
  | .float x => .variant "float" (.double x)
  | .double x => .variant "double" (.double x)
  | .char c => .variant "char" (.str (String.singleton c))
  | .enumConstant typeName constant =>
    .variant "enum" (.obj [("type_name", .str typeName), ("constant", .str constant)])
  | .classLiteral name => .variant "class" (.str name)
  | .array items => .variant "array" (.arr (MemberValue.toJsonAll items))
  | .nested typeName members =>
    .variant "annotation" (annotationJson typeName (MemberValue.toJsonMembers members))

/-- Values of an array. -/
def MemberValue.toJsonAll : List MemberValue → List Json
  | [] => []
  | item :: items => MemberValue.toJson item :: MemberValue.toJsonAll items

/-- Members of an annotation. -/
def MemberValue.toJsonMembers : List (String × MemberValue) → List (String × Json)
  | [] => []
  | (name, value) :: members =>
    (name, MemberValue.toJson value) :: MemberValue.toJsonMembers members

/-- An annotation of this type with these members, which are left out if there are none. -/
def annotationJson (typeName : String) (members : List (String × Json)) : Json :=
  .obj (("type", .str typeName) :: if members.isEmpty then [] else [("members", .obj members)])

end

/-- An annotation. -/
def AnnotationUse.toJson (a : AnnotationUse) : Json :=
  annotationJson a.typeName (MemberValue.toJsonMembers a.members)

/-- The value of a constant. -/
def Constant.toJson : Constant → Json
  | .string s => .variant "string" (.str s)
  | .bool b => .variant "bool" (.bool b)
  | .int n => .variant "int" (.int n)
  | .long n => .variant "long" (.int n)
  | .float x => .variant "float" (.double x)
  | .double x => .variant "double" (.double x)
  | .char c => .variant "char" (.str (String.singleton c))

/-! ### Members -/

/-- Modifiers, by their names. -/
def modifierNames (modifiers : List Modifier) : List Json :=
  modifiers.map fun m => .str m.name

/-- A field, a constant of an enum or a parameter. -/
def Variable.toJson (v : Variable) : Json :=
  .obj ([("name", .str v.name), ("type", v.type.toJson), ("kind", .str v.kind.name)] ++
    listMember "modifiers" (modifierNames v.modifiers) ++
    listMember "annotations" (v.annotations.map (·.toJson)) ++
    optionalMember "doc" (v.doc.map .str) ++
    optionalMember "constant_value" (v.constantValue.map (·.toJson)))

/-- A type parameter. -/
def TypeParameter.toJson (p : TypeParameter) : Json :=
  .obj (("name", .str p.name) :: listMember "bounds" (p.bounds.map (·.toJson)))

/-- A method. -/
def Method.toJson (m : Method) : Json :=
  .obj (("name", .str m.name) :: listMember "modifiers" (modifierNames m.modifiers) ++
    listMember "annotations" (m.annotations.map (·.toJson)) ++
    optionalMember "doc" (m.doc.map .str) ++
    [("return_type", m.returnType.toJson)] ++
    listMember "parameters" (m.parameters.map (·.toJson)) ++
    listMember "type_parameters" (m.typeParameters.map (·.toJson)) ++
    listMember "thrown_types" (m.thrownTypes.map (·.toJson)) ++
    [("varargs", .bool m.isVarargs)])

/-! ### Types -/

/-- What a nested type knows of the type it is declared in. -/
def EnclosingType.toJson (e : EnclosingType) : Json :=
  .obj ([("qualified_name", .str e.qualifiedName), ("kind", .str e.kind.name)] ++
    listMember "annotations" (e.annotations.map (·.toJson)))

mutual

/-- A type. -/
def TypeElement.toJson : TypeElement → Json
  | ⟨qualifiedName, package, kind, modifiers, annotations, doc, superclass, interfaces,
      typeParameters, fields, methods, nestedTypes, enclosing⟩ =>
    .obj ([("qualified_name", .str qualifiedName), ("package", .str package),
        ("kind", .str kind.name)] ++
      listMember "modifiers" (modifierNames modifiers) ++
      listMember "annotations" (annotations.map (·.toJson)) ++
      optionalMember "doc" (doc.map .str) ++
      optionalMember "superclass" (superclass.map (·.toJson)) ++
      listMember "interfaces" (interfaces.map (·.toJson)) ++
      listMember "type_parameters" (typeParameters.map (·.toJson)) ++
      listMember "fields" (fields.map (·.toJson)) ++
      listMember "methods" (methods.map (·.toJson)) ++
      listMember "nested_types" (TypeElement.toJsonAll nestedTypes) ++
      optionalMember "enclosing" (enclosing.map (·.toJson)))

/-- Types. -/
def TypeElement.toJsonAll : List TypeElement → List Json
  | [] => []
  | element :: elements => TypeElement.toJson element :: TypeElement.toJsonAll elements

end

/-- A round. -/
def Round.toJson (round : Round) : Json :=
  .obj [("elements", .arr (TypeElement.toJsonAll round.elements))]

end DataClassGen
