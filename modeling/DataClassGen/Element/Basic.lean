import DataClassGen.Keyed
import DataClassGen.Numeric.Binary64
import DataClassGen.Text.Blank
import DataClassGen.Text.Split

/-!
# Elements

The declarations that a run converts, as a compiler's annotation processing presents them, one
round at a time: types with their fields, methods and nested types, the annotations on each, and
the uses of types in them. Names are canonical: `test.Outer.Inner` is the type `Inner` declared
inside `Outer` in the package `test`.

A value class is a type annotated with `AutoValue`; the builder of a value class is a type nested
in it and annotated with `AutoValue.Builder`.
-/

namespace DataClassGen

/-! ### Modifiers and kinds -/

/-- A modifier of a declaration. -/
inductive Modifier where
  | publicAccess
  | protectedAccess
  | privateAccess
  | abstract
  | default
  | static
  | final
  | sealed
  | nonSealed
  | transient
  | volatile
  | synchronized
  | native
  | strictfp
  deriving DecidableEq, Repr

namespace Modifier

/-- All modifiers. -/
def all : List Modifier :=
  [.publicAccess, .protectedAccess, .privateAccess, .abstract, .default, .static, .final, .sealed,
    .nonSealed, .transient, .volatile, .synchronized, .native, .strictfp]

/-- The modifier as it is written in a declaration. -/
def keyword : Modifier → String
  | .publicAccess => "public"
  | .protectedAccess => "protected"
  | .privateAccess => "private"
  | .abstract => "abstract"
  | .default => "default"
  | .static => "static"
  | .final => "final"
  | .sealed => "sealed"
  | .nonSealed => "non-sealed"
  | .transient => "transient"
  | .volatile => "volatile"
  | .synchronized => "synchronized"
  | .native => "native"
  | .strictfp => "strictfp"

/-- The modifier's name in a document. -/
def name : Modifier → String
  | .nonSealed => "non_sealed"
  | m => m.keyword

end Modifier

/-- What sort of type a declaration introduces. -/
inductive ElementKind where
  | classType
  | interfaceType
  | enumType
  | annotationType
  | recordType
  deriving DecidableEq, Repr

namespace ElementKind

/-- All kinds of types. -/
def all : List ElementKind :=
  [.classType, .interfaceType, .enumType, .annotationType, .recordType]

/-- The kind's name in a document. -/
def name : ElementKind → String
  | .classType => "class"
  | .interfaceType => "interface"
  | .enumType => "enum"
  | .annotationType => "annotation"
  | .recordType => "record"

end ElementKind

/-- What sort of variable a field is. -/
inductive FieldKind where
  | field
  | enumConstant
  deriving DecidableEq, Repr

namespace FieldKind

/-- All kinds of variables. -/
def all : List FieldKind := [.field, .enumConstant]

/-- The kind's name in a document. -/
def name : FieldKind → String
  | .field => "field"
  | .enumConstant => "enum_constant"

end FieldKind

/-- A primitive type. -/
inductive PrimitiveKind where
  | boolean
  | byte
  | short
  | char
  | int
  | long
  | float
  | double
  deriving DecidableEq, Repr

namespace PrimitiveKind

/-- All primitive types. -/
def all : List PrimitiveKind :=
  [.boolean, .byte, .short, .char, .int, .long, .float, .double]

/-- The type's keyword, which is also its name in a document. -/
def name : PrimitiveKind → String
  | .boolean => "boolean"
  | .byte => "byte"
  | .short => "short"
  | .char => "char"
  | .int => "int"
  | .long => "long"
  | .float => "float"
  | .double => "double"

end PrimitiveKind

/-! ### Uses of types -/

/-- A use of a type. -/
inductive TypeUse where
  /-- A primitive type. -/
  | primitive (kind : PrimitiveKind)
  /-- A class or interface by its canonical name, with its type arguments. -/
  | declared (name : String) (args : List TypeUse)
  /-- A type parameter. -/
  | parameter (name : String)
  /-- An array. -/
  | array (component : TypeUse)
  /-- A wildcard with its upper and its lower bound. -/
  | wildcard (upper lower : Option TypeUse)
  /-- No value at all. -/
  | void

namespace TypeUse

mutual

/-- The type as it is written in a declaration, names canonical. -/
def shown : TypeUse → String
  | .primitive kind => kind.name
  | .declared name args =>
    if args.isEmpty then name else name ++ "<" ++ Text.joinWith "," (shownAll args) ++ ">"
  | .parameter name => name
  | .array component => shown component ++ "[]"
  | .wildcard (some bound) _ => "? extends " ++ shown bound
  | .wildcard none (some bound) => "? super " ++ shown bound
  | .wildcard none none => "?"
  | .void => "void"

/-- The types as they are written in a declaration. -/
def shownAll : List TypeUse → List String
  | [] => []
  | use :: uses => shown use :: shownAll uses

end

/-- The canonical name of a class or interface, whatever its type arguments. -/
def declaredName? : TypeUse → Option String
  | .declared name _ => some name
  | _ => none

/-- The class or interface of this canonical name, whatever its type arguments. -/
def isDeclared (name : String) (use : TypeUse) : Bool := use.declaredName? == some name

/-- No value at all. -/
def isVoid : TypeUse → Bool
  | .void => true
  | _ => false

/-- The primitive type of truth values. -/
def isBoolean : TypeUse → Bool
  | .primitive .boolean => true
  | _ => false

end TypeUse

/-! ### Annotations and constants -/

/-- The value of an annotation's member. -/
inductive MemberValue where
  | string (value : String)
  | bool (value : Bool)
  | int (value : Int)
  | long (value : Int)
  | float (value : Binary64)
  | double (value : Binary64)
  | char (value : Char)
  /-- A constant of the enum with this canonical name. -/
  | enumConstant (typeName constant : String)
  /-- A class, by its canonical name. -/
  | classLiteral (name : String)
  | array (items : List MemberValue)
  /-- A nested annotation. -/
  | nested (typeName : String) (members : List (String × MemberValue))

/-- An annotation on a declaration: the canonical name of its type, and the members it gives
explicitly, in the order of their names. -/
structure AnnotationUse where
  typeName : String
  members : List (String × MemberValue) := []

namespace AnnotationUse

/-- The last segment of the annotation's canonical name. -/
def simpleName (a : AnnotationUse) : String := Text.afterLast '.' a.typeName

/-- The member of this name, if it is a string. -/
def stringMember? (name : String) (a : AnnotationUse) : Option String :=
  match a.members.lookup name with
  | some (.string s) => some s
  | _ => none

/-- The annotation with one member more. -/
def withMember (name : String) (value : MemberValue) (a : AnnotationUse) : AnnotationUse :=
  { a with members := insertByKey name value a.members }

end AnnotationUse

/-- The value of a constant field. -/
inductive Constant where
  | string (value : String)
  | bool (value : Bool)
  | int (value : Int)
  | long (value : Int)
  | float (value : Binary64)
  | double (value : Binary64)
  | char (value : Char)
  deriving DecidableEq

/-! ### Members -/

/-- A field, a constant of an enum or a parameter of a method. -/
structure Variable where
  name : String
  type : TypeUse
  kind : FieldKind := .field
  modifiers : List Modifier := []
  annotations : List AnnotationUse := []
  /-- The doc comment as it stands in the source. -/
  doc : Option String := none
  constantValue : Option Constant := none

/-- A type parameter with its bounds. -/
structure TypeParameter where
  name : String
  bounds : List TypeUse := []

/-- A method. -/
structure Method where
  name : String
  modifiers : List Modifier := []
  annotations : List AnnotationUse := []
  /-- The doc comment as it stands in the source. -/
  doc : Option String := none
  returnType : TypeUse
  parameters : List Variable := []
  typeParameters : List TypeParameter := []
  thrownTypes : List TypeUse := []
  /-- The last parameter stands for any number of arguments. -/
  isVarargs : Bool := false

namespace Method

/-- The method has no body of its own. -/
def isAbstract (m : Method) : Bool := m.modifiers.contains .abstract

/-- The method belongs to the type and not to its instances. -/
def isStatic (m : Method) : Bool := m.modifiers.contains .static

/-- The method in one line, its parameters left out. -/
def signature (m : Method) : String :=
  Text.trimStart (Text.joinWith " " (m.modifiers.map Modifier.keyword) ++ " " ++
    m.returnType.shown ++ " " ++ m.name ++ "(...)")

end Method

/-! ### Types -/

/-- The annotation that marks a value class. -/
def valueClassMarker : String := "com.google.auto.value.AutoValue"

/-- The annotation that marks the builder of a value class. -/
def builderMarker : String := "com.google.auto.value.AutoValue.Builder"

/-- What a nested type knows of the type it is declared in. -/
structure EnclosingType where
  qualifiedName : String
  kind : ElementKind := .classType
  annotations : List AnnotationUse := []

namespace EnclosingType

/-- The last segment of the qualified name. -/
def simpleName (e : EnclosingType) : String := Text.afterLast '.' e.qualifiedName

/-- The enclosing type is a value class. -/
def isValueClass (e : EnclosingType) : Bool :=
  e.annotations.any (·.typeName == valueClassMarker)

end EnclosingType

/-- A declaration of a class, an interface or an enum. -/
structure TypeElement where
  qualifiedName : String
  /-- The package, empty for the unnamed one. -/
  package : String := ""
  kind : ElementKind := .classType
  modifiers : List Modifier := []
  annotations : List AnnotationUse := []
  /-- The doc comment as it stands in the source. -/
  doc : Option String := none
  superclass : Option TypeUse := none
  interfaces : List TypeUse := []
  typeParameters : List TypeParameter := []
  fields : List Variable := []
  methods : List Method := []
  nestedTypes : List TypeElement := []
  /-- The type it is declared in; none at top level. -/
  enclosing : Option EnclosingType := none

namespace TypeElement

/-- The last segment of the qualified name. -/
def simpleName (e : TypeElement) : String := Text.afterLast '.' e.qualifiedName

/-- The simple name of the top-level type around this one, or its own at top level. -/
def outermostSimpleName (e : TypeElement) : String :=
  let relative :=
    match e.package.toList.isPrefixOf? e.qualifiedName.toList with
    | some rest => rest.dropWhile (· == '.')
    | none => e.qualifiedName.toList
  String.ofList (relative.takeWhile (· != '.'))

/-- Declared in no other type. -/
def isTopLevel (e : TypeElement) : Bool := e.enclosing.isNone

/-- Annotated with the annotation of this canonical name. -/
def hasAnnotation (name : String) (e : TypeElement) : Bool :=
  e.annotations.any (·.typeName == name)

/-- A value class. -/
def isValueClass (e : TypeElement) : Bool := e.hasAnnotation valueClassMarker

/-- The builder of a value class. -/
def isBuilder (e : TypeElement) : Bool := e.hasAnnotation builderMarker

/-- An enum. -/
def isEnum (e : TypeElement) : Bool := e.kind == .enumType

/-- The type that the element declares, with its own type parameters as arguments. -/
def asType (e : TypeElement) : TypeUse :=
  .declared e.qualifiedName (e.typeParameters.map fun p => .parameter p.name)

/-- What the types declared in this one know of it. -/
def asEnclosing (e : TypeElement) : EnclosingType :=
  { qualifiedName := e.qualifiedName, kind := e.kind, annotations := e.annotations }

/-- A top-level class without members. -/
def topLevel (package simpleName : String) : TypeElement :=
  { qualifiedName := if package.isEmpty then simpleName else package ++ "." ++ simpleName,
    package := package }

/-- A class without members, declared in `parent`. -/
def nestedIn (parent : TypeElement) (simpleName : String) : TypeElement :=
  { qualifiedName := parent.qualifiedName ++ "." ++ simpleName, package := parent.package,
    enclosing := some parent.asEnclosing }

end TypeElement

/-- The types that one round of processing presents. -/
structure Round where
  elements : List TypeElement := []

end DataClassGen
