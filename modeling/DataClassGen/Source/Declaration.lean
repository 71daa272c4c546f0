import DataClassGen.Source.Code

/-!
# Declarations in Kotlin sources

Classes, enums and companion objects with their members, functions, properties and annotations,
as far as the generated sources need them. A file holds one top-level type.
-/

namespace DataClassGen.Source

/-- A modifier of a declaration. -/
inductive DeclModifier where
  | publicAccess
  | protectedAccess
  | privateAccess
  | internalAccess
  | override
  | const
  | data
  | operator
  | vararg
  deriving DecidableEq, Repr

namespace DeclModifier

/-- All modifiers, in the order in which they are written. -/
def all : List DeclModifier :=
  [.publicAccess, .protectedAccess, .privateAccess, .internalAccess, .override, .const, .data,
    .operator, .vararg]

/-- The modifier as it is written. -/
def keyword : DeclModifier → String
  | .publicAccess => "public"
  | .protectedAccess => "protected"
  | .privateAccess => "private"
  | .internalAccess => "internal"
  | .override => "override"
  | .const => "const"
  | .data => "data"
  | .operator => "operator"
  | .vararg => "vararg"

/-- The modifier says from where the declaration can be used. -/
def isVisibility : DeclModifier → Bool
  | .publicAccess | .protectedAccess | .privateAccess | .internalAccess => true
  | _ => false

end DeclModifier

/-- An annotation with its members; `onGetter` if it goes to the getter of a property. -/
structure Annotation where
  cls : ClassName
  members : List Code := []
  onGetter : Bool := false
  deriving DecidableEq

/-- A parameter of a function. -/
structure Parameter where
  name : String
  type : TypeName
  default : Option Code := none
  modifiers : List DeclModifier := []
  deriving DecidableEq

/-- A property. -/
structure Property where
  name : String
  type : TypeName
  isMutable : Bool := false
  modifiers : List DeclModifier := []
  annotations : List Annotation := []
  initializer : Option Code := none
  doc : Option String := none
  deriving DecidableEq

/-- A line of a function's body. -/
inductive Statement where
  | code (code : Code)
  | comment (text : String)
  deriving DecidableEq

/-- A function; without a result type it gives no value. -/
structure Function where
  name : String
  modifiers : List DeclModifier := []
  annotations : List Annotation := []
  typeParameters : List TypeName := []
  parameters : List Parameter := []
  returns : Option TypeName := none
  body : List Statement := []
  doc : Option String := none
  deriving DecidableEq

namespace Function

/-- The function with a modifier more, unless it has it. -/
def withModifier (f : Function) (m : DeclModifier) : Function :=
  if f.modifiers.contains m then f else { f with modifiers := f.modifiers ++ [m] }

/-- The function with an annotation more. -/
def annotated (f : Function) (a : Annotation) : Function :=
  { f with annotations := f.annotations ++ [a] }

/-- The function with a statement more. -/
def doing (f : Function) (code : Code) : Function := { f with body := f.body ++ [.code code] }

/-- The function with a comment more. -/
def noting (f : Function) (text : String) : Function :=
  { f with body := f.body ++ [.comment text] }

/-- The function under another name and without a body. -/
def renamed (f : Function) (name : String) : Function := { f with name, body := [] }

/-- The names of the parameters, as they stand in a call. -/
def argumentList (f : Function) : Code :=
  Code.joined ", " (f.parameters.map fun p => Code.ident p.name)

end Function

/-- A property declared by a parameter of the constructor. -/
structure ConstructorProperty where
  property : Property
  default : Option Code := none
  deriving DecidableEq

/-- A constructor made of properties. -/
structure Constructor where
  modifiers : List DeclModifier := []
  properties : List ConstructorProperty := []
  deriving DecidableEq

/-- What a declaration of a type introduces. -/
inductive TypeDeclKind where
  | classDecl
  | enumDecl
  | companion
  deriving DecidableEq, Repr

/-- A constant of an enum. -/
structure EnumEntry where
  name : String
  annotations : List Annotation := []
  doc : Option String := none
  deriving DecidableEq

/-- A class, an enum or a companion object. -/
structure TypeDecl where
  kind : TypeDeclKind
  name : String
  modifiers : List DeclModifier := []
  annotations : List Annotation := []
  doc : Option String := none
  typeParameters : List TypeName := []
  constructor : Option Constructor := none
  superclass : Option TypeName := none
  interfaces : List TypeName := []
  entries : List EnumEntry := []
  properties : List Property := []
  functions : List Function := []
  types : List TypeDecl := []

namespace TypeDecl

/-- The name of every companion object. -/
def companionName : String := "Companion"

/-- There is something between the braces. -/
def hasMembers (t : TypeDecl) : Bool :=
  !t.entries.isEmpty || !t.properties.isEmpty || !t.functions.isEmpty || !t.types.isEmpty

mutual

/-- The names of the type and of all types in it, companion objects left out. -/
def declaredNames : TypeDecl → List String
  | ⟨kind, name, _, _, _, _, _, _, _, _, _, _, types⟩ =>
    (if kind = .companion then [] else [name]) ++ declaredNamesAll types

/-- The names of the types and of all types in them. -/
def declaredNamesAll : List TypeDecl → List String
  | [] => []
  | t :: ts => declaredNames t ++ declaredNamesAll ts

end

end TypeDecl

/-- A file with one top-level type. -/
structure SourceFile where
  package : String
  root : TypeDecl

namespace SourceFile

/-- The name of the file. -/
def fileName (file : SourceFile) : String := file.root.name ++ ".kt"

end SourceFile

end DataClassGen.Source
