import DataClassGen.Convert.Annotation
import DataClassGen.Convert.Doc
import DataClassGen.Convert.Visibility
import DataClassGen.Diagnostic

/-!
# Enums

An enum nested in a value class converts if it is plain: all the types nested in it are enums too,
and it has no methods but those that every enum has. Anything else is reported. A nested enum that
does not convert is left out, and the enum around it kept.
-/

namespace DataClassGen

open Source

/-- A converted enum. -/
structure EnumModel where
  cls : ClassName
  visibility : DeclModifier
  doc : Option String
  annotations : List Annotation
  entries : List EnumEntry
  nested : List EnumModel

/-- The method is one that every enum has. -/
def Method.isImplicitInEnum (m : Method) : Bool := m.name == "values" || m.name == "valueOf"

namespace EnumModel

/-- What is reported of a type in an enum that is none. -/
def nestedNonEnum : String := "Nested types in enums can only be other enums"

/-- What is reported of an enum with methods. -/
def enumWithMethods : String := "Cannot convert nested enums with methods"

/-- A constant of an enum. -/
def entryOf (v : Variable) : EnumEntry :=
  { name := v.name, annotations := v.annotations.map (·.convert), doc := Doc.clean? v.doc }

/-- The annotations of an enum with these constants. If one of them has a name in JSON, there must
be a word on JSON adapters among the annotations. -/
def annotationsOf (annotations : List AnnotationUse) (constants : List Variable) :
    List Annotation :=
  let carried := classAnnotations annotations
  if constants.any (·.hasJsonName) && !carried.any (·.cls.simpleName == "JsonClass") then
    carried ++ [{
      cls := .ofCanonical jsonClassAnnotation
      members := [Code.lit "generateAdapter = false"] }]
  else carried

mutual

/-- The model of an enum, if it is plain, and what is reported of it. -/
def ofElement? : TypeElement → Option EnumModel × Log
  | ⟨qualifiedName, package, _, modifiers, annotations, doc, _, _, _, fields, methods, nestedTypes,
      _⟩ =>
    match ofElements? nestedTypes with
    | (none, log) => (none, log)
    | (some nested, log) =>
      match methods.find? fun m => !m.isImplicitInEnum with
      | some m =>
        (none, log ++ [{
          severity := .error
          message := enumWithMethods
          element := some (qualifiedName ++ "#" ++ m.name) }])
      | none =>
        let constants := fields.filter (·.kind == .enumConstant)
        (some {
          cls := .inPackage package qualifiedName
          visibility := visibilityOf modifiers
          doc := Doc.clean? doc
          annotations := annotationsOf annotations constants
          entries := constants.map entryOf
          nested }, log)

/-- The models of those nested types that are plain enums, unless one of the types is no enum, and
what is reported of them; after such a type nothing more is. -/
def ofElements? : List TypeElement → Option (List EnumModel) × Log
  | [] => (some [], [])
  | element :: elements =>
    if !element.isEnum then
      (none, [{
        severity := .error
        message := nestedNonEnum
        element := some element.qualifiedName }])
    else
      let (model, log) := ofElement? element
      let (models, others) := ofElements? elements
      (models.map (model.toList ++ ·), log ++ others)

end

/-- The enum's canonical name. -/
def qualifiedName (e : EnumModel) : String := e.cls.canonical

mutual

/-- The declaration of an enum. -/
def toDeclaration : EnumModel → TypeDecl
  | ⟨cls, visibility, doc, annotations, entries, nested⟩ =>
    { kind := .enumDecl, name := cls.simpleName, modifiers := [visibility], annotations, doc,
      entries, types := toDeclarations nested }

/-- The declarations of enums. -/
def toDeclarations : List EnumModel → List TypeDecl
  | [] => []
  | e :: es => toDeclaration e :: toDeclarations es

end

end EnumModel

end DataClassGen
