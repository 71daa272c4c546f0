import DataClassGen.Convert.Type
import DataClassGen.Numeric.Shortest
import DataClassGen.Source.Declaration

/-!
# Converting annotations

What an annotation means to the conversion, and the annotation that it becomes. Some annotations
are markers: they say that a value may or may not be null, that a method overrides another, or
that a value must not be shown. Others carry over, their members written as expressions.
-/

namespace DataClassGen

open Source

/-! ### Markers -/

/-- The annotation that names a property in JSON. -/
def jsonNameAnnotation : String := "com.squareup.moshi.Json"

/-- The annotation that asks for a JSON adapter. -/
def jsonClassAnnotation : String := "com.squareup.moshi.JsonClass"

/-- The annotation for classes that can be sent between processes. -/
def parcelizeAnnotation : String := "kotlinx.parcelize.Parcelize"

/-- The interface of classes that can be sent between processes. -/
def parcelableInterface : String := "android.os.Parcelable"

/-- What an annotation means to the conversion. -/
inductive Marker where
  /-- The value is not null. -/
  | notNull
  /-- The value may be null. -/
  | nullable
  /-- The method overrides another. -/
  | override
  /-- The value must not be shown, says an annotation of this class. -/
  | redacted (cls : ClassName)
  /-- The name of the property in JSON. -/
  | jsonName (name : String)
  /-- Nothing in particular. -/
  | other
  deriving DecidableEq, Repr

namespace AnnotationUse

/-- What the annotation means: mostly by its simple name. -/
def marker (a : AnnotationUse) : Marker :=
  if ["NonNull", "NotNull", "Nonnull"].contains a.simpleName then .notNull
  else if a.simpleName == "Nullable" then .nullable
  else if a.simpleName == "Override" then .override
  else if a.simpleName == "Redacted" then .redacted (.ofCanonical a.typeName)
  else if a.typeName == jsonNameAnnotation then .jsonName ((a.stringMember? "name").getD "")
  else .other

/-- The class of a marker that says that a value must not be shown. -/
def redactedClass? (a : AnnotationUse) : Option ClassName :=
  match a.marker with
  | .redacted cls => some cls
  | _ => none

/-- The annotation asks for a generated JSON adapter. -/
def wantsAdapter (a : AnnotationUse) : Bool :=
  a.simpleName == "JsonClass" &&
    match a.members.lookup "generateAdapter" with
    | some (.bool true) => true
    | _ => false

end AnnotationUse

/-- One of the annotations says that the value may be null. -/
def isMarkedNullable (annotations : List AnnotationUse) : Bool :=
  annotations.any (·.marker == .nullable)

/-- The class of the first annotation that says that a value must not be shown. -/
def redactedClassOf (annotations : List AnnotationUse) : Option ClassName :=
  annotations.findSome? AnnotationUse.redactedClass?

/-- One of the annotations asks for a generated JSON adapter. -/
def wantsAdapter (annotations : List AnnotationUse) : Bool :=
  annotations.any AnnotationUse.wantsAdapter

/-- The variable has a name in JSON. -/
def Variable.hasJsonName (v : Variable) : Bool :=
  v.annotations.any (·.typeName == jsonNameAnnotation)

/-! ### Values as expressions -/

/-- A number without digits, as a constant of its class. -/
def nonFiniteText (className : String) (x : Binary64) : String :=
  className ++ "." ++
    if x.isNaN then "NaN" else if x.isNegative then "NEGATIVE_INFINITY" else "POSITIVE_INFINITY"

/-- A number of single precision. -/
def floatText (x : Binary64) : String :=
  if x.isFinite then x.text ++ "f" else nonFiniteText "Float" x

/-- A number of double precision. -/
def doubleText (x : Binary64) : String :=
  if x.isFinite then x.textWithPoint else nonFiniteText "Double" x

/-- A truth value. -/
def boolText (b : Bool) : String := if b then "true" else "false"

/-- The value of a constant. -/
def Constant.literal : Constant → Code
  | .string s => Code.str s
  | .bool b => Code.lit (boolText b)
  | .int n => Code.lit (toString n)
  | .long n => Code.lit (toString n ++ "L")
  | .float x => Code.lit (floatText x)
  | .double x => Code.lit (doubleText x)
  | .char c => Code.lit (charLiteral c)

mutual

/-- The value of a member. -/
def MemberValue.literal : MemberValue → Code
  | .string s => Code.str s
  | .bool b => Code.lit (boolText b)
  | .int n => Code.lit (toString n)
  | .long n => Code.lit (toString n ++ "L")
  | .float x => Code.lit (floatText x)
  | .double x => Code.lit (doubleText x)
  | .char c => Code.lit (charLiteral c)
  | .enumConstant typeName constant =>
    Code.classed (.ofCanonical typeName) ++ Code.lit "." ++ Code.ident constant
  | .classLiteral name => Code.classed (convertClass name) ++ Code.lit "::class"
  | .array items => Code.lit "[" ++ Code.joined ", " (MemberValue.literals items) ++ Code.lit "]"
  | .nested typeName members =>
    Code.classed (.ofCanonical typeName) ++ Code.lit "(" ++
      Code.joined ", " (memberCodes (isPositional members) members) ++ Code.lit ")"

/-- The values of an array. -/
def MemberValue.literals : List MemberValue → List Code
  | [] => []
  | item :: items => MemberValue.literal item :: MemberValue.literals items

/-- The only member is called `value`, and so is written without its name. -/
def isPositional : List (String × MemberValue) → Bool
  | [("value", _)] => true
  | _ => false

/-- Members with their names, or without if there is only the one called `value`. -/
def memberCodes (positional : Bool) : List (String × MemberValue) → List Code
  | [] => []
  | (name, value) :: members =>
    (if positional then MemberValue.literal value
      else Code.ident name ++ Code.lit " = " ++ MemberValue.literal value) ::
      memberCodes positional members

end

/-! ### Annotations -/

namespace AnnotationUse

/-- The annotation that this one becomes. -/
def convert (a : AnnotationUse) : Annotation :=
  { cls := .ofCanonical a.typeName, members := memberCodes (isPositional a.members) a.members }

/-- The annotation carries over from a type to the type it becomes. -/
def carriesOver (a : AnnotationUse) : Bool :=
  (ClassName.ofCanonical a.typeName).package != "com.google.auto.value" &&
    a.simpleName != "Metadata" && a.redactedClass?.isNone

/-- The annotation that one on a type becomes: a request for a JSON adapter loses the members that
name the generator of value classes. -/
def convertOnType (a : AnnotationUse) : Annotation :=
  let converted := a.convert
  if a.simpleName == "JsonClass" then
    { converted with members := converted.members.filter fun m => !Text.hasPart "avm" m.shown }
  else converted

end AnnotationUse

/-- The annotations that carry over from a type to the type it becomes. -/
def classAnnotations (annotations : List AnnotationUse) : List Annotation :=
  (annotations.filter AnnotationUse.carriesOver).map AnnotationUse.convertOnType

end DataClassGen
