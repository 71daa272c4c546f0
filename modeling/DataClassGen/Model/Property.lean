import DataClassGen.Convert.Signature

/-!
# Properties of a value class

Each abstract method that gives a value and takes nothing is the accessor of a property. If the
accessors all have the prefixes of a bean, the properties go without them. The markers among an
accessor's annotations end up in the type and in flags of the property, the other annotations are
carried along.

A property appears twice in the class: as a property of the constructor, and, unless its callers
see no difference, as a function with the accessor's name.
-/

namespace DataClassGen

open Source

/-! ### Accessors -/

namespace Method

/-- The method returns the type of this name. -/
def returnsDeclared (m : Method) (name : Option String) : Bool :=
  name.any m.returnType.isDeclared

/-- The method is the accessor of a property, in a class whose builder has this name. -/
def isAccessor (builder : Option String) (m : Method) : Bool :=
  m.isAbstract && !m.isStatic && m.parameters.isEmpty && !m.returnType.isVoid &&
    !m.returnsDeclared builder

/-- The rest of the method's name behind `start`, if it begins with a capital. -/
def capitalizedAfter? (start : String) (m : Method) : Option String :=
  (Text.after? start m.name).filter ClassName.isCapitalized

/-- The method's name without the prefix of a bean, if it has one; `is` counts as one only for
truth values. -/
def beanName? (m : Method) : Option String :=
  match m.capitalizedAfter? "get" with
  | some rest => some rest
  | none => if m.returnType.isBoolean then m.capitalizedAfter? "is" else none

end Method

/-! ### Properties -/

/-- A property of a value class. -/
structure ValueProperty where
  name : String
  /-- The name of the accessor that the property comes from. -/
  accessorName : String
  type : TypeName
  annotations : List Annotation
  isOverride : Bool
  isRedacted : Bool
  visibility : DeclModifier
  doc : Option String
  deriving DecidableEq

/-- Callers already reach the property by the name of its accessor. -/
def usesGetterSyntax (name accessor : String) : Bool :=
  Text.beginsWith "get" name || Text.beginsWith "get" accessor

/-- The annotation is carried along by a property of this name: it is no marker, and does not only
repeat the name. -/
def Marker.isCarried (name : String) : Marker → Bool
  | .other => true
  | .jsonName given => given != name
  | .notNull | .nullable | .override | .redacted _ => false

namespace ValueProperty

/-- The property of this name that comes from an accessor. -/
def ofAccessor (name : String) (m : Method) : Except Failure ValueProperty := do
  let type ← m.returnType.convert
  return {
    name
    accessorName := m.name
    type := type.withNull (isMarkedNullable m.annotations)
    annotations := (m.annotations.filter fun a => a.marker.isCarried name).map (·.convert)
    isOverride := m.annotations.any (·.marker == .override)
    isRedacted := (redactedClassOf m.annotations).isSome
    visibility := publicOrInternal m.modifiers
    doc := Doc.clean? m.doc }

/-- Callers already reach the property by the name of its accessor. -/
def hasGetterSyntax (p : ValueProperty) : Bool := usesGetterSyntax p.name p.accessorName

/-- The property in the constructor. Its getter keeps the accessor's name on the virtual machine
where that would be lost. It carries a marker of its own against being shown unless the class as a
whole does. -/
def toConstructorProperty (redactedClass : Option ClassName) (isClassRedacted : Bool)
    (default : Option Code) (p : ValueProperty) : ConstructorProperty :=
  let getterName :=
    if !p.hasGetterSyntax && !p.isOverride then
      [{ jvmName p.accessorName with onGetter := true }]
    else []
  let redaction :=
    match redactedClass with
    | some cls => if p.isRedacted && !isClassRedacted then [{ cls : Annotation }] else []
    | none => []
  { property :=
      { name := p.name, type := p.type, annotations := p.annotations ++ getterName ++ redaction,
        doc := p.doc }
    default }

/-- What a function that only bridges to a property tells its callers. -/
def bridgeTodo : String := "Remove this function. Use the above line to auto-migrate."

/-- The function with the accessor's name. One that overrides another returns the property; any
other only tells its callers to use the property. -/
def accessorFunction? (p : ValueProperty) : Option Function :=
  if p.hasGetterSyntax then none
  else if p.isOverride then
    some {
      name := p.accessorName
      returns := some p.type
      modifiers := [.override]
      body := [.code (Code.lit "return " ++ Code.ident p.name)] }
  else
    some {
      name := p.accessorName
      returns := some p.type
      modifiers := [p.visibility]
      annotations := [
        { cls := .topLevelOf "kotlin.jvm" "JvmSynthetic" },
        jvmName ("-" ++ p.name),
        deprecation "Use the property" p.name]
      body := [.code (Code.ident p.name), .code (todo bridgeTodo)] }

end ValueProperty

/-! ### All properties of a class -/

/-- The properties of a value class, in the order of their accessors. -/
structure PropertySet where
  properties : List ValueProperty := []
  /-- The class of the first marker on an accessor against being shown. -/
  redactedClass : Option ClassName := none
  deriving DecidableEq

namespace PropertySet

/-- The first property of this name. -/
def find? (set : PropertySet) (name : String) : Option ValueProperty :=
  set.properties.find? (·.name == name)

/-- The types of the properties. -/
def types (set : PropertySet) : List TypeName := set.properties.map (·.type)

/-- Arguments that pass each property on by its name, read from `receiver` if there is one. -/
def forwardingArguments (set : PropertySet) (receiver : Option String) : Code :=
  let source := (receiver.map fun r => Code.lit (r ++ ".")).getD []
  Code.joined ", " (set.properties.map fun p =>
    Code.ident p.name ++ Code.lit " = " ++ source ++ Code.ident p.name)

/-- The name of the property of an accessor, among accessors that all have the prefixes of a bean
or not. -/
def propertyName (areBeans : Bool) (m : Method) : String :=
  match m.beanName? with
  | some rest => if areBeans then decapitalize rest else m.name
  | none => m.name

/-- The properties of a value class whose builder has this name. -/
def ofElement (builder : Option String) (element : TypeElement) : Except Failure PropertySet := do
  let accessors := element.methods.filter (Method.isAccessor builder)
  let areBeans := accessors.all fun m => m.beanName?.isSome
  let properties ← accessors.mapM fun m =>
    ValueProperty.ofAccessor (propertyName areBeans m) m
  return { properties, redactedClass := accessors.findSome? fun m => redactedClassOf m.annotations }

end PropertySet

end DataClassGen
