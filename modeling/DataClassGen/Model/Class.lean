import DataClassGen.Model.Builder

/-!
# Value classes

The model of a value class, and the data class that it becomes. Each method of the class has one
role: it is the accessor of a property, it gives a builder, or the builder that the value came
from, or a value; it gives the value with one property changed; or it is left to be moved by hand.
The classes and enums nested in the class are known by name only: they are put in place when the
file is composed.
-/

namespace DataClassGen

open Source

/-- What a function tells whoever has to move its body by hand. -/
def replaceTodo : String := "Replace this with the implementation from the source class"

/-! ### Static methods that give a value -/

/-- A static method that gives a value. -/
inductive Creator where
  /-- It takes all the properties in order: the old name is kept for callers to move away from,
  and an operator takes its place. -/
  | full (bridge invoke : Function)
  /-- It takes anything else. -/
  | partly (function : Function)
  deriving DecidableEq

namespace Creator

/-- The functions that the method becomes. -/
def functions : Creator → List Function
  | .full bridge invoke => [bridge, invoke]
  | .partly function => [function]

/-- The method takes all the properties in order. -/
def isFull : Creator → Bool
  | .full _ _ => true
  | .partly _ => false

end Creator

/-- Parameters of these types take all the properties in order. -/
def isFullCreator (parameterTypes propertyTypes : List TypeName) : Bool :=
  parameterTypes == propertyTypes

/-- A method with this many parameters takes too many; one more is allowed than elsewhere. -/
def isLongCreator (count : Nat) : Bool := 7 < count

/-- What a static method that gives a value becomes. -/
def Creator.ofMethod (cls : ClassName) (set : PropertySet) (m : Method) :
    Except Failure Creator := do
  let plain ← m.toFunction
  let f :=
    if isLongCreator plain.parameters.length then
      plain.annotated (suppression "LongParameterList")
    else plain
  if isFullCreator (f.parameters.map (·.type)) set.types then
    let replacement := cls.canonical ++ "(" ++ f.argumentList.shown ++ ")"
    let call := Code.ident f.name ++ Code.lit "(" ++ f.argumentList ++ Code.lit ")"
    let arguments := (set.properties.zip f.parameters).map fun (property, parameter) =>
      Code.ident property.name ++ Code.lit " = " ++ Code.ident parameter.name
    return .full
      ((((f.annotated (jvmName ("-" ++ f.name))).annotated
        (deprecation "Use invoke()" replacement)).doing call).doing
          (todo ValueProperty.bridgeTodo))
      ((((f.renamed "invoke").annotated (jvmName f.name)).withModifier .operator).doing
        (Code.lit "return " ++ Code.classed cls ++ Code.lit "(" ++ Code.joined ", " arguments ++
          Code.lit ")"))
  else return .partly (f.doing (Code.lit "TODO()"))

/-! ### Methods that give a changed value -/

/-- A method may stand for changing a property: an abstract one always, any other if it takes
exactly the property and gives a value of the class. -/
def isValidWither (isAbstract : Bool) (parameterTypes : List TypeName)
    (resultType propertyType selfType : TypeName) : Bool :=
  isAbstract || (parameterTypes == [propertyType] && resultType == selfType)

/-- The body of a method that changes a property: through the setter of the builder, if the class
has one, or else by copying. -/
def witherBody (property : String) (set : PropertySet)
    (builder : Option (BuilderModel × ClassName)) (toBuilder : Option Function) : Code :=
  let copying := Code.lit "return copy(" ++ Code.ident property ++ Code.lit " = " ++
    Code.ident property ++ Code.lit ")"
  match builder with
  | none => copying
  | some (b, builderClass) =>
    match b.setterName? property with
    | none => copying
    | some setter =>
      let start :=
        match toBuilder with
        | some f => Code.ident f.name ++ Code.lit "()"
        | none =>
          Code.classed builderClass ++ Code.lit "(" ++ set.forwardingArguments (some "this") ++
            Code.lit ")"
      Code.lit "return " ++ start ++ Code.lit "." ++ Code.ident setter ++ Code.lit "(" ++
        Code.ident property ++ Code.lit ")." ++ Code.ident b.buildCall ++ Code.lit "()"

/-! ### Constants -/

/-- The property of the companion object for a static field. -/
def constantOf (v : Variable) : Except Failure Property := do
  let type ← v.type.convert
  let visibility : List DeclModifier :=
    if v.modifiers.contains .privateAccess then [.privateAccess]
    else if v.modifiers.contains .publicAccess then []
    else [.internalAccess]
  return {
    name := v.name
    type
    modifiers := visibility ++ (if v.constantValue.isSome then [.const] else [])
    initializer :=
      match v.constantValue with
      | some value => some value.literal
      | none => some (todo replaceTodo)
    doc := Doc.clean? v.doc }

/-! ### The model -/

/-- The model of a value class. -/
structure ClassModel where
  cls : ClassName
  doc : Option String
  visibility : DeclModifier
  /-- No value of the class must be shown. -/
  isRedacted : Bool
  redactedClass : Option ClassName
  /-- The class can be sent between processes. -/
  isParcelable : Bool
  /-- The class asks for a generated JSON adapter. -/
  wantsAdapter : Bool
  superclass : Option TypeName
  interfaces : List TypeName
  typeParameters : List TypeName
  annotations : List Annotation
  properties : PropertySet
  builder : Option BuilderModel
  /-- The methods that give the builder a value came from. -/
  toBuilders : List Function
  /-- The static methods that give a builder. -/
  builderFactories : List Function
  /-- The static methods that give a value. -/
  creators : List Creator
  /-- The methods that give a value with one property changed. -/
  withers : List Function
  constants : List Property
  /-- The methods that are left to be moved by hand. -/
  unrecognized : List String
  /-- The class has a file of its own. -/
  isTopLevel : Bool
  /-- The canonical name of the type it is declared in. -/
  parent : Option String
  /-- The canonical names of the nested value classes, then of the nested enums. -/
  children : List String
  deriving DecidableEq

/-- What a method of a value class is for, as far as its own signature tells. -/
inductive MethodRole where
  | accessor
  | builderFactory (function : Function)
  | toBuilder (function : Function)
  | creator (creator : Creator)
  /-- It changes a property, or is left to be moved by hand. -/
  | other
  deriving DecidableEq

/-- What there is to know of a value class before its methods are sorted. -/
structure ClassContext where
  element : TypeElement
  cls : ClassName
  /-- The canonical name of the builder. -/
  builderName : Option String
  /-- The builder and its class. -/
  builder : Option (BuilderModel × ClassName)
  properties : PropertySet
  /-- The type that the class declares. -/
  selfType : TypeName

namespace ClassContext

/-- What a method is for, as far as its own signature tells. -/
def roleOf (c : ClassContext) (m : Method) : Except Failure MethodRole := do
  if m.isAccessor c.builderName then return .accessor
  else if m.returnsDeclared c.builderName && m.isStatic then
    return .builderFactory ((← m.toFunction).doing (todo replaceTodo))
  else
    match c.builder with
    | some (_, builderClass) =>
      if m.returnsDeclared c.builderName && m.isAbstract && m.parameters.isEmpty then
        return .toBuilder ((← m.toFunction).doing
          (Code.lit "return " ++ Code.classed builderClass ++ Code.lit "(" ++
            c.properties.forwardingArguments none ++ Code.lit ")"))
      else creatorOrOther
    | none => creatorOrOther
where
  /-- A static method that gives a value of the class, or none of those. -/
  creatorOrOther : Except Failure MethodRole := do
    if m.isStatic && m.returnType.isDeclared c.element.qualifiedName then
      return .creator (← Creator.ofMethod c.cls c.properties m)
    else return .other

/-- The function that a method becomes, if it changes a property. -/
def wither? (c : ClassContext) (toBuilder : Option Function) (m : Method) :
    Except Failure (Option Function) := do
  match (Text.after? "with" m.name).bind fun rest =>
      c.properties.find? (lowercaseFirst rest) with
  | none => return none
  | some property =>
    let parameters ← m.parameters.mapM Variable.toParameter
    let resultType ← m.returnType.convert
    if isValidWither m.isAbstract (parameters.map (·.type)) resultType property.type c.selfType then
      return some {
        name := m.name
        parameters := [{ name := property.name, type := property.type }]
        returns := some c.selfType
        body := [.code (witherBody property.name c.properties c.builder toBuilder)] }
    else return none

end ClassContext

namespace MethodRole

/-- The function that gives a builder. -/
def builderFactory? : MethodRole → Option Function
  | .builderFactory f => some f
  | _ => none

/-- The function that gives the builder a value came from. -/
def toBuilder? : MethodRole → Option Function
  | .toBuilder f => some f
  | _ => none

/-- The functions that give a value. -/
def creator? : MethodRole → Option Creator
  | .creator c => some c
  | _ => none

end MethodRole

/-- A class is redacted as a whole if it is marked, or if all its properties are and it has any. -/
def isClassRedacted (isMarked : Bool) (properties : List Bool) : Bool :=
  isMarked || (!properties.isEmpty && properties.all id)

namespace ClassModel

/-- The model of a class whose surroundings are known; `enumChildren` are the canonical names of
its converted enums. -/
def ofContext (c : ClassContext) (enumChildren : List String) : Except Failure ClassModel := do
  let element := c.element
  let roles ← element.methods.mapM c.roleOf
  let toBuilders := roles.filterMap MethodRole.toBuilder?
  let toBuilder := toBuilders.find? (·.parameters.isEmpty)
  let others := ((element.methods.zip roles).filter (·.2 == .other)).map (·.1)
  let withers ← others.mapM (c.wither? toBuilder)
  let constants ←
    (element.fields.filter fun f => f.kind == .field && f.modifiers.contains .static).mapM
      constantOf
  let superclass ← element.superclass.mapM TypeUse.convert
  let interfaces ← element.interfaces.mapM TypeUse.convert
  let typeParameters ← element.typeParameters.mapM TypeParameter.convert
  let marked := redactedClassOf element.annotations
  return {
    cls := c.cls
    doc := Doc.clean? element.doc
    visibility := visibilityOf element.modifiers
    isRedacted :=
      isClassRedacted marked.isSome (c.properties.properties.map (·.isRedacted))
    redactedClass := marked.or c.properties.redactedClass
    isParcelable := element.interfaces.any (·.isDeclared parcelableInterface)
    wantsAdapter := DataClassGen.wantsAdapter element.annotations
    superclass := superclass.filter (!·.isBuiltin "Any")
    interfaces
    typeParameters
    annotations := classAnnotations element.annotations
    properties := c.properties
    builder := c.builder.map (·.1)
    toBuilders
    builderFactories := roles.filterMap MethodRole.builderFactory?
    creators := roles.filterMap MethodRole.creator?
    withers := withers.filterMap id
    constants
    unrecognized :=
      ((others.zip withers).filter (·.2.isNone)).map (·.1.signature)
    isTopLevel := element.isTopLevel
    parent := element.enclosing.map (·.qualifiedName)
    children :=
      (element.nestedTypes.filter (·.isValueClass)).map (·.qualifiedName) ++ enumChildren }

/-- The model of a value class; none if its builder has none, which has been reported. -/
def ofElement? (element : TypeElement) (enumChildren : List String) :
    Reporting (Option ClassModel) := do
  let cls := ClassName.inPackage element.package element.qualifiedName
  let builderElement := element.nestedTypes.find? (·.isBuilder)
  let builderName := builderElement.map (·.qualifiedName)
  let properties ← Reporting.ofExcept (PropertySet.ofElement builderName element)
  let selfType ← Reporting.ofExcept element.asType.convert
  let modelWith (builder : Option (BuilderModel × ClassName)) : Reporting (Option ClassModel) := do
    let context := { element, cls, builderName, builder, properties, selfType }
    return some (← Reporting.ofExcept (ofContext context enumChildren))
  match builderElement with
  | none => modelWith none
  | some b =>
    match ← BuilderModel.ofElement? b element properties with
    | none => return none
    | some builder => modelWith (some (builder, cls.nested builder.name))

/-- The canonical name of the class. -/
def qualifiedName (c : ClassModel) : String := c.cls.canonical

/-! ### The declaration -/

/-- The constructor is left to functions that call it. -/
def isConstructorInternal (hasBuilder hasCreators : Bool) : Bool := hasBuilder || hasCreators

/-- The companion object of the class; none if it would be empty. -/
def companion? (c : ClassModel) : Option TypeDecl :=
  let companion : TypeDecl := {
    kind := .companion
    name := TypeDecl.companionName
    properties := c.constants
    functions := c.creators.flatMap (·.functions) ++ c.builderFactories }
  if companion.hasMembers then some companion else none

/-- The annotations of the data class. -/
def declaredAnnotations (c : ClassModel) : List Annotation :=
  c.annotations ++
    (match c.redactedClass with
      | some cls => if c.isRedacted then [{ cls : Annotation }] else []
      | none => []) ++
    (if c.isParcelable then [{ cls := .ofCanonical parcelizeAnnotation : Annotation }] else [])

/-- The data class, without the classes and enums nested in the value class. -/
def toDeclaration (c : ClassModel) : Except Failure TypeDecl := do
  let properties ← c.properties.properties.mapM fun p => do
    let default ← p.type.constructorDefault? c.builder.isSome c.wantsAdapter
    return p.toConstructorProperty c.redactedClass c.isRedacted default
  let builder ← c.builder.mapM fun b => b.toDeclaration c.cls
  return {
    kind := .classDecl
    name := c.cls.simpleName
    modifiers := c.visibility :: (if c.properties.properties.isEmpty then [] else [.data])
    annotations := c.declaredAnnotations
    doc := c.doc
    typeParameters := c.typeParameters
    constructor := some {
      modifiers :=
        if isConstructorInternal c.builder.isSome (!c.creators.isEmpty) then [.internalAccess]
        else []
      properties }
    superclass := c.superclass
    interfaces := c.interfaces
    functions :=
      c.properties.properties.filterMap (·.accessorFunction?) ++ c.withers ++
        (placeholder? c.unrecognized).toList ++ c.toBuilders
    types := builder.toList ++ c.companion?.toList }

end ClassModel

end DataClassGen
