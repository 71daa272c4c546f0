import DataClassGen.Model.Property
import DataClassGen.Model.Reporting

/-!
# Builders

A type marked as the builder of a value class becomes a class with a variable for each property.
Its abstract methods that return the builder set properties; the first abstract one that returns
the value finishes it, and the first concrete one is called by its users to that end; an abstract
`xBuilder()` gives access to a builder of the property `x`. All other methods are left to be moved
by hand.

A property that can be set directly and through a builder of its own is guarded, so that only one
of the two ways can be taken.
-/

namespace DataClassGen

open Source

/-! ### Builders of properties -/

/-- A method that gives access to a builder of a property. -/
structure SubBuilder where
  accessor : Function
  /-- The type of the builder it gives access to. -/
  type : TypeName
  deriving DecidableEq

namespace SubBuilder

/-- The field that keeps the builder. -/
def fieldName (s : SubBuilder) : String := "_" ++ s.accessor.name

/-- The field that records that a property was set directly. -/
def flagName (property : String) : String := "_" ++ property ++ "Set"

/-- The method that takes over an existing collection, where the builder is that of one of Guava's
collections. -/
def seedMethod? (s : SubBuilder) : Option String := do
  let enclosing ← (← s.type.class?).enclosing?
  if enclosing.package = "com.google.common.collect" then
    let name := enclosing.simpleName
    some (if Text.hasPart "Map" name || Text.hasPart "Table" name then "putAll" else "addAll")
  else none

/-- An expression for a new builder. The builder of a class is made by that class; any other is
constructed. -/
def creation (s : SubBuilder) : Code :=
  let constructed := Code.typed s.type ++ Code.lit "()"
  match s.type.class? with
  | none => constructed
  | some cls =>
    match cls.enclosing? with
    | some enclosing =>
      if cls.simpleName = "Builder" then
        Code.classed enclosing ++ Code.lit ".builder" ++
          (if s.type.args.isEmpty then []
            else Code.lit "<" ++ Code.joined ", " (s.type.args.map Code.typed) ++ Code.lit ">") ++
          Code.lit "()"
      else constructed
    | none => constructed

/-- The end of an expression for a new builder: the property gives way to it, and it is kept. -/
def keeping (s : SubBuilder) (property : String) : Code :=
  Code.lit "\n  " ++ Code.ident property ++ Code.lit " = null" ++ Code.lit "\n  " ++
    Code.ident s.fieldName ++ Code.lit " = subBuilder\n\x7d"

/-- An expression for a new builder that starts from the value that the property has. -/
def seededCreation (s : SubBuilder) (property : String) : Code :=
  match s.seedMethod? with
  | some method =>
    s.creation ++ Code.lit ".also \x7b subBuilder ->" ++ Code.lit "\n  " ++ Code.ident property ++
      Code.lit ("?.let \x7b subBuilder." ++ method ++ "(it) \x7d") ++ s.keeping property
  | none =>
    Code.lit "(" ++ Code.ident property ++ Code.lit "?.toBuilder() ?: " ++ s.creation ++
      Code.lit ").also \x7b subBuilder ->" ++ s.keeping property

end SubBuilder

/-! ### The model -/

/-- A property as the builder sees it. -/
structure BuilderProperty where
  name : String
  type : TypeName
  /-- The functions that set it, without bodies. -/
  setters : List Function
  subBuilder : Option SubBuilder
  deriving DecidableEq

/-- The property can be set in two ways that exclude each other. -/
def needsGuard (hasSetter hasSubBuilder : Bool) : Bool := hasSetter && hasSubBuilder

namespace BuilderProperty

/-- The builder of the property, if its use has to be guarded. -/
def guarded? (p : BuilderProperty) : Option SubBuilder :=
  if needsGuard (!p.setters.isEmpty) p.subBuilder.isSome then p.subBuilder else none

end BuilderProperty

/-- The builder of a value class. -/
structure BuilderModel where
  name : String
  visibility : DeclModifier
  doc : Option String
  annotations : List Annotation
  typeParameters : List TypeName
  /-- One for each property of the class, in the same order. -/
  properties : List BuilderProperty
  /-- The concrete method that finishes the value, if there is one. -/
  buildMethod : Option Function
  /-- The abstract method that finishes the value. -/
  finalizeMethod : Function
  /-- The methods that are left to be moved by hand. -/
  unrecognized : List String
  deriving DecidableEq

/-! ### Sorting the methods -/

/-- The methods of a builder as far as they have been sorted. -/
structure BuilderParts where
  /-- For each property, the functions that set it. -/
  setters : List (List Function)
  /-- For each property, the method that gives access to its builder. -/
  subBuilders : List (Option SubBuilder)
  finalizeMethod : Option Function := none
  buildMethod : Option Function := none
  unrecognized : List String := []

namespace BuilderParts

/-- No methods yet, for this many properties. -/
def empty (count : Nat) : BuilderParts :=
  { setters := List.replicate count [], subBuilders := List.replicate count none }

end BuilderParts

namespace PropertySet

/-- The place of the property that a method of this name sets: `x` and `setX` set `x`. -/
def setterTarget? (set : PropertySet) (method : String) : Option Nat :=
  match set.properties.findIdx? fun p => method == p.name with
  | some i => some i
  | none => set.properties.findIdx? fun p => method == "set" ++ capitalize p.name

/-- The place of the property that a method of this name gives access to a builder of. -/
def subBuilderTarget? (set : PropertySet) (method : String) : Option Nat :=
  (Text.before? "Builder" method).bind fun name => set.properties.findIdx? fun p => p.name == name

end PropertySet

/-- What a method of a builder is for. -/
inductive BuilderRole where
  /-- It sets the property at this place. -/
  | setter (index : Nat)
  /-- It finishes the value, and is abstract. -/
  | finalize
  /-- It finishes the value for its users. -/
  | build
  /-- It gives access to a builder of the property at this place. -/
  | subBuilder (index : Nat)
  | unrecognized
  deriving DecidableEq, Repr

/-- What a method is for in the builder of this name for the value class of that name, after the
methods in `parts`. -/
def BuilderRole.ofMethod (builderName valueName : String) (set : PropertySet)
    (parts : BuilderParts) (m : Method) : BuilderRole :=
  if m.isAbstract && m.returnType.isDeclared builderName then
    match set.setterTarget? m.name with
    | some i => .setter i
    | none => .unrecognized
  else if m.returnType.isDeclared valueName && m.parameters.isEmpty && !m.isStatic then
    if m.isAbstract then if parts.finalizeMethod.isNone then .finalize else .unrecognized
    else if parts.buildMethod.isNone then .build
    else .unrecognized
  else if m.isAbstract && m.parameters.isEmpty then
    match set.subBuilderTarget? m.name with
    | some i => if (parts.subBuilders[i]?.join).isNone then .subBuilder i else .unrecognized
    | none => .unrecognized
  else .unrecognized

namespace BuilderParts

/-- The parts with a method more. A setter that does not take exactly one value is reported. -/
def add (builderName valueName : String) (set : PropertySet) (parts : BuilderParts)
    (m : Method) : Reporting BuilderParts := do
  match BuilderRole.ofMethod builderName valueName set parts m with
  | .setter i =>
    if m.parameters.length != 1 then
      Reporting.report .warning ("Setter with surprising params: " ++ m.name) (some builderName)
    let f ← Reporting.ofExcept m.toFunction
    return { parts with setters := parts.setters.modify i (· ++ [f]) }
  | .finalize => return { parts with finalizeMethod := some (← Reporting.ofExcept m.toFunction) }
  | .build => return { parts with buildMethod := some (← Reporting.ofExcept m.toFunction) }
  | .subBuilder i =>
    let accessor ← Reporting.ofExcept m.toFunction
    let type ← Reporting.ofExcept m.returnType.convert
    return { parts with subBuilders := parts.subBuilders.set i (some { accessor, type }) }
  | .unrecognized => return { parts with unrecognized := parts.unrecognized ++ [m.signature] }

end BuilderParts

namespace BuilderModel

/-- What is reported of a builder without a method that finishes the value. -/
def missingBuildMethod : String := "Builder is missing an abstract build method"

/-- The model of the builder of a value class with these properties; none if no method finishes
the value, which is reported. -/
def ofElement? (builder value : TypeElement) (set : PropertySet) :
    Reporting (Option BuilderModel) := do
  let parts ← builder.methods.foldlM
    (BuilderParts.add builder.qualifiedName value.qualifiedName set)
    (BuilderParts.empty set.properties.length)
  match parts.finalizeMethod with
  | none =>
    Reporting.report .error missingBuildMethod (some builder.qualifiedName)
    return none
  | some finalizeMethod =>
    let typeParameters ←
      Reporting.ofExcept (builder.typeParameters.mapM TypeParameter.convert)
    return some {
      name := builder.simpleName
      visibility := publicOrInternal builder.modifiers
      doc := Doc.clean? builder.doc
      annotations := classAnnotations builder.annotations
      typeParameters
      properties :=
        (set.properties.zip (parts.setters.zip parts.subBuilders)).map
          fun (p, setters, subBuilder) => { name := p.name, type := p.type, setters, subBuilder }
      buildMethod := parts.buildMethod
      finalizeMethod
      unrecognized := parts.unrecognized }

/-- The name of the method that users of the builder finish a value with. -/
def buildCall (b : BuilderModel) : String := (b.buildMethod.getD b.finalizeMethod).name

/-- The name of the first setter of the first property of this name. -/
def setterName? (b : BuilderModel) (property : String) : Option String :=
  (b.properties.find? (·.name == property)).bind fun p => p.setters.head?.map (·.name)

end BuilderModel

/-! ### The declaration -/

/-- A private variable of the builder with its first value. -/
def privateVariable (name : String) (type : TypeName) (initializer : Option Code) : Property :=
  { name, type, isMutable := true, modifiers := [.privateAccess], initializer }

/-- A function that lists methods that are left to be moved by hand; none if there are none. -/
def placeholder? (unrecognized : List String) : Option Function :=
  if unrecognized.isEmpty then none
  else
    some {
      name := "placeholder"
      returns := some (.builtin "Nothing")
      body :=
        .comment ("TODO This is a placeholder to mention the following methods need to be " ++
          "moved manually over:") ::
        unrecognized.map (fun signature => .comment ("  " ++ signature)) ++
        [.code (Code.lit "TODO()")] }

namespace BuilderProperty

/-- A setter with its body. -/
def setterFunction (p : BuilderProperty) (setter : Function) : Function :=
  let guarding : List Code :=
    match p.guarded? with
    | none => []
    | some s => [
      Code.lit "check(" ++ Code.ident s.fieldName ++ Code.lit " == null) \x7b " ++
        Code.str ("Cannot set " ++ p.name ++ " after calling " ++ s.accessor.name ++ "()") ++
        Code.lit " \x7d",
      Code.ident (SubBuilder.flagName p.name) ++ Code.lit " = true"]
  let setting : Code :=
    match setter.parameters.head? with
    | some parameter =>
      Code.lit "return apply \x7b this." ++ Code.ident p.name ++ Code.lit " = " ++
        Code.ident parameter.name ++ Code.lit " \x7d"
    | none => Code.lit "return this"
  { setter with body := setter.body ++ (guarding ++ [setting]).map .code }

/-- The method that gives access to a builder of the property, with its body. -/
def subBuilderFunction (p : BuilderProperty) (s : SubBuilder) : Function :=
  let guarding : List Code :=
    match p.guarded? with
    | none => []
    | some _ => [
      Code.lit "check(!" ++ Code.ident (SubBuilder.flagName p.name) ++ Code.lit ") \x7b " ++
        Code.str ("Cannot call " ++ s.accessor.name ++ "() after setting " ++ p.name) ++
        Code.lit " \x7d"]
  let giving := Code.lit "return " ++ Code.ident s.fieldName ++ Code.lit " ?: " ++
    s.seededCreation p.name
  { s.accessor with body := s.accessor.body ++ (guarding ++ [giving]).map .code }

/-- The functions of the property: its setters, and the access to its builder. -/
def functions (p : BuilderProperty) : List Function :=
  p.setters.map p.setterFunction ++ p.subBuilder.toList.map p.subBuilderFunction

/-- The fields for a builder of the property. -/
def fields (p : BuilderProperty) : List Property :=
  match p.subBuilder with
  | none => []
  | some s =>
    privateVariable s.fieldName (s.type.withNull true) (some (Code.lit "null")) ::
      match p.guarded? with
      | none => []
      | some _ => [privateVariable (SubBuilder.flagName p.name) (.builtin "Boolean")
          (some (Code.lit "false"))]

/-- The zero value that the property starts from, if it has one. -/
def zero? (p : BuilderProperty) : Except Failure (Option Code) :=
  if p.type.isNullable then .ok none else p.type.zero?

/-- The variable for the property: it starts from its zero value, or else as null. -/
def constructorVariable (p : BuilderProperty) (zero : Option Code) : ConstructorProperty :=
  { property := privateVariable p.name (if zero.isSome then p.type else p.type.withNull true) none
    default := some (zero.getD (Code.lit "null")) }

/-- The argument for the property when the value is finished: what its builder gives, if that was
used, or else the variable, which must have been set unless it may be null. -/
def argument (p : BuilderProperty) (zero : Option Code) : Code :=
  let built :=
    match p.subBuilder with
    | none => []
    | some s => Code.ident s.fieldName ++ Code.lit "?.build() ?: "
  let check :=
    if zero.isNone && !p.type.isNullable then
      Code.lit " ?: error(" ++ Code.str (p.name ++ " == null") ++ Code.lit ")"
    else []
  Code.ident p.name ++ Code.lit " = " ++ built ++ Code.ident p.name ++ check

end BuilderProperty

/-- A builder with this many properties has a constructor that takes too many parameters. -/
def isLongParameterList (count : Nat) : Bool := 7 ≤ count

namespace BuilderModel

/-- What a method that users finish a value with tells whoever takes it over. -/
def buildHookTodo : String := "TODO Move any validation from the source build() method here"

/-- The method that users finish a value with, with its body. -/
def buildFunction? (b : BuilderModel) : Option Function :=
  b.buildMethod.map fun hook =>
    (hook.noting buildHookTodo).doing
      (Code.lit "return " ++ Code.ident b.finalizeMethod.name ++ Code.lit "()")

/-- The method that finishes a value, with its body. -/
def finalizeFunction (b : BuilderModel) (valueClass : ClassName) (arguments : List Code) :
    Function :=
  b.finalizeMethod.doing (Code.lit "return " ++ Code.classed valueClass ++ Code.lit "(" ++
    Code.joined ", " arguments ++ Code.lit ")")

/-- The class for the builder of a value class. -/
def toDeclaration (b : BuilderModel) (valueClass : ClassName) : Except Failure TypeDecl := do
  let properties ← b.properties.mapM fun p => do return (p, ← p.zero?)
  return {
    kind := .classDecl
    name := b.name
    modifiers := [b.visibility]
    annotations := b.annotations ++
      (if isLongParameterList b.properties.length then [suppression "LongParameterList"] else [])
    doc := b.doc
    typeParameters := b.typeParameters
    constructor := some {
      modifiers := [.internalAccess]
      properties := properties.map fun (p, zero) => p.constructorVariable zero }
    properties := b.properties.flatMap (·.fields)
    functions :=
      b.properties.flatMap (·.functions) ++ b.buildFunction?.toList ++
        [b.finalizeFunction valueClass (properties.map fun (p, zero) => p.argument zero)] ++
        (placeholder? b.unrecognized).toList }

end BuilderModel

end DataClassGen
