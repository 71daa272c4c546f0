import DataClassGen.Proofs.Failing
import DataClassGen.Proofs.Run.Steps

/-!
# What the models are made from

A model is put together in steps, each of which can fail or report. What it has when all of them
succeed is said once here, for a builder (`BuilderModel.IsMadeFrom`) and for a class
(`ClassModel.IsMadeFrom`): parts that come from the type, parts that come from what is known of it,
and parts that its methods became, as far as the steps before have sorted them. What a class is
known by when its model is made is told by `ClassModel.context_of_ofElement?`.
-/

namespace DataClassGen

open Source

/-! ### Builders -/

namespace BuilderModel

variable {builder value : TypeElement} {set : PropertySet} {b : BuilderModel} {log log' : Log}

/-- The parts of the builder come from the type, from the properties of the class and from what the
methods of the type became. -/
structure IsMadeFrom (b : BuilderModel) (builder : TypeElement) (set : PropertySet)
    (parts : BuilderParts) : Prop where
  name : b.name = builder.simpleName
  visibility : b.visibility = publicOrInternal builder.modifiers
  doc : b.doc = Doc.clean? builder.doc
  annotations : b.annotations = classAnnotations builder.annotations
  typeParameters : builder.typeParameters.mapM TypeParameter.convert = .ok b.typeParameters
  properties : b.properties = (set.properties.zip (parts.setters.zip parts.subBuilders)).map
    fun (p, setters, subBuilder) => { name := p.name, type := p.type, setters, subBuilder }
  buildMethod : b.buildMethod = parts.buildMethod
  finalizeMethod : parts.finalizeMethod = some b.finalizeMethod
  unrecognized : b.unrecognized = parts.unrecognized

/-- A builder with a model is made from what its methods were sorted into. -/
theorem isMadeFrom_of_ofElement?
    (h : (ofElement? builder value set).runOn log = (.ok (some b), log')) :
    ∃ parts log₁, (builder.methods.foldlM
        (BuilderParts.add builder.qualifiedName value.qualifiedName set)
        (BuilderParts.empty set.properties.length)).runOn log = (.ok parts, log₁) ∧
      b.IsMadeFrom builder set parts := by
  rw [ofElement?] at h
  obtain ⟨parts, log₁, hparts, h⟩ := Reporting.runOn_bind_ok h
  split at h
  · obtain ⟨_, _, -, h⟩ := Reporting.runOn_bind_ok h
    cases h
  · next finalizeMethod hfinalize =>
    obtain ⟨typeParameters, log₂, htypeParameters, h⟩ := Reporting.runOn_bind_ok h
    obtain rfl := Option.some.inj (Except.ok.inj (Prod.mk.inj h).1)
    exact ⟨parts, log₁, hparts, {
      name := rfl
      visibility := rfl
      doc := rfl
      annotations := rfl
      typeParameters := (Prod.mk.inj htypeParameters).1
      properties := rfl
      buildMethod := rfl
      finalizeMethod := hfinalize
      unrecognized := rfl }⟩

end BuilderModel

/-! ### Classes -/

/-- The methods that have no role by their own signature. -/
def ClassContext.leftOver (methods : List Method) (roles : List MethodRole) : List Method :=
  ((methods.zip roles).filter (·.2 == .other)).map (·.1)

namespace ClassModel

variable {c : ClassContext} {e : TypeElement} {enumChildren : List String} {model : ClassModel}
  {log log' : Log}

/-- The parts of the model come from the class, from what is known of it, and from what its methods
became: by their own signatures, and those without a role of their own by changing a property. -/
structure IsMadeFrom (model : ClassModel) (c : ClassContext) (enumChildren : List String)
    (roles : List MethodRole) (changing : List (Option Function)) : Prop where
  roleOf : c.element.methods.mapM c.roleOf = .ok roles
  wither : (ClassContext.leftOver c.element.methods roles).mapM
    (c.wither? (model.toBuilders.find? (·.parameters.isEmpty))) = .ok changing
  cls : model.cls = c.cls
  doc : model.doc = Doc.clean? c.element.doc
  visibility : model.visibility = visibilityOf c.element.modifiers
  isRedacted : model.isRedacted = isClassRedacted (redactedClassOf c.element.annotations).isSome
    (c.properties.properties.map (·.isRedacted))
  redactedClass : model.redactedClass =
    (redactedClassOf c.element.annotations).or c.properties.redactedClass
  isParcelable : model.isParcelable = c.element.interfaces.any (·.isDeclared parcelableInterface)
  wantsAdapter : model.wantsAdapter = DataClassGen.wantsAdapter c.element.annotations
  superclass : (c.element.superclass.mapM TypeUse.convert).map
    (·.filter (!·.isBuiltin "Any")) = .ok model.superclass
  interfaces : c.element.interfaces.mapM TypeUse.convert = .ok model.interfaces
  typeParameters : c.element.typeParameters.mapM TypeParameter.convert = .ok model.typeParameters
  annotations : model.annotations = classAnnotations c.element.annotations
  properties : model.properties = c.properties
  builder : model.builder = c.builder.map (·.1)
  toBuilders : model.toBuilders = roles.filterMap MethodRole.toBuilder?
  builderFactories : model.builderFactories = roles.filterMap MethodRole.builderFactory?
  creators : model.creators = roles.filterMap MethodRole.creator?
  withers : model.withers = changing.filterMap id
  constants : (c.element.fields.filter fun f =>
    f.kind == .field && f.modifiers.contains .static).mapM constantOf = .ok model.constants
  unrecognized : model.unrecognized =
    (((ClassContext.leftOver c.element.methods roles).zip changing).filter
      (·.2.isNone)).map (·.1.signature)
  isTopLevel : model.isTopLevel = c.element.isTopLevel
  parent : model.parent = c.element.enclosing.map (·.qualifiedName)
  children : model.children =
    (c.element.nestedTypes.filter (·.isValueClass)).map (·.qualifiedName) ++ enumChildren

/-- A model is made from the roles of the methods and from what the methods without one became. -/
theorem isMadeFrom_of_ofContext (h : ofContext c enumChildren = .ok model) :
    ∃ roles changing, model.IsMadeFrom c enumChildren roles changing := by
  rw [ofContext] at h
  obtain ⟨roles, hroles, h⟩ := bind_ok_iff.mp h
  obtain ⟨changing, hchanging, h⟩ := bind_ok_iff.mp h
  obtain ⟨constants, hconstants, h⟩ := bind_ok_iff.mp h
  obtain ⟨superclass, hsuperclass, h⟩ := bind_ok_iff.mp h
  obtain ⟨interfaces, hinterfaces, h⟩ := bind_ok_iff.mp h
  obtain ⟨typeParameters, htypeParameters, h⟩ := bind_ok_iff.mp h
  obtain rfl := Except.ok.inj h
  exact ⟨roles, changing, {
    roleOf := hroles
    wither := hchanging
    cls := rfl
    doc := rfl
    visibility := rfl
    isRedacted := rfl
    redactedClass := rfl
    isParcelable := rfl
    wantsAdapter := rfl
    superclass := by rw [hsuperclass]; rfl
    interfaces := hinterfaces
    typeParameters := htypeParameters
    annotations := rfl
    properties := rfl
    builder := rfl
    toBuilders := rfl
    builderFactories := rfl
    creators := rfl
    withers := rfl
    constants := hconstants
    unrecognized := rfl
    isTopLevel := rfl
    parent := rfl
    children := rfl }⟩

/-- The model of a class comes from its properties, its builder and its own type. -/
theorem context_of_ofElement?
    (h : (ofElement? e enumChildren).runOn log = (.ok (some model), log')) :
    ∃ c : ClassContext, c.element = e ∧ c.cls = .inPackage e.package e.qualifiedName ∧
      c.builderName = (e.nestedTypes.find? (·.isBuilder)).map (·.qualifiedName) ∧
      PropertySet.ofElement c.builderName e = .ok c.properties ∧
      (match e.nestedTypes.find? (·.isBuilder) with
        | none => c.builder = none
        | some builder => ∃ b log₁ log₂,
          (BuilderModel.ofElement? builder e c.properties).runOn log₁ = (.ok (some b), log₂) ∧
            c.builder = some (b, c.cls.nested b.name)) ∧
      ofContext c enumChildren = .ok model := by
  rw [ofElement?] at h
  obtain ⟨properties, log₁, hproperties, h⟩ := Reporting.runOn_bind_ok h
  obtain ⟨selfType, log₂, -, h⟩ := Reporting.runOn_bind_ok h
  have hproperties := (Prod.mk.inj hproperties).1
  generalize e.nestedTypes.find? (·.isBuilder) = found at h hproperties
  -- what is known of the class with one builder or another
  let context (builder : Option (BuilderModel × ClassName)) : ClassContext := {
    element := e
    cls := .inPackage e.package e.qualifiedName
    builderName := found.map (·.qualifiedName)
    builder, properties, selfType }
  have of_modelWith : ∀ {builder log log'},
      (do return some (← Reporting.ofExcept (ofContext (context builder) enumChildren)) :
        Reporting (Option ClassModel)).runOn log = (.ok (some model), log') →
      ofContext (context builder) enumChildren = .ok model := by
    intro builder log log' h
    obtain ⟨found, log₁, hfound, h⟩ := Reporting.runOn_bind_ok h
    obtain rfl : found = model := Option.some.inj (Except.ok.inj (Prod.mk.inj h).1)
    exact (Prod.mk.inj hfound).1
  cases found with
  | none => exact ⟨context none, rfl, rfl, rfl, hproperties, rfl, of_modelWith h⟩
  | some builder =>
    obtain ⟨b?, log₃, hb, h⟩ := Reporting.runOn_bind_ok h
    cases b? with
    | none => cases h
    | some b =>
      exact ⟨context (some (b, _)), rfl, rfl, rfl, hproperties, ⟨b, _, _, hb, rfl⟩,
        of_modelWith h⟩

/-- The model of a class has the class's name, the type around it and the types in it. -/
theorem of_ofElement? (h : (ofElement? e enumChildren).runOn log = (.ok (some model), log')) :
    model.cls = .inPackage e.package e.qualifiedName ∧
      model.parent = e.enclosing.map (·.qualifiedName) ∧
      model.children =
        (e.nestedTypes.filter (·.isValueClass)).map (·.qualifiedName) ++ enumChildren := by
  obtain ⟨c, rfl, hcls, -, -, -, hmodel⟩ := context_of_ofElement? h
  obtain ⟨roles, changing, made⟩ := isMadeFrom_of_ofContext hmodel
  exact ⟨made.cls.trans hcls, made.parent, made.children⟩

end ClassModel

end DataClassGen
