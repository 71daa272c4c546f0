import DataClassGen.Proofs.Model.BuilderFunctions

/-!
# Accessors and their properties

A value class has one property for each of its accessors, in the same order; so has its model, and
so has the constructor of the data class. What the property keeps of the accessor is said here once,
for both.
-/

namespace DataClassGen

open Source

/-- What is told place by place along two steps is told along both together. -/
theorem forall₂_trans {α β γ : Type} {R : α → β → Prop} {S : β → γ → Prop} {T : α → γ → Prop}
    (hT : ∀ a b c, R a b → S b c → T a c) {as : List α} {bs : List β} {cs : List γ}
    (hR : as.Forall₂ R bs) (hS : bs.Forall₂ S cs) : as.Forall₂ T cs := by
  induction hR generalizing cs with
  | nil =>
    cases hS
    exact .nil
  | cons hab _ ih =>
    cases hS with
    | cons hbc hrest => exact .cons (hT _ _ _ hab hbc) (ih hrest)

/-- The accessors of a value class. -/
def TypeElement.accessors (e : TypeElement) : List Method :=
  e.methods.filter (Method.isAccessor ((e.nestedTypes.find? (·.isBuilder)).map (·.qualifiedName)))

/-- The accessors all have the prefixes of a bean. -/
def TypeElement.hasBeanAccessors (e : TypeElement) : Bool :=
  e.accessors.all fun m => m.beanName?.isSome

/-- The name of the property of an accessor. -/
def TypeElement.propertyName (e : TypeElement) (m : Method) : String :=
  PropertySet.propertyName e.hasBeanAccessors m

/-- What a property keeps of its accessor. -/
theorem ValueProperty.ofAccessor_spec {name : String} {m : Method} {p : ValueProperty}
    (h : ofAccessor name m = .ok p) :
    p.name = name ∧ p.accessorName = m.name ∧
      p.annotations = (m.annotations.filter fun a => a.marker.isCarried name).map (·.convert) ∧
      p.isOverride = m.annotations.any (·.marker == .override) ∧
      p.isRedacted = (redactedClassOf m.annotations).isSome := by
  obtain ⟨type, -, h⟩ := bind_ok_iff.mp h
  obtain rfl := Except.ok.inj h
  exact ⟨rfl, rfl, rfl, rfl, rfl⟩

theorem ValueProperty.type_of_ofAccessor {name : String} {m : Method} {p : ValueProperty}
    (h : ofAccessor name m = .ok p) : ∃ type, m.returnType.convert = .ok type ∧
      p.type = type.withNull (isMarkedNullable m.annotations) := by
  obtain ⟨type, htype, h⟩ := bind_ok_iff.mp h
  exact ⟨type, htype, by rw [← Except.ok.inj h]⟩

@[simp] theorem Source.TypeName.isNullable_withNull (isNullable : Bool) (t : TypeName) :
    (t.withNull isNullable).isNullable = isNullable := by
  cases t <;> rfl

namespace ClassModel

/-- What the model of a value class keeps of its accessors and annotations. -/
theorem accessors_of_ofElement? {e : TypeElement} {enumChildren : List String} {model : ClassModel}
    {log log' : Log} (h : (ofElement? e enumChildren).runOn log = (.ok (some model), log')) :
    e.accessors.Forall₂ (fun m p => ValueProperty.ofAccessor (e.propertyName m) m = .ok p)
      model.properties.properties ∧
    model.annotations = classAnnotations e.annotations ∧
    model.isRedacted = isClassRedacted (redactedClassOf e.annotations).isSome
      (model.properties.properties.map (·.isRedacted)) ∧
    model.redactedClass = (redactedClassOf e.annotations).or
      (e.accessors.findSome? fun m => redactedClassOf m.annotations) := by
  obtain ⟨c, rfl, -, hname, hproperties, -, hmodel⟩ := context_of_ofElement? h
  obtain ⟨roles, changing, made⟩ := isMadeFrom_of_ofContext hmodel
  rw [made.properties, made.redactedClass]
  rw [hname] at hproperties
  obtain ⟨properties, haccessors, hset⟩ := bind_ok_iff.mp hproperties
  have hset := Except.ok.inj hset
  have hclass : c.properties.redactedClass = c.element.accessors.findSome? fun m =>
      redactedClassOf m.annotations := by rw [← hset]; rfl
  have hall : c.properties.properties = properties := by rw [← hset]
  refine ⟨?_, made.annotations, made.isRedacted, congrArg (Option.or _) hclass⟩
  exact hall ▸ forall₂_of_mapM haccessors

/-- The properties of a class are those of its accessors. -/
theorem properties_of_ofElement? {e : TypeElement} {enumChildren : List String}
    {model : ClassModel} {log log' : Log}
    (h : (ofElement? e enumChildren).runOn log = (.ok (some model), log')) :
    PropertySet.ofElement ((e.nestedTypes.find? (·.isBuilder)).map (·.qualifiedName)) e =
      .ok model.properties := by
  obtain ⟨c, rfl, -, hname, hproperties, hbuilder, hmodel⟩ := context_of_ofElement? h
  obtain ⟨fits, -⟩ := exists_entries_of_ofContext hproperties
    (fun b cls hb => (builder_of_context hbuilder hb).1) hmodel
  rw [← hname, fits.properties, hproperties]

/-- The constructor of the data class declares the properties in order, and the data class has the
functions of their accessors. -/
theorem constructor_of_toDeclaration {c : ClassModel} {d : TypeDecl} (h : c.toDeclaration = .ok d) :
    d.annotations = c.declaredAnnotations ∧
    (∀ f ∈ c.properties.properties.filterMap (·.accessorFunction?), f ∈ d.functions) ∧
    ∃ constructor, d.constructor = some constructor ∧
      c.properties.properties.Forall₂ (fun p q => ∃ default,
        q = p.toConstructorProperty c.redactedClass c.isRedacted default)
        constructor.properties := by
  obtain ⟨properties, hproperties, h⟩ := bind_ok_iff.mp h
  obtain ⟨builder, -, h⟩ := bind_ok_iff.mp h
  obtain rfl := Except.ok.inj h
  refine ⟨rfl, fun f hf => ?_, _, rfl, (forall₂_of_mapM hproperties).imp fun p q hq => ?_⟩
  · simp only [List.append_assoc]
    exact List.mem_append_left _ hf
  · obtain ⟨default, -, hq⟩ := bind_ok_iff.mp hq
    exact ⟨default, (Except.ok.inj hq).symm⟩

/-- The class has a model, and the model a declaration. -/
def hasDeclaration (e : TypeElement) : Bool :=
  match ((ofElement? e []).runOn []).1 with
  | .ok (some model) => model.toDeclaration.toBool
  | _ => false

theorem exists_of_hasDeclaration (e : TypeElement) (h : hasDeclaration e = true) :
    ∃ model d log, (ofElement? e []).runOn [] = (.ok (some model), log) ∧
      model.toDeclaration = .ok d := by
  rw [hasDeclaration] at h
  rcases hrun : (ofElement? e []).runOn [] with ⟨failure | model | model, log⟩
  · rw [hrun] at h
    cases h
  · rw [hrun] at h
    cases h
  · rw [hrun] at h
    have hbool : model.toDeclaration.toBool = true := h
    cases hd : model.toDeclaration with
    | error failure =>
      rw [hd] at hbool
      cases hbool
    | ok d => exact ⟨model, d, log, rfl, hd⟩

end ClassModel

end DataClassGen
