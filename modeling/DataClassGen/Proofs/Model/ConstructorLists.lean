import DataClassGen.Proofs.Meaning.Bodies
import DataClassGen.Proofs.Model.GetterNames
import DataClassGen.Proofs.Model.Overloads
import DataClassGen.Proofs.Source.LetterCase

/-!
# Lists that line up

The accessors of a value class are told of in several lists: the properties in the constructor of
the data class, the variables in the constructor of its builder, and the parameters and arguments of
the operators that take all the properties. Each list is made by itself, from the properties of the
model; place by place they are of the same accessors (`constructor_lists_line_up`).

How a property is named depends on all accessors. They give up the prefixes of beans together, or
none of them does; and what is left of a name is not empty, as it begins with a capital.
-/

namespace DataClassGen

open Source

/-! ### Names of properties -/

/-- What is left of a name without the prefix of a bean is not empty. -/
theorem Method.ne_empty_of_beanName? {m : Method} {rest : String} (h : m.beanName? = some rest) :
    rest ≠ "" := by
  have hcapital {start : String} (hafter : m.capitalizedAfter? start = some rest) : rest ≠ "" := by
    rintro rfl
    exact absurd (Option.filter_eq_some_iff.mp hafter).2 (by decide)
  rw [beanName?] at h
  split at h
  · next hget => exact hcapital (hget.trans h)
  · split at h
    · exact hcapital h
    · cases h

/-- The property is named by what is left of the accessor's name without the prefix of a bean. -/
def Method.IsNamedAsBean (m : Method) (name : String) : Prop :=
  ∃ rest, (m.name = "get" ++ rest ∨ m.name = "is" ++ rest) ∧ rest ≠ "" ∧
    name = decapitalize rest ∧ name ≠ ""

/-- All properties have the names of their accessors, or all are named without the prefixes. -/
theorem TypeElement.propertyName_cases (e : TypeElement) :
    (∀ m ∈ e.accessors, e.propertyName m = m.name) ∨
      ∀ m ∈ e.accessors, m.IsNamedAsBean (e.propertyName m) := by
  by_cases hbeans : e.hasBeanAccessors = true
  · right
    intro m hm
    obtain ⟨rest, hrest⟩ := Option.isSome_iff_exists.mp (List.all_eq_true.mp hbeans m hm)
    have hname : e.propertyName m = decapitalize rest := by
      rw [propertyName, PropertySet.propertyName, hrest]
      exact if_pos hbeans
    have hne := Method.ne_empty_of_beanName? hrest
    exact ⟨rest, Method.name_of_beanName? hrest, hne, hname, hname ▸ decapitalize_ne_empty hne⟩
  · left
    intro m _
    rw [propertyName, PropertySet.propertyName]
    cases m.beanName? with
    | none => rfl
    | some rest => exact if_neg hbeans

/-! ### Places of the lists -/

/-- The property of the constructor is of the accessor: it has the name of the accessor's property
and the type that the accessor returns, as its annotations say whether that may be null. -/
def TypeElement.IsDeclaredBy (e : TypeElement) (m : Method) (q : ConstructorProperty) : Prop :=
  q.property.name = e.propertyName m ∧ ∃ type, m.returnType.convert = .ok type ∧
    q.property.type = type.withNull (isMarkedNullable m.annotations)

/-- The names and types of properties that are of accessors, by what the accessors return. -/
theorem TypeElement.columns_of_isDeclaredBy {e : TypeElement} {accessors : List Method}
    {properties : List ConstructorProperty} (h : accessors.Forall₂ e.IsDeclaredBy properties) :
    (properties.map fun q => (q.property.name, q.property.type)).map Except.ok =
      accessors.map fun m => m.returnType.convert.map fun type =>
        (e.propertyName m, type.withNull (isMarkedNullable m.annotations)) := by
  rw [List.map_map]
  refine map_of_forall₂ (fun m q hq => ?_) h
  obtain ⟨hname, type, htype, hmarked⟩ := hq
  rw [htype, Function.comp_apply, hname, hmarked]
  rfl

/-- The function only gives back a new object of the class, with each of its parameters in order as
the argument for the property of the name in the same place. -/
def Source.Function.PassesOn (f : Function) (cls : ClassName) (names : List String) : Prop :=
  f.parameters.length = names.length ∧ ∃ code, f.body = [.code code] ∧
    Meaning.Step.ofCode? code = some (.giveBack (.value (.make (.ofClass cls)
      ((names.zip f.parameters).map fun (name, parameter) =>
        .mk (some name) (Meaning.named parameter.name))) []))

theorem Meaning.ofCode?_construction (cls : ClassName) (pairs : List (ValueProperty × Parameter)) :
    Step.ofCode? (Code.lit "return " ++ Code.classed cls ++ Code.lit "(" ++
      Code.joined ", " (pairs.map fun p =>
        Code.ident p.1.name ++ Code.lit " = " ++ Code.ident p.2.name) ++ Code.lit ")") =
        some (.giveBack (.value (.make (.ofClass cls)
          (pairs.map fun p => .mk (some p.1.name) (named p.2.name))) [])) := by
  refine Step.ofCode?_eq ?_
  have hargument : ∀ p ∈ pairs,
      codeTokens (Code.ident p.1.name ++ Code.lit " = " ++ Code.ident p.2.name) =
        (Argument.mk (some p.1.name) (named p.2.name)).tokens := fun p _ => by
    simp [Argument.tokens, Expr.tokens, Head.tokens, Suffix.tokensAll, named]
  simp [Step.tokens, Expr.tokens, Head.tokens, Suffix.tokensAll,
    ← codeTokens_joined pairs hargument]

theorem Method.length_parameters_of_toFunction {m : Method} {f : Function}
    (h : m.toFunction = .ok f) : f.parameters.length = m.parameters.length := by
  obtain ⟨-, -, parameters, hparameters, hf⟩ := signature_of_toFunction h
  rw [hf, (forall₂_of_mapM hparameters).length_eq]
  split
  · exact length_lastVararg parameters
  · rfl

/-- An operator that takes all the properties passes them on, and its method takes as many. -/
theorem Creator.passesOn_of_ofMethod {cls : ClassName} {set : PropertySet} {m : Method}
    {bridge invoke : Function} (h : ofMethod cls set m = .ok (.full bridge invoke)) :
    m.parameters.length = set.properties.length ∧
      invoke.PassesOn cls (set.properties.map (·.name)) := by
  obtain ⟨g, hg, -, -, hparameters, -, htypes⟩ := hasSignature_of_ofMethod h
  have hlength : g.parameters.length = set.properties.length := by
    have := congrArg List.length htypes
    rwa [PropertySet.types, List.length_map, List.length_map] at this
  refine ⟨Method.length_parameters_of_toFunction hg ▸ hlength, ?_⟩
  rw [ofMethod] at h
  obtain ⟨plain, -, h⟩ := bind_ok_iff.mp h
  simp only at h
  generalize (if isLongCreator plain.parameters.length then
    plain.annotated (suppression "LongParameterList") else plain) = f at h
  split at h
  · obtain ⟨-, rfl⟩ := Creator.full.inj (Except.ok.inj h)
    -- the modifier may be one that the function has
    generalize hoperator : ((f.renamed "invoke").annotated (jvmName f.name)).withModifier .operator =
      operator at hparameters
    obtain ⟨hbody, hsame⟩ : operator.body = [] ∧ operator.parameters = f.parameters := by
      rw [← hoperator, Function.withModifier]
      split <;> exact ⟨rfl, rfl⟩
    refine ⟨by rw [hparameters, hlength, List.length_map], _,
      by rw [Function.doing, hbody, List.nil_append], ?_⟩
    have hcolumns : ((set.properties.map (·.name)).zip operator.parameters).map
        (fun (name, parameter) =>
          Meaning.Argument.mk (some name) (Meaning.named parameter.name)) =
        (set.properties.zip f.parameters).map fun p =>
          .mk (some p.1.name) (Meaning.named p.2.name) := by
      rw [hsame, List.zip_map_left, List.map_map]
      rfl
    have hread := Meaning.ofCode?_construction cls (set.properties.zip f.parameters)
    rw [← hcolumns] at hread
    exact hread
  · cases h

namespace ClassModel

variable {e : TypeElement} {enumChildren : List String} {model : ClassModel} {log log' : Log}
  {d : TypeDecl}

/-- The functions that give a value are functions of the companion object. -/
theorem exists_companion_of_mem_creators (hd : model.toDeclaration = .ok d) {k : Creator}
    (hk : k ∈ model.creators) : ∃ companion ∈ d.types,
      companion.kind = .companion ∧ ∀ f ∈ k.functions, f ∈ companion.functions := by
  have hfunctions : ∀ f ∈ k.functions,
      f ∈ model.creators.flatMap (·.functions) ++ model.builderFactories := fun f hf =>
    List.mem_append_left _ (List.mem_flatMap.mpr ⟨k, hk, hf⟩)
  obtain ⟨companion, hcompanion, hkind, hall⟩ : ∃ companion, model.companion? = some companion ∧
      companion.kind = .companion ∧ ∀ f ∈ k.functions, f ∈ companion.functions := by
    rw [companion?]
    split
    · exact ⟨_, rfl, rfl, hfunctions⟩
    · next hnone =>
      -- a function of the creator is a member
      refine absurd ?_ hnone
      obtain ⟨f, hf⟩ : ∃ f, f ∈ k.functions := by cases k <;> exact ⟨_, List.mem_cons_self⟩
      simp only [TypeDecl.hasMembers, List.isEmpty_eq_false_iff_exists_mem.mpr ⟨f, hfunctions f hf⟩,
        Bool.not_false, Bool.or_true, Bool.true_or]
  obtain ⟨builders, -, htypes⟩ := types_of_toDeclaration hd
  rw [htypes]
  exact ⟨companion, List.mem_append_right _ (Option.mem_toList.mpr hcompanion), hkind, hall⟩

/-- What gives a value is made from a method of the element. -/
theorem exists_method_of_mem_creators
    (h : (ofElement? e enumChildren).runOn log = (.ok (some model), log')) {k : Creator}
    (hk : k ∈ model.creators) :
    ∃ m ∈ e.methods, Creator.ofMethod model.cls model.properties m = .ok k := by
  obtain ⟨members, hmembers⟩ := exists_members h
  rw [hmembers.holds.creators, filterMap_column] at hk
  obtain ⟨⟨m, entry⟩, hmember, hk⟩ := List.mem_filterMap.mp hk
  have hfor := hmembers.entries _ hmember
  refine ⟨m, hmembers.methods ▸ List.mem_map_of_mem hmember, ?_⟩
  cases entry with
  | creator made =>
    obtain rfl := Option.some.inj hk
    exact hfor
  | _ => cases hk

/-- The accessors of a value class and the lists that are made of them: the constructor of the data
class has a property of each accessor, the builder's a private variable of the same name, and an
operator that takes all the properties passes a parameter on to each; all in the order of the
accessors. -/
theorem constructor_lists_line_up
    (h : (ofElement? e enumChildren).runOn log = (.ok (some model), log'))
    (hd : model.toDeclaration = .ok d) :
    (∃ constructor, d.constructor = some constructor ∧
      e.accessors.Forall₂ e.IsDeclaredBy constructor.properties) ∧
    ((∀ m ∈ e.accessors, e.propertyName m = m.name) ∨
      ∀ m ∈ e.accessors, m.IsNamedAsBean (e.propertyName m)) ∧
    (∀ b, model.builder = some b → ∃ decl ∈ d.types, b.toDeclaration model.cls = .ok decl ∧
      ∃ constructor, decl.constructor = some constructor ∧
        constructor.properties.map (·.property.name) = e.accessors.map e.propertyName ∧
        ∀ q ∈ constructor.properties,
          q.property.isMutable = true ∧ q.property.modifiers = [.privateAccess]) ∧
    ∀ bridge invoke, .full bridge invoke ∈ model.creators →
      (∃ m ∈ e.methods, Creator.ofMethod model.cls model.properties m = .ok (.full bridge invoke) ∧
        m.parameters.length = e.accessors.length) ∧
      (∃ companion ∈ d.types, companion.kind = .companion ∧ invoke ∈ companion.functions) ∧
      invoke.PassesOn model.cls (e.accessors.map e.propertyName) := by
  obtain ⟨haccessors, -⟩ := accessors_of_ofElement? h
  have hname : ∀ m p, ValueProperty.ofAccessor (e.propertyName m) m = .ok p →
      p.name = e.propertyName m := fun m p hp => (ValueProperty.ofAccessor_spec hp).1
  have hnames : model.properties.properties.map (·.name) = e.accessors.map e.propertyName :=
    map_of_forall₂ hname haccessors
  refine ⟨?_, e.propertyName_cases, fun b hb => ?_, fun bridge invoke hfull => ?_⟩
  · obtain ⟨-, -, constructor, hconstructor, hproperties⟩ := constructor_of_toDeclaration hd
    refine ⟨constructor, hconstructor, forall₂_trans (fun m p q hp hq => ?_) haccessors hproperties⟩
    obtain ⟨default, rfl⟩ := hq
    exact ⟨hname m p hp, ValueProperty.type_of_ofAccessor hp⟩
  · obtain ⟨-, -, -, hbuilders, -⟩ := toDeclaration_spec hd
    obtain ⟨decl, hdecl, hbuilder⟩ := hbuilders b hb
    obtain ⟨zeros, hzeros, -, -, ⟨modifiers, hconstructor⟩, -⟩ :=
      BuilderModel.toDeclaration_spec hbuilder
    refine ⟨decl, hdecl, hbuilder, _, hconstructor, ?_, ?_⟩
    · rw [← hnames, ← ((functions_of_ofElement? h).1 b hb).names, ← hzeros, List.map_map,
        List.map_map]
      rfl
    · intro q hq
      obtain ⟨zero, -, rfl⟩ := List.mem_map.mp hq
      exact ⟨rfl, rfl⟩
  · obtain ⟨m, hm, hmethod⟩ := exists_method_of_mem_creators h hfull
    obtain ⟨hcount, hpasses⟩ := Creator.passesOn_of_ofMethod hmethod
    obtain ⟨companion, hcompanion, hkind, hfunctions⟩ := exists_companion_of_mem_creators hd hfull
    refine ⟨⟨m, hm, hmethod, hcount.trans haccessors.length_eq.symm⟩,
      ⟨companion, hcompanion, hkind, hfunctions invoke (by simp [Creator.functions])⟩, ?_⟩
    rwa [hnames] at hpasses

/-- A value class with accessors that have the prefixes of beans, the first of which may give null, a
builder, and a static method that takes all the properties. -/
def spanElement : TypeElement :=
  let span := TypeUse.declared "test.Span" []
  let builder := TypeUse.declared "test.Span.Builder" []
  let text := TypeUse.declared "java.lang.String" []
  let nullable : AnnotationUse := { typeName := "javax.annotation.Nullable" }
  { qualifiedName := "test.Span"
    package := "test"
    annotations := [{ typeName := valueClassMarker }]
    methods := [
      { name := "getStart", modifiers := [.abstract], returnType := text
        annotations := [nullable] },
      { name := "of", modifiers := [.static], returnType := span
        parameters := [{ name := "first", type := text, annotations := [nullable] },
          { name := "second", type := .primitive .boolean }] },
      { name := "isOpen", modifiers := [.abstract], returnType := .primitive .boolean }]
    nestedTypes := [{
      qualifiedName := "test.Span.Builder"
      package := "test"
      modifiers := [.static]
      annotations := [{ typeName := builderMarker }]
      methods := [
        { name := "setStart", modifiers := [.abstract], returnType := builder
          parameters := [{ name := "start", type := text }] },
        { name := "build", modifiers := [.abstract], returnType := span }] }] }

/-- Its lists are of the same two properties, of which the first may be null. -/
theorem span_lists_line_up : ∃ model d log constructor b decl inner bridge invoke,
    (ofElement? spanElement []).runOn [] = (.ok (some model), log) ∧
    model.toDeclaration = .ok d ∧ d.constructor = some constructor ∧
    constructor.properties.map (fun q => (q.property.name, q.property.type)) =
      [("start", (TypeName.builtin "String").withNull true), ("open", .builtin "Boolean")] ∧
    model.builder = some b ∧ decl ∈ d.types ∧ decl.constructor = some inner ∧
    inner.properties.map (·.property.name) = ["start", "open"] ∧
    .full bridge invoke ∈ model.creators ∧ invoke.PassesOn model.cls ["start", "open"] := by
  obtain ⟨model, d, log, hmodel, hd⟩ := exists_of_hasDeclaration spanElement (by decide +kernel)
  have hrun : ((ofElement? spanElement []).runOn []).1.map (·.map fun model =>
      (model.builder.isSome, model.creators.map (·.isFull))) = .ok (some (true, [true])) := by
    decide +kernel
  rw [hmodel] at hrun
  obtain ⟨hbuilder, hcreators⟩ := Prod.mk.inj (Option.some.inj (Except.ok.inj hrun))
  obtain ⟨b, hb⟩ := Option.isSome_iff_exists.mp hbuilder
  obtain ⟨bridge, invoke, hfull⟩ : ∃ bridge invoke, .full bridge invoke ∈ model.creators := by
    have htrue : true ∈ model.creators.map (·.isFull) := by simp [hcreators]
    obtain ⟨k, hk, hisFull⟩ := List.mem_map.mp htrue
    cases k with
    | full bridge invoke => exact ⟨bridge, invoke, hk⟩
    | partly f => cases hisFull
  have hnames : spanElement.accessors.map spanElement.propertyName = ["start", "open"] := by
    decide +kernel
  obtain ⟨⟨constructor, hconstructor, hproperties⟩, -, hbuilders, hcreators⟩ :=
    constructor_lists_line_up hmodel hd
  obtain ⟨decl, hdecl, -, inner, hdeclared, hvariables, -⟩ := hbuilders b hb
  have hcolumns : (spanElement.accessors.map fun m => m.returnType.convert.map fun type =>
      (spanElement.propertyName m, type.withNull (isMarkedNullable m.annotations))) =
      [("start", (TypeName.builtin "String").withNull true),
        ("open", .builtin "Boolean")].map Except.ok := by
    decide +kernel
  have htypes := (List.map_inj_right fun _ _ => Except.ok.inj).mp
    ((TypeElement.columns_of_isDeclaredBy hproperties).trans hcolumns)
  exact ⟨model, d, log, constructor, b, decl, inner, bridge, invoke, hmodel, hd, hconstructor, htypes,
    hb, hdecl, hdeclared, hvariables.trans hnames, hfull, hnames ▸ (hcreators bridge invoke hfull).2.2⟩

end ClassModel

end DataClassGen
