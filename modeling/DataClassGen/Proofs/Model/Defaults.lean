import DataClassGen.Proofs.Model.Accessors

/-!
# Classes without a declaration

Two loops over the properties look for their defaults, each where it needs them: the constructor of
the data class, unless the builder has the defaults for itself, and the constructor of the builder.
Both go past a type that may be null, and stop at the same types (`TypeName.refusal?`). So a class
fails to have a declaration as the first of its properties does, whichever of the loops comes to it
(`ClassModel.failure?_toDeclaration`).
-/

namespace DataClassGen

open Source

/-! ### Types that are refused -/

namespace Source.TypeName

/-- A property of the type can be nothing but null: the type is `Unit` or `Nothing`, without type
arguments, or `Void`, whatever its type arguments. -/
def HasNoValue (t : TypeName) : Prop :=
  (t.args = [] ∧
    (t.class? = some (.topLevelOf "kotlin" "Unit") ∨
      t.class? = some (.topLevelOf "kotlin" "Nothing"))) ∨
    ∃ cls, t.class? = some cls ∧ cls.canonical = "java.lang.Void"

theorem isBuiltin_iff {name : String} {t : TypeName} :
    t.isBuiltin name = true ↔ t.args = [] ∧ t.class? = some (.builtin name) := by
  rcases t with ⟨cls, _ | _, isNullable⟩ | _ <;> simp [isBuiltin, args, class?]

theorem isValueless_iff {t : TypeName} : t.isValueless = true ↔ t.HasNoValue := by
  rw [isValueless, Bool.or_eq_true, Bool.or_eq_true, isBuiltin_iff, isBuiltin_iff, ← and_or_left,
    Option.any_eq_true]
  simp only [beq_iff_eq]
  rfl

/-- The failure for a property of the type, if the type neither has values nor may be null. -/
def refusal? (t : TypeName) : Option Failure :=
  if !t.isNullable && t.isValueless then some (.illegalDefault t.shown) else none

theorem refusal?_eq_some_iff {t : TypeName} {failure : Failure} : t.refusal? = some failure ↔
    (t.isNullable = false ∧ t.HasNoValue) ∧ failure = .illegalDefault t.shown := by
  rw [refusal?, Option.ite_none_right_eq_some, Bool.and_eq_true, Bool.not_eq_true', isValueless_iff,
    Option.some.injEq, @eq_comm _ failure]

theorem refusal?_eq_none_iff {t : TypeName} :
    t.refusal? = none ↔ ¬(t.isNullable = false ∧ t.HasNoValue) := by
  rw [refusal?, ite_eq_right_iff, Bool.and_eq_true, Bool.not_eq_true', isValueless_iff]
  simp

/-- Where a type that may be null is passed over, looking for a zero value fails for the types that
are refused. -/
theorem failure?_zero_unless_null (t : TypeName) (null : Option Code) :
    failure? (if t.isNullable then .ok null else t.zero?) = t.refusal? := by
  rw [zero?, refusal?]
  cases t.isNullable with
  | true => rfl
  | false => cases t.isValueless <;> rfl

end Source.TypeName

/-! ### Builders -/

namespace BuilderModel

/-- The declaration of a builder fails as the first of its properties that is refused. -/
theorem failure?_toDeclaration (b : BuilderModel) (valueClass : ClassName) :
    failure? (b.toDeclaration valueClass) = b.properties.findSome? fun p => p.type.refusal? := by
  refine (failure?_bind_ok _ _).trans ((failure?_mapM _ _).trans ?_)
  exact congrArg (b.properties.findSome? ·) (funext fun p =>
    (failure?_bind_ok _ _).trans (p.type.failure?_zero_unless_null none))

/-- The properties of a builder are refused as those of the class are. -/
theorem IsFor.findSome?_refusal? {b : BuilderModel} {set : PropertySet} (hb : b.IsFor set) :
    (b.properties.findSome? fun p => p.type.refusal?) =
      set.properties.findSome? fun p => p.type.refusal? := by
  have h := congrArg (List.findSome? fun p : String × TypeName => p.2.refusal?) hb.properties
  rwa [List.findSome?_map, List.findSome?_map] at h

end BuilderModel

/-! ### Value classes -/

namespace ClassModel

/-- Whether the defaults are wanted by the constructor, by the builder or by both, the declaration
of a class fails as the first of the properties that is refused. -/
theorem failure?_toDeclaration {c : ClassModel}
    (hbuilder : ∀ b, c.builder = some b → b.IsFor c.properties) :
    failure? c.toDeclaration = c.properties.properties.findSome? fun p => p.type.refusal? := by
  have hproperty : ∀ p : ValueProperty, failure? (do
      let default ← p.type.constructorDefault? c.builder.isSome c.wantsAdapter
      return p.toConstructorProperty c.redactedClass c.isRedacted default) =
        if c.builder.isSome && !c.wantsAdapter then none else p.type.refusal? := by
    intro p
    refine (failure?_bind_ok _ _).trans ?_
    rw [TypeName.constructorDefault?]
    split
    · rfl
    · exact p.type.failure?_zero_unless_null _
  have hsplit : failure? c.toDeclaration =
      (c.properties.properties.findSome? fun p =>
        if c.builder.isSome && !c.wantsAdapter then none else p.type.refusal?).or
      (c.builder.bind fun b => failure? (b.toDeclaration c.cls)) := by
    refine (failure?_bind _ fun properties =>
      (failure?_bind_ok _ _).trans (failure?_option_mapM _ _)).trans ?_
    rw [failure?_mapM]
    simp only [hproperty]
  rw [hsplit]
  cases hb : c.builder with
  | none => simp
  | some b =>
    have hrefused := (b.failure?_toDeclaration c.cls).trans (hbuilder b hb).findSome?_refusal?
    rw [Option.bind_some, hrefused]
    -- the builder refuses what the constructor would, so it does not matter who comes first
    cases c.wantsAdapter with
    | true => simp
    | false =>
      have hnone : c.properties.properties.findSome? (fun _ => (none : Option Failure)) = none :=
        List.findSome?_eq_none_iff.mpr fun _ _ => rfl
      simp [hnone]

theorem toDeclaration_eq_error_iff {c : ClassModel}
    (hbuilder : ∀ b, c.builder = some b → b.IsFor c.properties) {failure : Failure} :
    c.toDeclaration = .error failure ↔
      ∃ before p after, c.properties.properties = before ++ p :: after ∧
        p.type.isNullable = false ∧ p.type.HasNoValue ∧ failure = .illegalDefault p.type.shown ∧
        ∀ q ∈ before, ¬(q.type.isNullable = false ∧ q.type.HasNoValue) := by
  rw [← failure?_eq_some_iff, failure?_toDeclaration hbuilder, List.findSome?_eq_some_iff]
  simp only [TypeName.refusal?_eq_some_iff, TypeName.refusal?_eq_none_iff, and_assoc]

/-- **A class has a declaration unless a property is refused.** Whether the class has a builder or
not, and whether it asks for a JSON adapter or not, there is no declaration just when the type of a
property neither may be null nor has a value that the property could hold. The failure then shows
the type of the first such property, in the order of their accessors. -/
theorem declaration_fails_iff {e : TypeElement} {enumChildren : List String} {model : ClassModel}
    {log log' : Log} (h : (ofElement? e enumChildren).runOn log = (.ok (some model), log')) :
    model.properties.properties.map (·.accessorName) = e.accessors.map (·.name) ∧
    ((∃ failure, model.toDeclaration = .error failure) ↔
      ∃ p ∈ model.properties.properties, p.type.isNullable = false ∧ p.type.HasNoValue) ∧
    ∀ failure, model.toDeclaration = .error failure ↔
      ∃ before p after, model.properties.properties = before ++ p :: after ∧
        p.type.isNullable = false ∧ p.type.HasNoValue ∧ failure = .illegalDefault p.type.shown ∧
        ∀ q ∈ before, ¬(q.type.isNullable = false ∧ q.type.HasNoValue) := by
  have hbuilder : ∀ b, model.builder = some b → b.IsFor model.properties :=
    (functions_of_ofElement? h).1
  have hname : ∀ m p, ValueProperty.ofAccessor (e.propertyName m) m = .ok p →
      p.accessorName = m.name := fun m p hp => (ValueProperty.ofAccessor_spec hp).2.1
  refine ⟨map_of_forall₂ hname (accessors_of_ofElement? h).1, ⟨?_, ?_⟩,
    fun failure => toDeclaration_eq_error_iff hbuilder⟩
  · rintro ⟨failure, hfailure⟩
    obtain ⟨before, p, after, hproperties, hnull, hp, -⟩ :=
      (toDeclaration_eq_error_iff hbuilder).mp hfailure
    exact ⟨p, hproperties ▸ List.mem_append_right _ List.mem_cons_self, hnull, hp⟩
  · rintro ⟨p, hp, hrefused⟩
    have hsome : failure? model.toDeclaration ≠ none := by
      rw [failure?_toDeclaration hbuilder, ne_eq, List.findSome?_eq_none_iff]
      intro hnone
      exact TypeName.refusal?_eq_none_iff.mp (hnone p hp) hrefused
    obtain ⟨failure, hfailure⟩ := Option.ne_none_iff_exists'.mp hsome
    exact ⟨failure, failure?_eq_some_iff.mp hfailure⟩

/-- A value class with a builder that asks for a JSON adapter. The first of its properties may be
null, and the second one may not; neither has a value otherwise. -/
def sealElement : TypeElement :=
  let voidClass := TypeUse.declared "java.lang.Void" []
  { qualifiedName := "test.Seal"
    package := "test"
    annotations := [
      { typeName := valueClassMarker },
      { typeName := jsonClassAnnotation, members := [("generateAdapter", .bool true)] }]
    methods := [
      { name := "note", modifiers := [.abstract], returnType := voidClass
        annotations := [{ typeName := "javax.annotation.Nullable" }] },
      { name := "proof", modifiers := [.abstract], returnType := voidClass }]
    nestedTypes := [{
      qualifiedName := "test.Seal.Builder"
      package := "test"
      modifiers := [.static]
      annotations := [{ typeName := builderMarker }]
      methods := [
        { name := "build", modifiers := [.abstract], returnType := .declared "test.Seal" [] }] }] }

/-- It has a model and no declaration, because of the second property. -/
theorem seal_has_no_declaration : ∃ model log,
    (ofElement? sealElement []).runOn [] = (.ok (some model), log) ∧
    model.builder.isSome = true ∧ model.wantsAdapter = true ∧
    model.toDeclaration = .error (.illegalDefault "java.lang.Void") := by
  have hrun : ((ofElement? sealElement []).runOn []).1.map (·.map fun model =>
      (model.builder.isSome, model.wantsAdapter, model.properties.types)) =
        .ok (some (true, true,
          [.named ⟨"java.lang", ["Void"]⟩ [] true, .named ⟨"java.lang", ["Void"]⟩ [] false])) := by
    decide +kernel
  rcases hmodel : (ofElement? sealElement []).runOn [] with ⟨failure | model | model, log⟩
  · rw [hmodel] at hrun
    cases hrun
  · rw [hmodel] at hrun
    cases Except.ok.inj hrun
  · rw [hmodel] at hrun
    obtain ⟨hbuilder, hrest⟩ := Prod.mk.inj (Option.some.inj (Except.ok.inj hrun))
    obtain ⟨hadapter, htypes⟩ := Prod.mk.inj hrest
    obtain ⟨note, rest, hproperties, hnote, hrest⟩ := List.map_eq_cons_iff.mp htypes
    obtain ⟨proof, rest', rfl, hproof, hnil⟩ := List.map_eq_cons_iff.mp hrest
    obtain rfl := List.map_eq_nil_iff.mp hnil
    refine ⟨model, log, rfl, hbuilder, hadapter, ?_⟩
    refine ((declaration_fails_iff hmodel).2.2 _).mpr
      ⟨[note], proof, [], hproperties, ?_, ?_, ?_, fun q hq hrefused => ?_⟩
    · rw [hproof]
      rfl
    · rw [hproof]
      exact Or.inr ⟨_, rfl, by decide⟩
    · rw [hproof]
      decide
    · rw [List.mem_singleton.mp hq, hnote] at hrefused
      cases hrefused.1

/-- A value class with a property of a built-in class without values, given a type argument. -/
def tokenElement : TypeElement :=
  { qualifiedName := "test.Token"
    package := "test"
    annotations := [{ typeName := valueClassMarker }]
    methods := [
      { name := "mark", modifiers := [.abstract]
        returnType := .declared "kotlin.Unit" [.declared "java.lang.String" []] }] }

/-- It has a declaration: with type arguments the built-in classes are not refused, although the
class of no values of the virtual machine is. -/
theorem unit_with_arguments_is_declared : ∃ model log,
    (ofElement? tokenElement []).runOn [] = (.ok (some model), log) ∧
    ¬((∃ failure, model.toDeclaration = .error failure) ↔
      ∃ p ∈ model.properties.properties, p.type.isNullable = false ∧
        ∃ cls, p.type.class? = some cls ∧
          cls.canonical ∈ ["kotlin.Unit", "kotlin.Nothing", "java.lang.Void"]) := by
  have htypes : ((ofElement? tokenElement []).runOn []).1.map (·.map fun model =>
      model.properties.types) =
        .ok (some [.named (.builtin "Unit") [.builtin "String"] false]) := by decide +kernel
  obtain ⟨model, d, log, hmodel, hd⟩ := exists_of_hasDeclaration tokenElement (by decide +kernel)
  rw [hmodel] at htypes
  obtain ⟨p, rest, hproperties, hp, -⟩ :=
    List.map_eq_cons_iff.mp (Option.some.inj (Except.ok.inj htypes))
  refine ⟨model, log, hmodel, fun hiff => ?_⟩
  obtain ⟨failure, hfailure⟩ := hiff.mpr
    ⟨p, hproperties ▸ List.mem_cons_self, by rw [hp]; rfl, _, by rw [hp]; rfl, by decide⟩
  rw [hd] at hfailure
  cases hfailure

end ClassModel

end DataClassGen
