import DataClassGen.Proofs.Convert.Arrays
import DataClassGen.Proofs.Model.Overloads

/-!
# Static methods that give a value

A static method that gives a value of the class takes all the properties if the parameters of its
function are of their types, in order (`Creator.isFull_iff`). These are the types of the parameters
of the method, but for one that stands for any number of arguments: that is of the type of its
components in the function, and an array in the method. So a method with such a parameter is taken
for one that takes all the properties if the last of them is of the type of a component, which it is
not given, and never if the last of them is an array, which it is given (`creators_are_full_iff`).
-/

namespace DataClassGen

open Source

/-- What is found among the things in the places of others is what those others have that something
is found for. -/
theorem forall₂_filter_filterMap {α β γ : Type} {p : α → Bool} {f : β → Option γ}
    {R : α → γ → Prop} {as : List α} {bs : List β}
    (h : as.Forall₂ (fun a b => (f b).isSome = p a ∧ ∀ c, f b = some c → R a c) bs) :
    (as.filter p).Forall₂ R (bs.filterMap f) := by
  induction h with
  | nil => exact .nil
  | @cons a b as bs hab _ ih =>
    obtain ⟨hsome, hR⟩ := hab
    cases hb : f b with
    | none =>
      rw [hb] at hsome
      rwa [List.filter_cons_of_neg (by simp [← hsome]), List.filterMap_cons_none hb]
    | some c =>
      rw [hb] at hsome
      rw [List.filter_cons_of_pos hsome.symm, List.filterMap_cons_some hb]
      exact .cons (hR c hb) ih

/-! ### Which methods give a value -/

/-- The method is static and gives a value of the class, and not its builder. -/
def Method.createsValue (valueName : String) (builderName : Option String) (m : Method) : Bool :=
  m.isStatic && m.returnType.isDeclared valueName && !m.returnsDeclared builderName

/-- The static methods of a value class that give a value. -/
def TypeElement.creating (e : TypeElement) : List Method :=
  e.methods.filter (Method.createsValue e.qualifiedName
    ((e.nestedTypes.find? (·.isBuilder)).map (·.qualifiedName)))

/-- A method that returns the class returns no builder of another name. -/
theorem TypeElement.creating_eq {e : TypeElement}
    (h : (e.nestedTypes.find? (·.isBuilder)).map (·.qualifiedName) ≠ some e.qualifiedName) :
    e.creating =
      e.methods.filter fun m => m.isStatic && m.returnType.isDeclared e.qualifiedName := by
  refine List.filter_congr fun m _ => ?_
  generalize (e.nestedTypes.find? (·.isBuilder)).map (·.qualifiedName) = builder at h
  unfold Method.createsValue Method.returnsDeclared
  cases hvalue : m.returnType.isDeclared e.qualifiedName with
  | false => simp
  | true =>
    cases builder with
    | none => simp
    | some name =>
      have hother : m.returnType.isDeclared name = false := by
        simp only [TypeUse.isDeclared, beq_iff_eq, beq_eq_false_iff_ne] at hvalue ⊢
        rw [hvalue]
        exact h.symm
      simp [hother]

namespace ClassContext

variable {c : ClassContext} {m : Method} {role : MethodRole}

/-- The role is that of a method that gives a value just when the method does, and for what it
becomes. -/
def TellsCreator (c : ClassContext) (m : Method) (role : MethodRole) : Prop :=
  role.creator?.isSome = m.createsValue c.element.qualifiedName c.builderName ∧
    ∀ k, role.creator? = some k → Creator.ofMethod c.cls c.properties m = .ok k

theorem tellsCreator_of_creatorOrOther
    (hfactory : ¬(m.returnsDeclared c.builderName && m.isStatic) = true)
    (h : roleOf.creatorOrOther c m = .ok role) : c.TellsCreator m role := by
  unfold TellsCreator Method.createsValue
  rw [roleOf.creatorOrOther] at h
  split at h
  · next hcreating =>
    obtain ⟨k, hk, h⟩ := bind_ok_iff.mp h
    obtain rfl := Except.ok.inj h
    rw [Bool.and_eq_true] at hcreating hfactory
    have hbuilder : m.returnsDeclared c.builderName = false :=
      Bool.eq_false_of_not_eq_true fun hreturns => hfactory ⟨hreturns, hcreating.1⟩
    simp [MethodRole.creator?, hcreating.1, hcreating.2, hbuilder, hk]
  · next hcreating =>
    obtain rfl := Except.ok.inj h
    simp [MethodRole.creator?, Bool.eq_false_of_not_eq_true hcreating]

/-- Accessors are not static, and whatever returns the builder gives no value. -/
theorem tellsCreator_of_roleOf (h : c.roleOf m = .ok role) : c.TellsCreator m role := by
  rw [roleOf] at h
  split at h
  · next haccessor =>
    obtain rfl := Except.ok.inj h
    simp only [Method.isAccessor, Bool.and_eq_true, Bool.not_eq_true'] at haccessor
    simp [TellsCreator, Method.createsValue, MethodRole.creator?, haccessor.1.1.1.2]
  · split at h
    · next hfactory =>
      obtain ⟨f, -, h⟩ := bind_ok_iff.mp h
      obtain rfl := Except.ok.inj h
      rw [Bool.and_eq_true] at hfactory
      simp [TellsCreator, Method.createsValue, MethodRole.creator?, hfactory.1]
    · next hfactory =>
      split at h
      · split at h
        · next htoBuilder =>
          obtain ⟨f, -, h⟩ := bind_ok_iff.mp h
          obtain rfl := Except.ok.inj h
          simp only [Bool.and_eq_true] at htoBuilder
          simp [TellsCreator, Method.createsValue, MethodRole.creator?, htoBuilder.1.1]
        · exact tellsCreator_of_creatorOrOther hfactory h
      · exact tellsCreator_of_creatorOrOther hfactory h

end ClassContext

/-- The static methods of a class that give a value are those that its model has, in order. -/
theorem ClassModel.creators_of_ofElement? {e : TypeElement} {enumChildren : List String}
    {model : ClassModel} {log log' : Log}
    (h : (ofElement? e enumChildren).runOn log = (.ok (some model), log')) :
    e.creating.Forall₂ (fun m k => Creator.ofMethod model.cls model.properties m = .ok k)
      model.creators := by
  obtain ⟨c, rfl, -, hname, -, -, hmodel⟩ := context_of_ofElement? h
  obtain ⟨roles, changing, made⟩ := isMadeFrom_of_ofContext hmodel
  rw [TypeElement.creating, ← hname, made.cls, made.properties, made.creators]
  exact forall₂_filter_filterMap
    ((forall₂_of_mapM made.roleOf).imp fun m role => ClassContext.tellsCreator_of_roleOf)

/-! ### Which of them take all the properties -/

namespace Method

variable {m : Method} {f : Function}

/-- The function of a method takes its arguments. -/
theorem argumentTypes_of_toFunction (h : m.toFunction = .ok f) :
    m.argumentTypes = .ok (f.parameters.map (·.type)) := by
  obtain ⟨types, htypes, hoverload⟩ := overload_of_toFunction h
  have hparameters := congrArg (List.map (·.1)) (congrArg Prod.snd hoverload)
  rw [map_fst_withVararg, Function.overload, List.map_map] at hparameters
  rw [htypes, ← hparameters]
  rfl

/-- The parameter that stands for any number of arguments is an array in the method, and of the type
of its components in the function. -/
theorem types_of_vararg {types : List TypeName} (h : m.argumentTypes = .ok types)
    (hvarargs : m.isVarargs = true) {others : List Variable} {v : Variable} {use : TypeUse}
    (hparameters : m.parameters = others ++ [v]) (hv : v.type = .array use) :
    ∃ before array component, m.parameterTypes = .ok (before ++ [array]) ∧
      use.convert = .ok component ∧ array ≠ component ∧ types = before ++ [component] := by
  obtain ⟨all, hall, h⟩ := bind_ok_iff.mp h
  obtain ⟨parameters, hmapM, hall'⟩ := bind_ok_iff.mp hall
  rw [hparameters] at hmapM
  obtain ⟨before, parameter, -, hparameter, rfl⟩ := exists_of_mapM_concat hmapM
  obtain ⟨array, harray, hparameter⟩ := bind_ok_iff.mp hparameter
  obtain rfl := Except.ok.inj hparameter
  rw [hv] at harray
  obtain ⟨component, hcomponent, hof⟩ := componentOf?_of_convert harray
  rw [← componentOf?_withNull (isMarkedNullable v.annotations)] at hof
  refine ⟨before.map (·.type), array.withNull (isMarkedNullable v.annotations), component, ?_,
    hcomponent, ?_, ?_⟩
  · rw [hall, ← Except.ok.inj hall', List.map_append]
    rfl
  · rintro rfl
    exact componentOf?_ne_self _ hof
  · rw [← Except.ok.inj h, if_pos hvarargs, ← Except.ok.inj hall', List.map_append]
    simp [hof]

end Method

theorem Creator.isFull_iff {cls : ClassName} {set : PropertySet} {m : Method} {k : Creator}
    (h : ofMethod cls set m = .ok k) : k.isFull = true ↔ m.argumentTypes = .ok set.types := by
  rw [ofMethod] at h
  obtain ⟨g, hg, h⟩ := bind_ok_iff.mp h
  rw [Method.argumentTypes_of_toFunction hg, Except.ok.injEq]
  have hparameters : (if isLongCreator g.parameters.length then
      g.annotated (suppression "LongParameterList") else g).parameters = g.parameters := by
    split <;> rfl
  simp only [hparameters] at h
  split at h
  · next hfull =>
    obtain rfl := Except.ok.inj h
    exact iff_of_true rfl (beq_iff_eq.mp hfull)
  · next hfull =>
    obtain rfl := Except.ok.inj h
    exact iff_of_false Bool.false_ne_true fun htypes => hfull (beq_iff_eq.mpr htypes)

/-- Each static method that gives a value of the class, and not its builder, has its place among
those of the model. It is taken for one that takes all the properties just when their types are
those of its arguments. Those are the types of its parameters, unless the last of them is an array
that stands for any number of arguments. Then it is the properties that end in the component of the
array, and what the method declares tells rightly only if neither they nor properties that end in
the array are those of the class. -/
theorem ClassModel.creators_are_full_iff {e : TypeElement} {enumChildren : List String}
    {model : ClassModel} {log log' : Log}
    (h : (ofElement? e enumChildren).runOn log = (.ok (some model), log')) :
    ((e.nestedTypes.find? (·.isBuilder)).map (·.qualifiedName) ≠ some e.qualifiedName →
      e.creating =
        e.methods.filter fun m => m.isStatic && m.returnType.isDeclared e.qualifiedName) ∧
    e.creating.Forall₂ (fun m k =>
      (k.isFull = true ↔ m.argumentTypes = .ok model.properties.types) ∧
      (m.isVarargs = false → (k.isFull = true ↔ m.parameterTypes = .ok model.properties.types)) ∧
      ∀ others v use, m.isVarargs = true → m.parameters = others ++ [v] → v.type = .array use →
        ∃ before array component, m.parameterTypes = .ok (before ++ [array]) ∧
          use.convert = .ok component ∧
          (k.isFull = true ↔ model.properties.types = before ++ [component]) ∧
          ((k.isFull = true ↔ m.parameterTypes = .ok model.properties.types) ↔
            k.isFull = false ∧ m.parameterTypes ≠ .ok model.properties.types))
      model.creators := by
  refine ⟨TypeElement.creating_eq, (creators_of_ofElement? h).imp fun m k hk => ?_⟩
  have hfull := Creator.isFull_iff hk
  refine ⟨hfull, fun hvarargs => ?_, fun others v use hvarargs hparameters hv => ?_⟩
  · rw [Method.parameterTypes_eq_argumentTypes hvarargs, hfull]
  · obtain ⟨g, hg, -⟩ := Creator.hasSignature_of_ofMethod hk
    have harguments := Method.argumentTypes_of_toFunction hg
    obtain ⟨before, array, component, hdeclared, hcomponent, hne, htypes⟩ :=
      Method.types_of_vararg harguments hvarargs hparameters hv
    rw [harguments, Except.ok.injEq, htypes] at hfull
    simp only [hdeclared, Except.ok.injEq, ne_eq, ← Bool.not_eq_true, hfull]
    refine ⟨before, array, component, rfl, hcomponent, eq_comm, ?_⟩
    -- the properties cannot end in both
    have hnot : ¬(before ++ [component] = model.properties.types ∧
        before ++ [array] = model.properties.types) := by
      rintro ⟨hcomponents, harrays⟩
      have hends := List.append_cancel_left (hcomponents.trans harrays.symm)
      exact hne (List.singleton_inj.mp hends).symm
    constructor
    · intro hright
      exact ⟨fun hends => hnot ⟨hends, hright.mp hends⟩,
        fun hends => hnot ⟨hright.mpr hends, hends⟩⟩
    · rintro ⟨hcomponents, harrays⟩
      exact iff_of_false hcomponents harrays

/-- A value class with a static method that takes any number of numbers, and one number to keep. -/
def packElement : TypeElement :=
  { qualifiedName := "test.Pack"
    package := "test"
    annotations := [{ typeName := valueClassMarker }]
    methods := [
      { name := "x", modifiers := [.abstract], returnType := .primitive .int },
      { name := "create", modifiers := [.static], returnType := .declared "test.Pack" []
        isVarargs := true, parameters := [{ name := "x", type := .array (.primitive .int) }] }] }

/-- The method declares an array, but is taken for one that takes the number. -/
theorem pack_creator_is_full_by_mistake : ∃ model m k log,
    (ClassModel.ofElement? packElement []).runOn [] = (.ok (some model), log) ∧
    packElement.creating = [m] ∧ model.creators = [k] ∧ k.isFull = true ∧
    m.parameterTypes = .ok [.builtin "IntArray"] ∧ model.properties.types = [.builtin "Int"] ∧
    ¬(k.isFull = true ↔ m.parameterTypes = .ok model.properties.types) := by
  have hrun : ((ClassModel.ofElement? packElement []).runOn []).1.map (·.map fun model =>
      model.properties.types) = .ok (some [.builtin "Int"]) := by decide +kernel
  obtain ⟨model, d, log, hmodel, -⟩ :=
    ClassModel.exists_of_hasDeclaration packElement (by decide +kernel)
  rw [hmodel] at hrun
  have htypes : model.properties.types = [.builtin "Int"] := Option.some.inj (Except.ok.inj hrun)
  have hcreators := (ClassModel.creators_are_full_iff hmodel).2
  obtain ⟨m, hcreating, hvarargs, hparameters, hdeclared⟩ : ∃ m, packElement.creating = [m] ∧
      m.isVarargs = true ∧ m.parameters = [] ++ [{ name := "x", type := .array (.primitive .int) }] ∧
      m.parameterTypes = .ok [.builtin "IntArray"] := ⟨_, rfl, rfl, rfl, rfl⟩
  rw [hcreating] at hcreators
  generalize hall : model.creators = creators at hcreators
  obtain _ | ⟨⟨-, -, hk⟩, _ | _⟩ := hcreators
  obtain ⟨before, array, component, hends, hcomponent, hfull, hmistake⟩ :=
    hk [] _ _ hvarargs hparameters rfl
  obtain rfl := Except.ok.inj hcomponent
  obtain rfl : before = [] := by
    have hlength := congrArg List.length (Except.ok.inj (hends.symm.trans hdeclared))
    simpa using hlength
  have hfull := hfull.mpr htypes
  refine ⟨model, m, _, log, hmodel, hcreating, hall, hfull, hdeclared, htypes, fun hright => ?_⟩
  have hpartly := (hmistake.mp hright).1
  rw [hfull] at hpartly
  cases hpartly

end DataClassGen
