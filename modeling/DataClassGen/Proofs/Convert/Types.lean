import DataClassGen.Convert.Type
import DataClassGen.Proofs.Failing
import DataClassGen.Proofs.Names

/-!
# Which types are converted, and to what

A use of a type is converted unless a wildcard or an array of no values occurs in it, at whatever
depth; the failure shows the first such part, from left to right and from the outside in. What a
type is converted to is null at no level, has the converted type arguments in their order, and holds
none of the classes that have built-in counterparts (`TypeUse.conversion_is_exact`).

A conversion goes through the parts of a type from left to right and fails as the first of them that
is unsupported (`TypeUse.failure?_convert`).
-/

namespace DataClassGen

open Source

/-! ### Parts of types -/

namespace TypeUse

mutual

/-- The type and all types in it, outer ones first and from left to right. -/
def subterms : TypeUse → List TypeUse
  | .primitive kind => [.primitive kind]
  | .declared name args => .declared name args :: subtermsAll args
  | .parameter name => [.parameter name]
  | .array component => .array component :: subterms component
  | .wildcard upper lower =>
    .wildcard upper lower :: (subtermsOption upper ++ subtermsOption lower)
  | .void => [.void]

/-- The types and all types in them. -/
def subtermsAll : List TypeUse → List TypeUse
  | [] => []
  | use :: uses => subterms use ++ subtermsAll uses

/-- The type, if there is one, and all types in it. -/
def subtermsOption : Option TypeUse → List TypeUse
  | none => []
  | some use => subterms use

end

/-- A wildcard, whatever its bounds. -/
def isWildcard : TypeUse → Bool
  | .wildcard .. => true
  | _ => false

/-- No type is converted with this in it: a wildcard, or an array whose components are wildcards or
no values at all. -/
def isUnsupported : TypeUse → Bool
  | .array component => component.isVoid || component.isWildcard
  | use => use.isWildcard

/-- The type itself occurs in it. -/
theorem self_mem_subterms (use : TypeUse) : use ∈ use.subterms := by
  cases use <;> rw [subterms] <;> exact List.mem_cons_self

mutual

/-- What occurs in a part of a type occurs in the type. -/
theorem subterms_subset {part : TypeUse} : ∀ {use : TypeUse}, part ∈ use.subterms →
    part.subterms ⊆ use.subterms
  | .primitive _, h | .parameter _, h | .void, h => by
    rw [List.mem_singleton.mp h]
    exact List.Subset.refl _
  | .declared name args, h => by
    rcases List.mem_cons.mp h with rfl | h
    · exact List.Subset.refl _
    · exact List.subset_cons_of_subset _ (subtermsAll_subset h)
  | .array component, h => by
    rcases List.mem_cons.mp h with rfl | h
    · exact List.Subset.refl _
    · exact List.subset_cons_of_subset _ (subterms_subset h)
  | .wildcard upper lower, h => by
    rcases List.mem_cons.mp h with rfl | h
    · exact List.Subset.refl _
    · refine List.subset_cons_of_subset _ ?_
      rcases List.mem_append.mp h with h | h
      · exact List.subset_append_of_subset_left _ (subtermsOption_subset h)
      · exact List.subset_append_of_subset_right _ (subtermsOption_subset h)

theorem subtermsAll_subset {part : TypeUse} : ∀ {uses : List TypeUse}, part ∈ subtermsAll uses →
    part.subterms ⊆ subtermsAll uses
  | use :: uses, h => by
    rw [subtermsAll] at h ⊢
    rcases List.mem_append.mp h with h | h
    · exact List.subset_append_of_subset_left _ (subterms_subset h)
    · exact List.subset_append_of_subset_right _ (subtermsAll_subset h)

theorem subtermsOption_subset {part : TypeUse} : ∀ {use? : Option TypeUse},
    part ∈ subtermsOption use? → part.subterms ⊆ subtermsOption use?
  | some use, h => by
    rw [subtermsOption] at h ⊢
    exact subterms_subset h

end

/-- Nothing unsupported occurs in a type just when no wildcard and no array of no values does. -/
theorem forall_not_isUnsupported_iff (use : TypeUse) :
    (∀ part ∈ use.subterms, part.isUnsupported = false) ↔
      ∀ part ∈ use.subterms, part.isWildcard = false ∧ part ≠ .array .void := by
  constructor
  · intro h part hpart
    have hsupported := h part hpart
    refine ⟨?_, fun hvoid => by rw [hvoid] at hsupported; cases hsupported⟩
    cases part with
    | array component => rfl
    | _ => exact hsupported
  · intro h part hpart
    cases part with
    | array component =>
      have hcomponent := subterms_subset hpart
        (List.mem_cons_of_mem (.array component) (self_mem_subterms component))
      rw [isUnsupported, (h component hcomponent).1, Bool.or_false]
      cases component with
      | void => exact absurd rfl (h _ hpart).2
      | _ => rfl
    | _ => exact (h _ hpart).1

/-- The type arguments of what the type is converted to, before they are converted: those of a
class, and the component of an array unless it is primitive. -/
def arguments : TypeUse → List TypeUse
  | .declared _ args => args
  | .array (.primitive _) => []
  | .array component => [component]
  | .primitive _ | .parameter _ | .wildcard .. | .void => []

end TypeUse

namespace Source.TypeName

mutual

/-- The type and its type arguments, at any depth. -/
def levels : TypeName → List TypeName
  | .named cls args isNullable => .named cls args isNullable :: levelsAll args
  | .parameter name bounds isNullable => [.parameter name bounds isNullable]

/-- The types and their type arguments, at any depth. -/
def levelsAll : List TypeName → List TypeName
  | [] => []
  | t :: ts => levels t ++ levelsAll ts

end

theorem mem_levelsAll {level : TypeName} {ts : List TypeName} :
    level ∈ levelsAll ts ↔ ∃ t ∈ ts, level ∈ t.levels := by
  induction ts with
  | nil => simp [levelsAll]
  | cons t ts ih => simp [levelsAll, ih]

theorem mem_classesAll {cls : ClassName} {ts : List TypeName} :
    cls ∈ classesAll ts ↔ ∃ t ∈ ts, cls ∈ t.classes := by
  induction ts with
  | nil => simp [classesAll]
  | cons t ts ih => simp [classesAll, ih]

end Source.TypeName

/-! ### Where a conversion stops -/

namespace TypeUse

/-- The failure for the first part that no type is converted with. -/
def refusal? (use : TypeUse) : Option Failure :=
  (use.subterms.find? isUnsupported).map fun part => .unsupportedType part.shown

/-- The failure for the first such part of some types. -/
def refusalAll? (uses : List TypeUse) : Option Failure :=
  ((subtermsAll uses).find? isUnsupported).map fun part => .unsupportedType part.shown

theorem refusalAll?_cons (use : TypeUse) (uses : List TypeUse) :
    refusalAll? (use :: uses) = use.refusal?.or (refusalAll? uses) := by
  rw [refusalAll?, subtermsAll, List.find?_append, Option.map_or]
  rfl

theorem convertAll_eq (uses : List TypeUse) : convertAll uses = uses.mapM convert := by
  induction uses with
  | nil => rfl
  | cons use uses ih =>
    rw [convertAll, ih, List.mapM_cons]

mutual

/-- A type is converted up to its first unsupported part. -/
theorem failure?_convert : ∀ use : TypeUse, failure? use.convert = use.refusal?
  | .primitive _ | .parameter _ | .void => rfl
  | .declared _ args => (failure?_bind_ok _ _).trans (failure?_convertAll args)
  | .array (.primitive _) => rfl
  | .array .void | .array (.wildcard ..) | .wildcard .. => rfl
  | .array (.declared name args) =>
    (failure?_bind_ok _ _).trans (failure?_convert (.declared name args))
  | .array (.parameter name) => (failure?_bind_ok _ _).trans (failure?_convert (.parameter name))
  | .array (.array component) =>
    (failure?_bind_ok _ _).trans (failure?_convert (.array component))

theorem failure?_convertAll : ∀ uses : List TypeUse,
    failure? (convertAll uses) = refusalAll? uses
  | [] => rfl
  | use :: uses => by
    rw [refusalAll?_cons, convertAll, ← failure?_convert use]
    exact failure?_bind _ fun _ => (failure?_bind_ok _ _).trans (failure?_convertAll uses)

end

end TypeUse

/-! ### What types are converted to -/

/-- The classes that have built-in counterparts. -/
def boxedNames : List String :=
  ["java.lang.Boolean", "java.lang.Byte", "java.lang.Short", "java.lang.Character",
    "java.lang.Integer", "java.lang.Long", "java.lang.Float", "java.lang.Double",
    "java.lang.String", "java.lang.Object"]

/-- A built-in class is none of those that have built-in counterparts. -/
theorem canonical_builtin_not_mem (simpleName : String) :
    (ClassName.builtin simpleName).canonical ∉ boxedNames := by
  have hcanonical : (ClassName.builtin simpleName).canonical = "kotlin." ++ simpleName := rfl
  have hfirst : ∀ name ∈ boxedNames, name.toList.head? = some 'j' := by decide +kernel
  intro h
  have hbuiltin := hfirst _ h
  rw [hcanonical, String.toList_append] at hbuiltin
  simp at hbuiltin

theorem canonical_convertClass_not_mem (name : String) :
    (convertClass name).canonical ∉ boxedNames := by
  rw [convertClass]
  split
  · exact canonical_builtin_not_mem _
  · next hnone =>
    intro h
    have hpackages : ∀ boxed ∈ boxedNames, (ClassName.ofCanonical boxed).package ≠ "" := by
      decide +kernel
    have hcounterparts : ∀ boxed ∈ boxedNames, builtinCounterparts.lookup boxed ≠ none := by
      decide +kernel
    rw [← ClassName.eq_of_canonical_ofCanonical rfl (hpackages _ h)] at h
    exact hcounterparts name h hnone

/-- The type is null at no level, and holds no class that has a built-in counterpart. -/
structure Source.TypeName.IsConverted (t : TypeName) : Prop where
  notNull : ∀ level ∈ t.levels, level.isNullable = false
  builtIn : ∀ cls ∈ t.classes, cls.canonical ∉ boxedNames

theorem Source.TypeName.IsConverted.named {cls : ClassName} {args : List TypeName}
    (hcls : cls.canonical ∉ boxedNames) (hargs : ∀ arg ∈ args, arg.IsConverted) :
    (TypeName.named cls args false).IsConverted where
  notNull := by
    intro level hlevel
    rcases List.mem_cons.mp hlevel with rfl | hlevel
    · rfl
    · obtain ⟨arg, harg, hlevel⟩ := mem_levelsAll.mp hlevel
      exact (hargs arg harg).notNull level hlevel
  builtIn := by
    intro cls' hcls'
    rcases List.mem_cons.mp hcls' with rfl | hcls'
    · exact hcls
    · obtain ⟨arg, harg, hcls'⟩ := mem_classesAll.mp hcls'
      exact (hargs arg harg).builtIn cls' hcls'

theorem Source.TypeName.IsConverted.builtin (simpleName : String) :
    (TypeName.builtin simpleName).IsConverted :=
  .named (canonical_builtin_not_mem simpleName) fun _ h => nomatch h

namespace TypeUse

variable {use : TypeUse} {t : TypeName}

/-- What an array is converted to, by what its component is. -/
theorem convert_array (h : (array use).convert = .ok t) :
    (∃ kind, use = .primitive kind ∧ t = .builtin (kind.builtinName ++ "Array")) ∨
      (array use).arguments = [use] ∧
        ∃ component, use.convert = .ok component ∧
          t = .named (.builtin "Array") [component] false := by
  have of_component (h : (do return .named (.builtin "Array") [← use.convert] false :
      Except Failure TypeName) = .ok t) :
      ∃ component, use.convert = .ok component ∧
        t = .named (.builtin "Array") [component] false := by
    obtain ⟨component, hcomponent, h⟩ := bind_ok_iff.mp h
    exact ⟨component, hcomponent, (Except.ok.inj h).symm⟩
  cases use with
  | primitive kind => exact Or.inl ⟨kind, rfl, (Except.ok.inj h).symm⟩
  | declared _ _ | parameter _ | array _ => exact Or.inr ⟨rfl, of_component h⟩
  | void | wildcard _ _ => cases h

/-- The type arguments are those of the type, converted in their order. -/
theorem arguments_of_convert (h : use.convert = .ok t) :
    use.arguments.mapM convert = .ok t.args := by
  cases use with
  | declared name args =>
    obtain ⟨types, htypes, h⟩ := bind_ok_iff.mp h
    obtain rfl := Except.ok.inj h
    rw [← convertAll_eq]
    exact htypes
  | array use =>
    rcases convert_array h with ⟨kind, rfl, rfl⟩ | ⟨harguments, component, hcomponent, rfl⟩
    · rfl
    · rw [harguments, List.mapM_cons, hcomponent]
      rfl
  | primitive _ | parameter _ | void =>
    obtain rfl := Except.ok.inj h
    rfl
  | wildcard _ _ => cases h

mutual

theorem isConverted_of_convert : ∀ {use : TypeUse} {t : TypeName}, use.convert = .ok t →
    t.IsConverted
  | .primitive kind, _, h => Except.ok.inj h ▸ .builtin kind.builtinName
  | .declared name args, _, h => by
    obtain ⟨types, htypes, h⟩ := bind_ok_iff.mp h
    obtain rfl := Except.ok.inj h
    exact .named (canonical_convertClass_not_mem name) (isConverted_of_convertAll htypes)
  | .parameter name, _, h => by
    obtain rfl := Except.ok.inj h
    exact ⟨fun level hlevel => List.mem_singleton.mp hlevel ▸ rfl, fun _ hcls => nomatch hcls⟩
  | .array use, _, h => by
    rcases convert_array h with ⟨kind, -, rfl⟩ | ⟨-, component, hcomponent, rfl⟩
    · exact .builtin _
    · refine .named (canonical_builtin_not_mem "Array") fun arg harg => ?_
      rw [List.mem_singleton.mp harg]
      exact isConverted_of_convert hcomponent
  | .void, _, h => Except.ok.inj h ▸ .builtin "Unit"

theorem isConverted_of_convertAll : ∀ {uses : List TypeUse} {ts : List TypeName},
    convertAll uses = .ok ts → ∀ t ∈ ts, t.IsConverted
  | [], _, h, _, ht => by
    obtain rfl := Except.ok.inj h
    cases ht
  | use :: uses, _, h, _, ht => by
    obtain ⟨type, htype, h⟩ := bind_ok_iff.mp h
    obtain ⟨types, htypes, h⟩ := bind_ok_iff.mp h
    obtain rfl := Except.ok.inj h
    rcases List.mem_cons.mp ht with rfl | ht
    · exact isConverted_of_convert htype
    · exact isConverted_of_convertAll htypes _ ht

end

/-- A type is converted just when no wildcard and no array of no values occurs in it. Then it is
null at no level, has the converted type arguments in their order, and holds no class that has a
built-in counterpart. The failure shows the first part that is a wildcard, or an array of wildcards
or of no values. -/
theorem conversion_is_exact (use : TypeUse) :
    ((∃ t, use.convert = .ok t) ↔
      ∀ part ∈ use.subterms, part.isWildcard = false ∧ part ≠ .array .void) ∧
    (∀ t, use.convert = .ok t →
      (∀ level ∈ t.levels, level.isNullable = false) ∧
      use.arguments.mapM convert = .ok t.args ∧
      ∀ cls ∈ t.classes, cls.canonical ∉ boxedNames) ∧
    ∀ failure, use.convert = .error failure → ∃ part,
      use.subterms.find? isUnsupported = some part ∧ failure = .unsupportedType part.shown := by
  refine ⟨?_, fun t h => ?_, fun failure h => ?_⟩
  · rw [← failure?_eq_none_iff, failure?_convert, refusal?, Option.map_eq_none_iff,
      List.find?_eq_none, ← forall_not_isUnsupported_iff]
    simp only [Bool.not_eq_true]
  · have hconverted := isConverted_of_convert h
    exact ⟨hconverted.notNull, arguments_of_convert h, hconverted.builtIn⟩
  · have hrefusal := failure?_eq_some_iff.mpr h
    rw [failure?_convert] at hrefusal
    obtain ⟨part, hpart, rfl⟩ := Option.map_eq_some_iff.mp hrefusal
    exact ⟨part, hpart, rfl⟩

/-- Tables of numbers by boxed keys: a class, a boxed class and both kinds of arrays. -/
def tablesUse : TypeUse :=
  .declared "java.util.Map" [.declared "java.lang.Integer" [], .array (.array (.primitive .int))]

/-- A class with two arguments that are not converted. -/
def brokenUse : TypeUse :=
  .declared "java.util.Map" [.array (.array .void), .wildcard (some (.parameter "T")) none]

/-- The tables keep both arguments, and what is shown of the broken class is the inner array. -/
theorem tables_are_converted : ∃ t part,
    tablesUse.convert = .ok t ∧
    t.shown = "java.util.Map<kotlin.Int, kotlin.Array<kotlin.IntArray>>" ∧
    (∀ part ∈ tablesUse.subterms, part.isWildcard = false ∧ part ≠ .array .void) ∧
    (∀ level ∈ t.levels, level.isNullable = false) ∧
    tablesUse.arguments.mapM convert = .ok t.args ∧
    (∀ cls ∈ t.classes, cls.canonical ∉ boxedNames) ∧
    brokenUse.subterms.find? isUnsupported = some part ∧ part.shown = "void[]" ∧
    brokenUse.convert = .error (.unsupportedType part.shown) := by
  have htables : tablesUse.convert = .ok (.named (.topLevelOf "java.util" "Map")
      [.builtin "Int", .named (.builtin "Array") [.builtin "IntArray"] false] false) := by
    decide +kernel
  have hbroken : brokenUse.convert = .error (.unsupportedType "void[]") := by decide +kernel
  obtain ⟨hnotNull, harguments, hbuiltIn⟩ := (conversion_is_exact tablesUse).2.1 _ htables
  obtain ⟨part, hpart, hshown⟩ := (conversion_is_exact brokenUse).2.2 _ hbroken
  have hshown : part.shown = "void[]" := (Failure.unsupportedType.inj hshown).symm
  exact ⟨_, part, htables, by decide +kernel, (conversion_is_exact tablesUse).1.mp ⟨_, htables⟩,
    hnotNull, harguments, hbuiltIn, hpart, hshown, hshown ▸ hbroken⟩

end TypeUse

end DataClassGen
