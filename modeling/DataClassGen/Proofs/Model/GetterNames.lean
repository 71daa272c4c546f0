import DataClassGen.Proofs.Model.Accessors
import DataClassGen.Proofs.Names

/-!
# The names of getters

On the virtual machine a property is read through its getter. Its name can be given by an
annotation; by default it is the name of the property itself, if that is `is` with no small letter
after it, and else `get` with the name of the property, its first letter a capital
(`defaultGetterName`). What a small letter and a capital are, is left open: nothing here depends on
it.

Callers by the accessor of a value class find its name again in the data class if neither it nor the
name of the property begins with `get`: then it is given by the annotation, or there is a function
of that name. Otherwise nothing is done for it, and it is found again only if the default is that
name. It never is if an accessor of the class has no prefix of a bean, for then `get` is doubled
(`accessor_is_kept_iff`).
-/

namespace DataClassGen

open Source

/-! ### Getters -/

/-- What is known of letters when getters are named. -/
structure Letters where
  /-- The character is a small letter. -/
  isSmall : Char → Bool
  /-- The character as a capital, or itself if it has none. -/
  capital : Char → List Char

namespace Letters

/-- The letters of ASCII. -/
def ascii : Letters where
  isSmall := Text.isAsciiSmall
  capital c := [if Text.isAsciiSmall c then Char.ofNat (c.toNat - 32) else c]

variable (letters : Letters)

/-- The text with its first letter a capital. -/
def capitalized (s : String) : String :=
  match s.toList with
  | [] => ""
  | first :: rest => String.ofList (letters.capital first ++ rest)

/-- The name is `is` with something after it that begins with no small letter. -/
def isTruthName (name : String) : Bool :=
  match name.toList with
  | 'i' :: 's' :: c :: _ => !letters.isSmall c
  | _ => false

/-- The name of the getter of a property of this name, if none is given. -/
def defaultGetterName (name : String) : String :=
  if letters.isTruthName name then name else "get" ++ letters.capitalized name

end Letters

/-! ### Names that begin with `get` -/

theorem Text.exists_of_beginsWith_get {name : String} (h : Text.beginsWith "get" name = true) :
    ∃ rest, name.toList = 'g' :: 'e' :: 't' :: rest := by
  obtain ⟨rest, hrest⟩ := List.isPrefixOf_iff_prefix.mp h
  exact ⟨rest, hrest.symm⟩

theorem Text.not_beginsWith_get {rest : String} : Text.beginsWith "get" ("is" ++ rest) = false := by
  rw [beginsWith, String.toList_append]
  rfl

namespace Letters

variable {letters : Letters}

/-- A name that begins with `get` is not one for truth values. -/
theorem isTruthName_of_beginsWith {name : String} (h : Text.beginsWith "get" name = true) :
    letters.isTruthName name = false := by
  obtain ⟨rest, hrest⟩ := Text.exists_of_beginsWith_get h
  rw [isTruthName, hrest]
  rfl

/-- The getter of a property that begins with `get` never has the name of the property. -/
theorem defaultGetterName_ne_self {name : String} (h : Text.beginsWith "get" name = true) :
    letters.defaultGetterName name ≠ name := by
  obtain ⟨rest, hrest⟩ := Text.exists_of_beginsWith_get h
  rw [defaultGetterName, isTruthName_of_beginsWith h, capitalized, hrest]
  intro heq
  have hlength := congrArg (fun s => s.toList.length) heq
  simp [hrest] at hlength
  omega

end Letters

/-- The name that the annotation gives to a getter, if it gives one. -/
def Source.Annotation.getterName? (a : Annotation) : Option String :=
  if a.onGetter && a.cls == .topLevelOf "kotlin.jvm" "JvmName" then
    match a.members with
    | [[.string name]] => some name
    | _ => none
  else none

/-- The name of the property's getter. -/
def Source.Property.getterName (letters : Letters) (p : Property) : String :=
  (p.annotations.findSome? Annotation.getterName?).getD (letters.defaultGetterName p.name)

/-- Callers by the accessor of a property find its name again: it is the name of a function that
overrides, or of the getter. -/
def ValueProperty.IsKept (letters : Letters) (p : ValueProperty) (declared : Property) : Prop :=
  (∃ f, p.accessorFunction? = some f ∧ f.name = p.accessorName ∧
    DeclModifier.override ∈ f.modifiers) ∨
  declared.getterName letters = p.accessorName

namespace ValueProperty

variable {letters : Letters} {p : ValueProperty}

/-- Nothing that is carried along names a getter. -/
theorem getterName?_of_ofAccessor {name : String} {m : Method} (h : ofAccessor name m = .ok p) :
    ∀ a ∈ p.annotations, a.getterName? = none := by
  obtain ⟨-, -, hannotations, -, -⟩ := ofAccessor_spec h
  rw [hannotations]
  exact List.forall_mem_map.mpr fun _ _ => rfl

/-- Without getter syntax the accessor is kept: by a function if it overrides, or else by the name
of the getter. -/
theorem isKept_of_not_hasGetterSyntax (hp : ∀ a ∈ p.annotations, a.getterName? = none)
    (h : p.hasGetterSyntax = false) (cls : Option ClassName) (isRedacted : Bool)
    (default : Option Code) :
    p.IsKept letters (p.toConstructorProperty cls isRedacted default).property := by
  cases hoverride : p.isOverride
  · right
    have hcarried : p.annotations.findSome? Annotation.getterName? = none :=
      List.findSome?_eq_none_iff.mpr hp
    simp only [toConstructorProperty, Property.getterName, h, hoverride, Bool.not_false,
      Bool.and_self, if_true, List.findSome?_append, hcarried]
    rfl
  · left
    rw [accessorFunction?, h, hoverride]
    exact ⟨_, rfl, rfl, List.mem_singleton_self _⟩

/-- With getter syntax nothing is done for the accessor. -/
theorem isKept_iff_of_hasGetterSyntax (hp : ∀ a ∈ p.annotations, a.getterName? = none)
    (h : p.hasGetterSyntax = true) (cls : Option ClassName) (isRedacted : Bool)
    (default : Option Code) :
    p.IsKept letters (p.toConstructorProperty cls isRedacted default).property ↔
      letters.defaultGetterName p.name = p.accessorName := by
  have hcarried : p.annotations.findSome? Annotation.getterName? = none :=
    List.findSome?_eq_none_iff.mpr hp
  have hgetter : (p.toConstructorProperty cls isRedacted default).property.getterName letters =
      letters.defaultGetterName p.name := by
    simp only [toConstructorProperty, Property.getterName, h, Bool.not_true, Bool.false_and,
      Bool.false_eq_true, if_false, List.findSome?_append, hcarried, List.append_nil]
    cases cls with
    | none => rfl
    | some cls => cases p.isRedacted && !isRedacted <;> rfl
  rw [IsKept, hgetter, accessorFunction?, h]
  simp

end ValueProperty

/-! ### Accessors -/

/-- A name with the prefix of a bean is the prefix and the rest. -/
theorem Method.name_of_beanName? {m : Method} {rest : String} (h : m.beanName? = some rest) :
    m.name = "get" ++ rest ∨ m.name = "is" ++ rest := by
  rw [beanName?] at h
  split at h
  · next hget =>
    obtain rfl := Option.some.inj h
    exact Or.inl (Text.eq_append_of_after? (Option.eq_some_of_filter_eq_some hget))
  · split at h
    · exact Or.inr (Text.eq_append_of_after? (Option.eq_some_of_filter_eq_some h))
    · cases h

/-- The accessor has a name that the getter of its property has by default: its class has accessors
with the prefixes of a bean only, it begins with `get` itself, and taking the capital off the rest
and giving it back changes nothing. -/
def TypeElement.HasDefaultGetter (letters : Letters) (e : TypeElement) (m : Method) : Prop :=
  e.hasBeanAccessors = true ∧ ∃ rest, m.name = "get" ++ rest ∧
    letters.isTruthName (decapitalize rest) = false ∧
    letters.capitalized (decapitalize rest) = rest

theorem defaultGetterName_eq_iff_of_get {letters : Letters} {e : TypeElement} {m : Method}
    {rest : String} (hbeans : e.hasBeanAccessors = true) (hget : m.name = "get" ++ rest) :
    letters.defaultGetterName (decapitalize rest) = m.name ↔ e.HasDefaultGetter letters m := by
  have hiff : e.HasDefaultGetter letters m ↔ letters.isTruthName (decapitalize rest) = false ∧
      letters.capitalized (decapitalize rest) = rest := by
    refine ⟨fun ⟨_, s, hs, hd⟩ => ?_, fun hd => ⟨hbeans, rest, hget, hd⟩⟩
    rwa [(String.append_right_inj "get").mp (hget.symm.trans hs)]
  rw [hiff, Letters.defaultGetterName, hget]
  cases htruth : letters.isTruthName (decapitalize rest)
  · simp [String.append_right_inj]
  · refine iff_of_false (fun heq => ?_) fun hd => Bool.noConfusion hd.1
    have hbegins := Text.beginsWith_append "get" rest
    rw [← heq, if_pos rfl] at hbegins
    rw [Letters.isTruthName_of_beginsWith hbegins] at htruth
    cases htruth

theorem defaultGetterName_eq_iff {letters : Letters} {e : TypeElement} {m : Method}
    (hm : m ∈ e.accessors) (h : usesGetterSyntax (e.propertyName m) m.name = true) :
    letters.defaultGetterName (e.propertyName m) = m.name ↔ e.HasDefaultGetter letters m := by
  by_cases hbeans : e.hasBeanAccessors = true
  · obtain ⟨rest, hrest⟩ := Option.isSome_iff_exists.mp (List.all_eq_true.mp hbeans m hm)
    have hname : e.propertyName m = decapitalize rest := by
      rw [TypeElement.propertyName, PropertySet.propertyName, hrest]
      exact if_pos hbeans
    rw [hname] at h ⊢
    rcases Method.name_of_beanName? hrest with hget | his
    · exact defaultGetterName_eq_iff_of_get hbeans hget
    · -- the name of the property begins with `get`, and so does that of its getter
      have hbegins : Text.beginsWith "get" (decapitalize rest) = true := by
        rwa [usesGetterSyntax, his, Text.not_beginsWith_get, Bool.or_false] at h
      have hno : ∀ s, "get" ++ s ≠ m.name := fun s heq => by
        have hs := Text.beginsWith_append "get" s
        rw [heq, his, Text.not_beginsWith_get] at hs
        cases hs
      rw [Letters.defaultGetterName, Letters.isTruthName_of_beginsWith hbegins]
      exact iff_of_false (hno _) fun ⟨_, s, hs, _⟩ => hno s hs.symm
  · have hname : e.propertyName m = m.name := by
      rw [TypeElement.propertyName, PropertySet.propertyName]
      cases m.beanName? with
      | none => rfl
      | some rest => exact if_neg hbeans
    rw [hname, usesGetterSyntax, Bool.or_self] at h
    rw [hname]
    exact iff_of_false (Letters.defaultGetterName_ne_self h) fun hd => hbeans hd.1

/-- Which accessors callers find again. Without getter syntax, each of them; with it, those with a
name that the getter has by default. What is said of an accessor here is of the declaration: that
has the properties in the order of the accessors, and their functions. -/
theorem accessor_is_kept_iff (letters : Letters) {e : TypeElement} {enumChildren : List String}
    {model : ClassModel} {log log' : Log}
    (h : (ClassModel.ofElement? e enumChildren).runOn log = (.ok (some model), log')) :
    e.accessors.Forall₂ (fun m p => p.name = e.propertyName m ∧ p.accessorName = m.name ∧
      ∀ default, p.IsKept letters
          (p.toConstructorProperty model.redactedClass model.isRedacted default).property ↔
        (usesGetterSyntax p.name m.name = false ∨ e.HasDefaultGetter letters m))
      model.properties.properties ∧
    ∀ d, model.toDeclaration = .ok d →
      (∀ f ∈ model.properties.properties.filterMap (·.accessorFunction?), f ∈ d.functions) ∧
      ∃ constructor, d.constructor = some constructor ∧
        model.properties.properties.Forall₂ (fun p q => ∃ default,
          q = p.toConstructorProperty model.redactedClass model.isRedacted default)
          constructor.properties := by
  obtain ⟨hproperties, -⟩ := ClassModel.accessors_of_ofElement? h
  refine ⟨?_, fun d hd => (ClassModel.constructor_of_toDeclaration hd).2⟩
  have hmembers := (List.forall₂_and_left _ _).mpr ⟨fun m hm => hm, hproperties⟩
  refine hmembers.imp fun m p hp => ?_
  obtain ⟨hname, haccessor, -⟩ := ValueProperty.ofAccessor_spec hp.2
  have hcarried := ValueProperty.getterName?_of_ofAccessor hp.2
  refine ⟨hname, haccessor, fun default => ?_⟩
  by_cases hsyntax : p.hasGetterSyntax = true
  · rw [ValueProperty.isKept_iff_of_hasGetterSyntax hcarried hsyntax]
    rw [ValueProperty.hasGetterSyntax] at hsyntax
    rw [← haccessor, hsyntax]
    rw [hname, haccessor] at hsyntax ⊢
    rw [defaultGetterName_eq_iff hp.1 hsyntax]
    simp
  · rw [Bool.not_eq_true] at hsyntax
    refine iff_of_true (ValueProperty.isKept_of_not_hasGetterSyntax hcarried hsyntax _ _ _) ?_
    rw [← haccessor]
    exact Or.inl hsyntax

/-- A value class with three accessors, all with the prefixes of beans. -/
def ticketElement : TypeElement :=
  { qualifiedName := "test.Ticket"
    package := "test"
    annotations := [{ typeName := valueClassMarker }]
    methods := [
      { name := "getName", modifiers := [.abstract]
        returnType := .declared "java.lang.String" [] },
      { name := "isOpen", modifiers := [.abstract], returnType := .primitive .boolean },
      { name := "getIsOpen", modifiers := [.abstract], returnType := .primitive .boolean }] }

/-- The first accessor is found again by the default name of its getter, the second by the name that
is given. The third is not: the name of its property is taken for that of its getter. -/
theorem ticket_accessors_are_kept : ∃ model log p₁ p₂ p₃,
    (ClassModel.ofElement? ticketElement []).runOn [] = (.ok (some model), log) ∧
    model.properties.properties = [p₁, p₂, p₃] ∧
    ∀ default, p₁.IsKept .ascii
        (p₁.toConstructorProperty model.redactedClass model.isRedacted default).property ∧
      p₂.IsKept .ascii
        (p₂.toConstructorProperty model.redactedClass model.isRedacted default).property ∧
      ¬ p₃.IsKept .ascii
        (p₃.toConstructorProperty model.redactedClass model.isRedacted default).property := by
  obtain ⟨model, d, log, hmodel, -⟩ :=
    ClassModel.exists_of_hasDeclaration ticketElement (by decide +kernel)
  have hkept := (accessor_is_kept_iff .ascii hmodel).1
  have haccessors : ticketElement.accessors = ticketElement.methods := by rfl
  rw [haccessors] at hkept
  generalize hproperties : model.properties.properties = properties at hkept
  obtain _ | ⟨⟨-, -, h₁⟩, _ | ⟨⟨hname, -, h₂⟩, _ | ⟨⟨hname', -, h₃⟩, _ | _⟩⟩⟩ := hkept
  refine ⟨model, log, _, _, _, hmodel, hproperties, fun default => ⟨(h₁ default).mpr ?_,
    (h₂ default).mpr ?_, fun hp => ?_⟩⟩
  · exact Or.inr ⟨by decide +kernel, "Name", by decide +kernel⟩
  · rw [hname]
    exact Or.inl (by decide +kernel)
  · rcases (h₃ default).mp hp with hsyntax | ⟨-, rest, hrest, htruth, -⟩
    · rw [hname'] at hsyntax
      exact absurd hsyntax (by decide +kernel)
    · obtain rfl : "IsOpen" = rest := (String.append_right_inj "get").mp hrest
      exact absurd htruth (by decide +kernel)

/-- A value class with one accessor that has the prefix of a bean, and one that has not. -/
def tallyElement : TypeElement :=
  { qualifiedName := "test.Tally"
    package := "test"
    annotations := [{ typeName := valueClassMarker }]
    methods := [
      { name := "value", modifiers := [.abstract]
        returnType := .declared "java.lang.String" [] },
      { name := "getCount", modifiers := [.abstract]
        returnType := .declared "java.lang.String" [] }] }

/-- Not every accessor is found again: the getter of the property `getCount` is `getGetCount`. -/
theorem tally_count_is_not_kept : ∃ model log p,
    (ClassModel.ofElement? tallyElement []).runOn [] = (.ok (some model), log) ∧
    p ∈ model.properties.properties ∧ p.accessorName = "getCount" ∧
    ∀ default, ¬ p.IsKept .ascii
      (p.toConstructorProperty model.redactedClass model.isRedacted default).property := by
  obtain ⟨model, d, log, hmodel, -⟩ :=
    ClassModel.exists_of_hasDeclaration tallyElement (by decide +kernel)
  have hproperties := (ClassModel.accessors_of_ofElement? hmodel).1
  have haccessors : tallyElement.accessors = tallyElement.methods := by rfl
  rw [haccessors] at hproperties
  generalize hall : model.properties.properties = properties at hproperties
  obtain _ | ⟨-, _ | ⟨hp, _ | _⟩⟩ := hproperties
  rename_i value count
  obtain ⟨hname, haccessor, -⟩ := ValueProperty.ofAccessor_spec hp
  refine ⟨model, log, _, hmodel, hall ▸ List.mem_cons_of_mem _ List.mem_cons_self, haccessor,
    fun default hkept => ?_⟩
  have hsyntax : count.hasGetterSyntax = true := by
    rw [ValueProperty.hasGetterSyntax, haccessor]
    exact Bool.or_true _
  rw [ValueProperty.isKept_iff_of_hasGetterSyntax (ValueProperty.getterName?_of_ofAccessor hp)
    hsyntax, hname, haccessor] at hkept
  exact absurd hkept (by decide +kernel)

end DataClassGen
