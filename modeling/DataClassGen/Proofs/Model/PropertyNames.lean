import DataClassGen.Proofs.Model.GetterNames
import DataClassGen.Proofs.Source.LetterCase
import Mathlib.Data.List.Pairwise

/-!
# The names of properties

A property has the name of its accessor, or what is left of it without the prefix of a bean, with
its first letter made small. Accessors take nothing, so that no two have one name. Their properties
have, though, where an accessor with `get` and one with `is` go on alike, as `getOpen` and `isOpen`
do. Among names that go on with a capital of ASCII this is the only way; elsewhere two capitals can
have one small letter (`property_names_nodup_iff`).
-/

namespace DataClassGen

open Source

/-! ### Names of beans -/

theorem TypeUse.isBoolean_iff {use : TypeUse} :
    use.isBoolean = true ↔ use = .primitive .boolean := by
  unfold isBoolean
  split <;> simp_all

namespace Method

variable {m m' : Method} {rest rest' : String}

/-- The name is this rest behind the prefix of a bean: `get`, or `is` for a truth value. -/
def IsBeanNamed (m : Method) (rest : String) : Prop :=
  m.name = "get" ++ rest ∨ m.name = "is" ++ rest ∧ m.returnType = .primitive .boolean

theorem get_append_ne_is_append (rest rest' : String) : "get" ++ rest ≠ "is" ++ rest' := by
  intro h
  have hget := Text.beginsWith_append "get" rest
  rw [h, Text.not_beginsWith_get] at hget
  cases hget

theorem capitalizedAfter?_eq_some_iff {start : String} :
    m.capitalizedAfter? start = some rest ↔
      m.name = start ++ rest ∧ ClassName.isCapitalized rest = true := by
  unfold capitalizedAfter?
  rw [Option.filter_eq_some_iff]
  refine and_congr_left fun _ => ⟨Text.eq_append_of_after?, fun h => ?_⟩
  rw [h, Text.after?_append]

/-- A method has the prefix of a bean if its name has, and goes on with a capital. -/
theorem beanName?_eq_some_iff :
    m.beanName? = some rest ↔ m.IsBeanNamed rest ∧ ClassName.isCapitalized rest = true := by
  unfold beanName? IsBeanNamed
  split
  · next found hget =>
    obtain ⟨hname, hcapital⟩ := capitalizedAfter?_eq_some_iff.mp hget
    constructor
    · rintro ⟨⟩
      exact ⟨Or.inl hname, hcapital⟩
    · rintro ⟨hget' | ⟨his, -⟩, -⟩
      · rw [(String.append_right_inj "get").mp (hname.symm.trans hget')]
      · exact absurd (hname.symm.trans his) (get_append_ne_is_append _ _)
  · next hnone =>
    have hget (hcapital : ClassName.isCapitalized rest = true) : m.name ≠ "get" ++ rest := fun h =>
      Option.some_ne_none rest (hnone ▸ capitalizedAfter?_eq_some_iff.mpr ⟨h, hcapital⟩).symm
    split
    · next hboolean =>
      rw [capitalizedAfter?_eq_some_iff, ← TypeUse.isBoolean_iff, hboolean]
      refine and_congr_left fun hcapital => ?_
      simp [hget hcapital]
    · next hboolean =>
      rw [← TypeUse.isBoolean_iff]
      refine iff_of_false (by simp) ?_
      rintro ⟨hname | ⟨-, htruth⟩, hcapital⟩
      · exact hget hcapital hname
      · exact hboolean htruth

/-- What is behind `get` in the name is what is behind the prefix. -/
theorem IsBeanNamed.of_get (h : m.IsBeanNamed rest) (hget : m.name = "get" ++ rest') :
    rest = rest' := by
  rcases h with h | ⟨h, -⟩
  · exact (String.append_right_inj "get").mp (h.symm.trans hget)
  · exact absurd (hget.symm.trans h) (get_append_ne_is_append rest' rest)

/-- What is behind `is` in the name is what is behind the prefix. -/
theorem IsBeanNamed.of_is (h : m.IsBeanNamed rest) (his : m.name = "is" ++ rest') :
    rest = rest' := by
  rcases h with h | ⟨h, -⟩
  · exact absurd (h.symm.trans his) (get_append_ne_is_append rest rest')
  · exact (String.append_right_inj "is").mp (h.symm.trans his)

/-- Two names that go on alike have different prefixes. -/
theorem IsBeanNamed.get_and_is (h : m.IsBeanNamed rest) (h' : m'.IsBeanNamed rest)
    (hne : m.name ≠ m'.name) :
    m.name = "get" ++ rest ∧ m'.name = "is" ++ rest ∨
      m.name = "is" ++ rest ∧ m'.name = "get" ++ rest := by
  rcases h with h | ⟨h, -⟩ <;> rcases h' with h' | ⟨h', -⟩
  · exact absurd (h.trans h'.symm) hne
  · exact Or.inl ⟨h, h'⟩
  · exact Or.inr ⟨h, h'⟩
  · exact absurd (h.trans h'.symm) hne

theorem beanName?_of_isBeanNamed (h : m.IsBeanNamed rest)
    (hcapital : startsAsciiCapital rest = true) : m.beanName? = some rest := by
  refine beanName?_eq_some_iff.mpr ⟨h, ?_⟩
  rcases eq_empty_or_cons rest with rfl | ⟨first, others, rfl⟩
  · cases hcapital
  · rw [startsAsciiCapital_cons] at hcapital
    simp [ClassName.isCapitalized, Text.isCapital_of_isAsciiCapital hcapital]

/-- Without the prefixes of beans, the properties of the two accessors have different names. -/
def NamesApart (m m' : Method) : Prop :=
  ∀ rest rest', m.beanName? = some rest → m'.beanName? = some rest' →
    decapitalize rest ≠ decapitalize rest'

instance : Std.Symm NamesApart where
  symm _ _ h rest rest' hrest hrest' := (h rest' rest hrest' hrest).symm

/-- Two names that go on with capitals of ASCII lose their difference only if they go on alike. -/
theorem namesApart_iff (h : m.beanName? = some rest) (h' : m'.beanName? = some rest')
    (hcapital : startsAsciiCapital rest = true) (hcapital' : startsAsciiCapital rest' = true) :
    m.NamesApart m' ↔ rest ≠ rest' := by
  simp [NamesApart, h, h', decapitalize_inj hcapital hcapital']

end Method

/-! ### Names of properties -/

/-- The accessors of a class whose builder has this name. -/
def TypeElement.accessorsBeside (e : TypeElement) (builder : Option String) : List Method :=
  e.methods.filter (Method.isAccessor builder)

/-- They all have the prefixes of a bean. -/
def AreBeans (accessors : List Method) : Prop := accessors.all (·.beanName?.isSome) = true

theorem AreBeans.exists {accessors : List Method} (h : AreBeans accessors) {m : Method}
    (hm : m ∈ accessors) : ∃ rest, m.beanName? = some rest :=
  Option.isSome_iff_exists.mp (List.all_eq_true.mp h m hm)

namespace PropertySet

variable {builder : Option String} {e : TypeElement} {set : PropertySet}

theorem map_name_of_ofElement (h : ofElement builder e = .ok set) :
    set.properties.map (·.name) = (e.accessorsBeside builder).map
      (propertyName ((e.accessorsBeside builder).all (·.beanName?.isSome))) := by
  obtain ⟨properties, hproperties, h⟩ := bind_ok_iff.mp h
  rw [← Except.ok.inj h]
  exact map_of_mapM (fun m p hp => (ValueProperty.ofAccessor_spec hp).1) hproperties

theorem propertyName_of_beans {m : Method} {rest : String} (hrest : m.beanName? = some rest) :
    propertyName true m = decapitalize rest := by
  rw [propertyName, hrest]
  rfl

theorem propertyName_of_not_beans (m : Method) : propertyName false m = m.name := by
  rw [propertyName]
  cases m.beanName? <;> rfl

/-- Accessors take nothing. -/
theorem nodup_accessor_names
    (hnames : ((e.methods.filter (·.parameters.isEmpty)).map (·.name)).Nodup) :
    ((e.accessorsBeside builder).map (·.name)).Nodup := by
  refine hnames.sublist (List.Sublist.map _ ?_)
  refine List.monotone_filter_right e.methods fun m hm => ?_
  simp only [Method.isAccessor, Bool.and_eq_true] at hm
  exact hm.1.1.2

/-- Of beans, the properties have different names just when the names of any two accessors are apart
without the prefixes. -/
theorem nodup_names_iff_of_beans {accessors : List Method} (hbeans : AreBeans accessors) :
    (accessors.map (propertyName true)).Nodup ↔ accessors.Pairwise Method.NamesApart := by
  rw [List.Nodup, List.pairwise_map]
  have hiff : ∀ m ∈ accessors, ∀ m' ∈ accessors,
      propertyName true m ≠ propertyName true m' ↔ m.NamesApart m' := by
    intro m hm m' hm'
    obtain ⟨rest, hrest⟩ := hbeans.exists hm
    obtain ⟨rest', hrest'⟩ := hbeans.exists hm'
    simp [propertyName_of_beans hrest, propertyName_of_beans hrest', Method.NamesApart, hrest, hrest']
  constructor
  · exact fun h => h.imp_of_mem fun hm hm' => (hiff _ hm _ hm').mp
  · exact fun h => h.imp_of_mem fun hm hm' => (hiff _ hm _ hm').mpr

/-- If the names go on with capitals of ASCII, they are apart without the prefixes unless one has
`get` and one has `is` in front of the same. -/
theorem namesApart_iff_of_ascii {accessors : List Method} (hbeans : AreBeans accessors)
    (hnames : (accessors.map (·.name)).Nodup)
    (hcapitals : ∀ m ∈ accessors, ∀ rest, m.beanName? = some rest → startsAsciiCapital rest = true) :
    accessors.Pairwise Method.NamesApart ↔
      ¬∃ rest, "get" ++ rest ∈ accessors.map (·.name) ∧ "is" ++ rest ∈ accessors.map (·.name) := by
  have hbean : ∀ m ∈ accessors, ∃ rest, m.beanName? = some rest ∧ m.IsBeanNamed rest ∧
      startsAsciiCapital rest = true := by
    intro m hm
    obtain ⟨rest, hrest⟩ := hbeans.exists hm
    exact ⟨rest, hrest, (Method.beanName?_eq_some_iff.mp hrest).1, hcapitals m hm rest hrest⟩
  constructor
  · rintro hpairs ⟨rest, hget, his⟩
    obtain ⟨m, hm, hname⟩ := List.mem_map.mp hget
    obtain ⟨m', hm', hname'⟩ := List.mem_map.mp his
    have hne : m ≠ m' := by
      rintro rfl
      exact Method.get_append_ne_is_append rest rest (hname.symm.trans hname')
    obtain ⟨found, hfound, hnamed, hcapital⟩ := hbean m hm
    obtain ⟨found', hfound', hnamed', hcapital'⟩ := hbean m' hm'
    refine (Method.namesApart_iff hfound hfound' hcapital hcapital').mp
      (hpairs.forall hm hm' hne) ?_
    rw [hnamed.of_get hname, hnamed'.of_is hname']
  · intro hnone
    refine (List.Nodup.of_map _ hnames).pairwise_of_forall_ne fun m hm m' hm' hne => ?_
    obtain ⟨rest, hrest, hnamed, hcapital⟩ := hbean m hm
    obtain ⟨rest', hrest', hnamed', hcapital'⟩ := hbean m' hm'
    rw [Method.namesApart_iff hrest hrest' hcapital hcapital']
    rintro rfl
    have hdiffer : m.name ≠ m'.name := fun h => hne (List.inj_on_of_nodup_map hnames hm hm' h)
    have hmem := List.mem_map_of_mem (f := (·.name)) hm
    have hmem' := List.mem_map_of_mem (f := (·.name)) hm'
    rcases hnamed.get_and_is hnamed' hdiffer with ⟨hget, his⟩ | ⟨his, hget⟩
    · exact hnone ⟨rest, hget ▸ hmem, his ▸ hmem'⟩
    · exact hnone ⟨rest, hget ▸ hmem', his ▸ hmem⟩

/-- In a class whose methods that take nothing have different names, the properties have different
names unless the accessors all have the prefixes of a bean and two of the names are not apart
without them. If the names go on with capitals of ASCII, those are two that go on alike, one behind
`get` and one behind `is`. -/
theorem property_names_nodup_iff (h : ofElement builder e = .ok set)
    (hnames : ((e.methods.filter (·.parameters.isEmpty)).map (·.name)).Nodup) :
    ((set.properties.map (·.name)).Nodup ↔ (AreBeans (e.accessorsBeside builder) →
      (e.accessorsBeside builder).Pairwise Method.NamesApart)) ∧
    ((∀ m ∈ e.accessorsBeside builder, ∀ rest, m.beanName? = some rest →
        startsAsciiCapital rest = true) →
      ((set.properties.map (·.name)).Nodup ↔ (AreBeans (e.accessorsBeside builder) →
        ¬∃ rest, "get" ++ rest ∈ (e.accessorsBeside builder).map (·.name) ∧
          "is" ++ rest ∈ (e.accessorsBeside builder).map (·.name)))) := by
  have hset := map_name_of_ofElement h
  have haccessors : ((e.accessorsBeside builder).map (·.name)).Nodup := nodup_accessor_names hnames
  generalize e.accessorsBeside builder = accessors at hset haccessors ⊢
  rw [hset]
  by_cases hbeans : AreBeans accessors
  · rw [show (accessors.all fun m => m.beanName?.isSome) = true from hbeans,
      nodup_names_iff_of_beans hbeans]
    refine ⟨by simp [hbeans], fun hcapitals => ?_⟩
    rw [namesApart_iff_of_ascii hbeans haccessors hcapitals]
    simp [hbeans]
  · rw [show (accessors.all fun m => m.beanName?.isSome) = false from
      Bool.eq_false_of_not_eq_true hbeans]
    have hnodup : (accessors.map (propertyName false)).Nodup := by
      rwa [List.map_congr_left fun m _ => propertyName_of_not_beans m]
    exact ⟨iff_of_true hnodup fun hall => absurd hall hbeans,
      fun _ => iff_of_true hnodup fun hall => absurd hall hbeans⟩

end PropertySet

/-- A value class with two accessors that go on alike behind the prefixes of beans. -/
def doorElement : TypeElement :=
  { qualifiedName := "test.Door"
    package := "test"
    annotations := [{ typeName := valueClassMarker }]
    methods := [
      { name := "getOpen", modifiers := [.abstract], returnType := .declared "test.Opening" [] },
      { name := "isOpen", modifiers := [.abstract], returnType := .primitive .boolean }] }

/-- The names of its accessors differ, but both properties are named `open`. -/
theorem door_properties_share_a_name : ∃ set, PropertySet.ofElement none doorElement = .ok set ∧
    ((doorElement.methods.filter (·.parameters.isEmpty)).map (·.name)).Nodup ∧
    set.properties.map (·.name) = ["open", "open"] ∧ AreBeans (doorElement.accessorsBeside none) ∧
    ¬(doorElement.accessorsBeside none).Pairwise Method.NamesApart := by
  have hnames : ((doorElement.methods.filter (·.parameters.isEmpty)).map (·.name)).Nodup := by decide
  have hbeans : AreBeans (doorElement.accessorsBeside none) := by unfold AreBeans; decide +kernel
  have hrun : (PropertySet.ofElement none doorElement).map (·.properties.map (·.name)) =
      .ok ["open", "open"] := by decide +kernel
  cases hset : PropertySet.ofElement none doorElement with
  | error failure =>
    rw [hset] at hrun
    cases hrun
  | ok set =>
    rw [hset] at hrun
    have hopen : set.properties.map (·.name) = ["open", "open"] := Except.ok.inj hrun
    have hiff := (PropertySet.property_names_nodup_iff hset hnames).1
    refine ⟨set, rfl, hnames, hopen, hbeans, fun hapart => ?_⟩
    have hnodup := hiff.mpr fun _ => hapart
    rw [hopen] at hnodup
    exact absurd hnodup (by decide)

end DataClassGen
