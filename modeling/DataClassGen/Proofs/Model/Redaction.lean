import DataClassGen.Proofs.Model.Accessors
import DataClassGen.Proofs.Names

/-!
# Values that must not be shown

An annotation called `Redacted`, in whatever package, says of a class or of an accessor that a value
must not be shown. It is taken off where it stood, and the data class gets one in its place: either
itself, if the class or each of its accessors is marked, or else each property whose accessor is
(`redaction_is_kept`). No mark is lost on the way, and none is written twice.

What an annotation becomes keeps its simple name. So the ones that are carried along are no marks,
and those that are written are exactly the ones that were put in.
-/

namespace DataClassGen

open Source

/-! ### Marks -/

/-- The annotation says that a value must not be shown. -/
def AnnotationUse.isRedaction (a : AnnotationUse) : Bool := a.simpleName == "Redacted"

/-- The annotation says that a value must not be shown. -/
def Source.Annotation.isRedaction (a : Annotation) : Bool := a.cls.simpleName == "Redacted"

/-- One of the annotations says that a value must not be shown. -/
def hasRedaction (annotations : List AnnotationUse) : Bool :=
  annotations.any AnnotationUse.isRedaction

namespace AnnotationUse

/-- The mark that this one becomes. -/
def redaction (a : AnnotationUse) : Annotation := { cls := .ofCanonical a.typeName }

/-- A mark is one by its simple name, and no other meaning goes before this one. -/
theorem redactedClass?_eq (a : AnnotationUse) :
    a.redactedClass? = if a.isRedaction then some a.redaction.cls else none := by
  by_cases h : a.isRedaction = true
  · have hname : a.simpleName = "Redacted" := beq_iff_eq.mp h
    rw [if_pos h, redactedClass?, marker, hname]
    rfl
  · have hname : (a.simpleName == "Redacted") = false := Bool.eq_false_iff.mpr h
    rw [if_neg h, redactedClass?, marker, hname]
    simp only [Bool.false_eq_true, if_false]
    split_ifs <;> rfl

theorem isRedaction_redaction (a : AnnotationUse) : a.redaction.isRedaction = a.isRedaction := by
  unfold Annotation.isRedaction
  rw [redaction, ClassName.simpleName_ofCanonical, isRedaction, simpleName]

/-- What an annotation becomes is a mark just when it is one itself. -/
theorem isRedaction_convert (a : AnnotationUse) : a.convert.isRedaction = a.isRedaction :=
  isRedaction_redaction a

theorem isRedaction_convertOnType (a : AnnotationUse) :
    a.convertOnType.isRedaction = a.isRedaction := by
  rw [convertOnType]
  split <;> exact isRedaction_convert a

/-- No mark is carried along by a property. -/
theorem not_isRedaction_of_isCarried {a : AnnotationUse} {name : String}
    (h : a.marker.isCarried name = true) : a.isRedaction = false := by
  by_contra hredaction
  have hclass := a.redactedClass?_eq
  rw [if_pos (by simpa using hredaction), redactedClass?] at hclass
  split at hclass
  · next hmarker =>
    rw [hmarker] at h
    cases h
  · cases hclass

end AnnotationUse

/-- The first mark among the annotations tells the class. -/
theorem redactedClassOf_eq_some {annotations : List AnnotationUse} {cls : ClassName}
    (h : redactedClassOf annotations = some cls) :
    ∃ a ∈ annotations, a.isRedaction = true ∧ cls = a.redaction.cls := by
  obtain ⟨a, ha, hcls⟩ := List.exists_of_findSome?_eq_some h
  rw [a.redactedClass?_eq] at hcls
  split at hcls
  · next hredaction => exact ⟨a, ha, hredaction, (Option.some.inj hcls).symm⟩
  · cases hcls

theorem isSome_redactedClassOf (annotations : List AnnotationUse) :
    (redactedClassOf annotations).isSome = hasRedaction annotations := by
  induction annotations with
  | nil => rfl
  | cons a annotations ih =>
    rw [redactedClassOf, List.findSome?_cons, a.redactedClass?_eq, hasRedaction, List.any_cons]
    cases a.isRedaction
    · exact ih
    · rfl

theorem redactedClassOf_append (first second : List AnnotationUse) :
    redactedClassOf (first ++ second) = (redactedClassOf first).or (redactedClassOf second) :=
  List.findSome?_append

theorem redactedClassOf_flatMap (methods : List Method) :
    redactedClassOf (methods.flatMap (·.annotations)) =
      methods.findSome? fun m => redactedClassOf m.annotations := by
  induction methods with
  | nil => rfl
  | cons m methods ih =>
    rw [List.flatMap_cons, redactedClassOf_append, ih, List.findSome?_cons]
    cases redactedClassOf m.annotations <;> rfl

/-- No mark carries over to the data class. -/
theorem filter_isRedaction_classAnnotations (annotations : List AnnotationUse) :
    (classAnnotations annotations).filter Annotation.isRedaction = [] := by
  refine List.filter_eq_nil_iff.mpr fun b hb => ?_
  obtain ⟨a, ha, rfl⟩ := List.mem_map.mp hb
  obtain ⟨-, ha⟩ := List.mem_filter.mp ha
  rw [AnnotationUse.carriesOver, a.redactedClass?_eq, Bool.and_eq_true] at ha
  rw [a.isRedaction_convertOnType]
  intro hredaction
  rw [if_pos hredaction] at ha
  exact absurd ha.2 (by simp)

/-- The mark of a class, if there is the class and it is one of marks. -/
def markOf (cls : Option ClassName) : List Annotation :=
  (cls.toList.map fun cls => { cls : Annotation }).filter Annotation.isRedaction

namespace ValueProperty

/-- A property remembers whether its accessor is marked, and carries no mark itself. -/
theorem redaction_of_ofAccessor {name : String} {m : Method} {p : ValueProperty}
    (h : ofAccessor name m = .ok p) :
    p.isRedacted = hasRedaction m.annotations ∧
      p.annotations.filter Annotation.isRedaction = [] := by
  obtain ⟨-, -, hannotations, -, hredacted⟩ := ofAccessor_spec h
  refine ⟨by rw [hredacted, isSome_redactedClassOf], ?_⟩
  rw [hannotations]
  refine List.filter_eq_nil_iff.mpr fun b hb => ?_
  obtain ⟨a, ha, rfl⟩ := List.mem_map.mp hb
  obtain ⟨-, ha⟩ := List.mem_filter.mp ha
  rw [a.isRedaction_convert, AnnotationUse.not_isRedaction_of_isCarried ha]
  exact Bool.false_ne_true

/-- A property in the constructor has the mark that is put in, if it carries none. -/
theorem filter_isRedaction_toConstructorProperty {p : ValueProperty}
    (hp : p.annotations.filter Annotation.isRedaction = []) (cls : Option ClassName)
    (isClassRedacted : Bool) (default : Option Code) :
    (p.toConstructorProperty cls isClassRedacted default).property.annotations.filter
        Annotation.isRedaction =
      if p.isRedacted && !isClassRedacted then markOf cls else [] := by
  have hgetter : ∀ b : Bool, (if b then [{ jvmName p.accessorName with onGetter := true }]
      else []).filter Annotation.isRedaction = [] := by
    rintro (_ | _) <;> rfl
  simp only [toConstructorProperty, List.filter_append, hp, hgetter, List.nil_append]
  cases cls <;> cases p.isRedacted && !isClassRedacted <;> simp [markOf]

end ValueProperty

/-! ### Value classes -/

namespace TypeElement

/-- The annotations on a value class and on its accessors. -/
def valueAnnotations (e : TypeElement) : List AnnotationUse :=
  e.annotations ++ e.accessors.flatMap (·.annotations)

/-- No value of the class must be shown: the class is marked, or it has accessors and each of them
is. -/
def isRedacted (e : TypeElement) : Bool :=
  hasRedaction e.annotations ||
    (!e.accessors.isEmpty && e.accessors.all fun m => hasRedaction m.annotations)

theorem hasRedaction_of_accessor {e : TypeElement} {m : Method} (hm : m ∈ e.accessors)
    (h : hasRedaction m.annotations = true) : hasRedaction e.valueAnnotations = true := by
  obtain ⟨a, ha, hredaction⟩ := List.any_eq_true.mp h
  exact List.any_eq_true.mpr
    ⟨a, List.mem_append_right _ (List.mem_flatMap.mpr ⟨m, hm, ha⟩), hredaction⟩

theorem hasRedaction_of_isRedacted {e : TypeElement} (h : e.isRedacted = true) :
    hasRedaction e.valueAnnotations = true := by
  rcases Bool.or_eq_true_iff.mp h with h | h
  · obtain ⟨a, ha, hredaction⟩ := List.any_eq_true.mp h
    exact List.any_eq_true.mpr ⟨a, List.mem_append_left _ ha, hredaction⟩
  · obtain ⟨hsome, hall⟩ := Bool.and_eq_true_iff.mp h
    obtain ⟨m, hm⟩ := List.exists_mem_of_ne_nil e.accessors (by simpa using hsome)
    exact hasRedaction_of_accessor hm (List.all_eq_true.mp hall m hm)

end TypeElement

/-- The annotations have one mark, and a mark on the class or on an accessor became it. -/
def HaveOneMarkOf (e : TypeElement) (annotations : List Annotation) : Prop :=
  ∃ a ∈ e.valueAnnotations, a.isRedaction = true ∧
    annotations.filter Annotation.isRedaction = [a.redaction]

/-- The annotations have no mark. -/
def HaveNoMark (annotations : List Annotation) : Prop :=
  annotations.filter Annotation.isRedaction = []

namespace ClassModel

/-- The model knows which properties are marked, whether the class is redacted as a whole, and the
class of the first mark. -/
theorem redaction_of_ofElement? {e : TypeElement} {enumChildren : List String} {model : ClassModel}
    {log log' : Log} (h : (ofElement? e enumChildren).runOn log = (.ok (some model), log')) :
    e.accessors.Forall₂ (fun m p => p.name = e.propertyName m ∧
      p.isRedacted = hasRedaction m.annotations ∧ HaveNoMark p.annotations)
      model.properties.properties ∧
    HaveNoMark model.annotations ∧ model.isRedacted = e.isRedacted ∧
    model.redactedClass = redactedClassOf e.valueAnnotations := by
  obtain ⟨hproperties, hannotations, hredacted, hclass⟩ := accessors_of_ofElement? h
  have hmarks := hproperties.imp fun m p hp =>
    And.intro (ValueProperty.ofAccessor_spec hp).1 (ValueProperty.redaction_of_ofAccessor hp)
  have hmap := map_of_forall₂ (k := fun p : ValueProperty => p.isRedacted)
    (fun m p hp => hp.2.1) hmarks
  refine ⟨hmarks, hannotations ▸ filter_isRedaction_classAnnotations e.annotations, ?_, ?_⟩
  · rw [hredacted, hmap, isSome_redactedClassOf, isClassRedacted, TypeElement.isRedacted,
      List.all_map, List.isEmpty_map]
    rfl
  · rw [hclass, TypeElement.valueAnnotations, redactedClassOf_append, redactedClassOf_flatMap]

/-- A mark on the class or an accessor tells the mark that is put in. -/
theorem exists_mark {e : TypeElement} (h : hasRedaction e.valueAnnotations = true) :
    ∃ a ∈ e.valueAnnotations, a.isRedaction = true ∧
      markOf (redactedClassOf e.valueAnnotations) = [a.redaction] := by
  rw [← isSome_redactedClassOf] at h
  obtain ⟨cls, hcls⟩ := Option.isSome_iff_exists.mp h
  obtain ⟨a, ha, hredaction, rfl⟩ := redactedClassOf_eq_some hcls
  refine ⟨a, ha, hredaction, ?_⟩
  rw [hcls]
  exact List.filter_cons_of_pos (a.isRedaction_redaction.trans hredaction)

/-- The data class has the mark that is put in, if it is redacted as a whole. -/
theorem filter_isRedaction_declaredAnnotations {c : ClassModel} (h : HaveNoMark c.annotations) :
    c.declaredAnnotations.filter Annotation.isRedaction =
      if c.isRedacted then markOf c.redactedClass else [] := by
  have hparcelable : ∀ b : Bool, (if b then
      [{ cls := .ofCanonical parcelizeAnnotation : Annotation }] else []).filter
        Annotation.isRedaction = [] := by
    rintro (_ | _)
    · rfl
    · decide +kernel
  simp only [declaredAnnotations, List.filter_append, hparcelable, List.append_nil]
  rw [h, List.nil_append]
  cases c.redactedClass <;> cases c.isRedacted <;> simp [markOf]

/-- The data class says that its values must not be shown just where the value class does. If the
class or each of its accessors is marked, then the data class has one mark and its properties have
none; if not, then it has none, and a property has one if its accessor is marked and none if it is
not. Every mark that is written is of the class of a mark that was there. -/
theorem redaction_is_kept {e : TypeElement} {enumChildren : List String} {model : ClassModel}
    {d : TypeDecl} {log log' : Log}
    (hmodel : (ofElement? e enumChildren).runOn log = (.ok (some model), log'))
    (hd : model.toDeclaration = .ok d) :
    ∃ constructor, d.constructor = some constructor ∧
      if e.isRedacted then
        HaveOneMarkOf e d.annotations ∧
          ∀ q ∈ constructor.properties, HaveNoMark q.property.annotations
      else
        HaveNoMark d.annotations ∧
          e.accessors.Forall₂ (fun m q => q.property.name = e.propertyName m ∧
            if hasRedaction m.annotations then HaveOneMarkOf e q.property.annotations
            else HaveNoMark q.property.annotations) constructor.properties := by
  obtain ⟨hproperties, hnone, hredacted, hclass⟩ := redaction_of_ofElement? hmodel
  obtain ⟨hannotations, -, constructor, hconstructor, hdeclared⟩ := constructor_of_toDeclaration hd
  have hclassMark := filter_isRedaction_declaredAnnotations hnone
  rw [← hannotations, hclass, hredacted] at hclassMark
  have hpropertyMarks : e.accessors.Forall₂ (fun m q => q.property.name = e.propertyName m ∧
      q.property.annotations.filter Annotation.isRedaction =
        if hasRedaction m.annotations && !e.isRedacted then
          markOf (redactedClassOf e.valueAnnotations)
        else []) constructor.properties := by
    refine forall₂_trans (fun m p q hp hq => ?_) hproperties hdeclared
    obtain ⟨hname, hmarked, hplain⟩ := hp
    obtain ⟨default, rfl⟩ := hq
    refine ⟨hname, ?_⟩
    rw [ValueProperty.filter_isRedaction_toConstructorProperty hplain, hmarked, hredacted, hclass]
  refine ⟨constructor, hconstructor, ?_⟩
  split
  · next hwhole =>
    rw [if_pos hwhole] at hclassMark
    obtain ⟨a, ha, hredaction, hmark⟩ := exists_mark (TypeElement.hasRedaction_of_isRedacted hwhole)
    refine ⟨⟨a, ha, hredaction, hclassMark.trans hmark⟩, fun q hq => ?_⟩
    obtain ⟨m, -, -, hq⟩ := exists_of_mem_forall₂ hpropertyMarks hq
    rw [hwhole, Bool.not_true, Bool.and_false] at hq
    exact hq
  · next hwhole =>
    rw [if_neg hwhole] at hclassMark
    refine ⟨hclassMark, ?_⟩
    have hmembers := (List.forall₂_and_left _ _).mpr ⟨fun m hm => hm, hpropertyMarks⟩
    refine hmembers.imp fun m q hq => ⟨hq.2.1, ?_⟩
    have hmark := hq.2.2
    rw [Bool.eq_false_iff.mpr hwhole, Bool.not_false, Bool.and_true] at hmark
    split
    · next hmarked =>
      rw [if_pos hmarked] at hmark
      obtain ⟨a, ha, hredaction, hput⟩ :=
        exists_mark (TypeElement.hasRedaction_of_accessor hq.1 hmarked)
      exact ⟨a, ha, hredaction, hmark.trans hput⟩
    · next hmarked => rwa [if_neg hmarked] at hmark

/-- A value class with an accessor that is marked twice, and one that is not. -/
def accountElement : TypeElement :=
  let string : TypeUse := .declared "java.lang.String" []
  { qualifiedName := "test.Account"
    package := "test"
    annotations := [{ typeName := valueClassMarker }]
    methods := [
      { name := "user", modifiers := [.abstract], returnType := string },
      { name := "password", modifiers := [.abstract], returnType := string,
        annotations := [{ typeName := "test.Redacted" }, { typeName := "other.Redacted" }] }] }

/-- The password gets one mark of the two, and nothing else does. -/
theorem account_redaction_is_kept : ∃ model d log,
    (ofElement? accountElement []).runOn [] = (.ok (some model), log) ∧
    model.toDeclaration = .ok d ∧
    ∃ constructor, d.constructor = some constructor ∧ HaveNoMark d.annotations ∧
      accountElement.accessors.Forall₂ (fun m q =>
        q.property.name = accountElement.propertyName m ∧
        if hasRedaction m.annotations then HaveOneMarkOf accountElement q.property.annotations
        else HaveNoMark q.property.annotations) constructor.properties := by
  obtain ⟨model, d, log, hmodel, hd⟩ :=
    exists_of_hasDeclaration accountElement (by decide +kernel)
  obtain ⟨constructor, hconstructor, hmarks⟩ := redaction_is_kept hmodel hd
  have hwhole : accountElement.isRedacted = false := by decide +kernel
  rw [hwhole] at hmarks
  exact ⟨model, d, log, hmodel, hd, constructor, hconstructor, hmarks⟩

end ClassModel

end DataClassGen
