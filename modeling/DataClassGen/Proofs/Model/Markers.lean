import DataClassGen.Proofs.Model.Redaction

/-!
# Markers on accessors

Some annotations on an accessor are markers: they are taken off, and what they say of the property
is kept in its type and its flags. A name for JSON is taken off where it repeats the name of the
property. All other annotations survive (`AnnotationUse.Survives`), in their order and each as often
as it is there; the property in the constructor has these, and behind them only those that are made
for it (`markers_are_consumed`).
-/

namespace DataClassGen

open Source

namespace AnnotationUse

variable {a : AnnotationUse} {name : String}

/-! ### Markers by their names -/

/-- The annotation survives on a property of this name: it has not the simple name of a marker, and
does not tell the same name for JSON. -/
def Survives (name : String) (a : AnnotationUse) : Prop :=
  a.simpleName ∉ ["Nullable", "Override", "Redacted", "NonNull", "NotNull", "Nonnull"] ∧
    ¬(a.typeName = "com.squareup.moshi.Json" ∧ (a.stringMember? "name").getD "" = name)

instance (name : String) (a : AnnotationUse) : Decidable (a.Survives name) :=
  inferInstanceAs (Decidable (_ ∧ ¬(_ ∧ _)))

theorem marker_eq_nullable_iff : a.marker = .nullable ↔ a.simpleName = "Nullable" := by
  constructor
  · intro h
    rw [marker] at h
    split_ifs at h with _ hname
    exact beq_iff_eq.mp hname
  · intro hname
    rw [marker, hname]
    rfl

theorem marker_eq_override_iff : a.marker = .override ↔ a.simpleName = "Override" := by
  constructor
  · intro h
    rw [marker] at h
    split_ifs at h with _ _ hname
    exact beq_iff_eq.mp hname
  · intro hname
    rw [marker, hname]
    rfl

theorem marker_of_not_mem
    (h : a.simpleName ∉ ["Nullable", "Override", "Redacted", "NonNull", "NotNull", "Nonnull"]) :
    a.marker = if a.typeName = "com.squareup.moshi.Json" then
      .jsonName ((a.stringMember? "name").getD "") else .other := by
  simp only [List.mem_cons, List.not_mem_nil, or_false, not_or] at h
  obtain ⟨hnullable, hoverride, hredacted, hnonNull, hnotNull, hnonnull⟩ := h
  have hcontains : ["NonNull", "NotNull", "Nonnull"].contains a.simpleName = false := by
    simp [hnonNull, hnotNull, hnonnull]
  simp only [marker, hcontains, beq_iff_eq, hnullable, hoverride, hredacted, jsonNameAnnotation,
    Bool.false_eq_true, if_false]

/-- What is carried along are the annotations that survive. -/
theorem isCarried_marker_iff : a.marker.isCarried name = true ↔ a.Survives name := by
  by_cases hmarker :
      a.simpleName ∈ ["Nullable", "Override", "Redacted", "NonNull", "NotNull", "Nonnull"]
  · refine iff_of_false (fun hcarried => ?_) fun hsurvives => hsurvives.1 hmarker
    simp only [List.mem_cons, List.not_mem_nil, or_false] at hmarker
    rcases hmarker with hname | hname | hname | hname | hname | hname <;>
    · rw [marker, hname] at hcarried
      cases hcarried
  · rw [marker_of_not_mem hmarker, Survives]
    split
    · next hjson => simp [Marker.isCarried, hmarker, hjson]
    · next hjson => simp [Marker.isCarried, hmarker, hjson]

end AnnotationUse

/-! ### Properties -/

namespace ValueProperty

variable {name : String} {m : Method} {p : ValueProperty}

/-- What the markers among the annotations of an accessor say is kept. -/
theorem markers_of_ofAccessor (h : ofAccessor name m = .ok p) :
    (p.type.isNullable = true ↔ ∃ a ∈ m.annotations, a.simpleName = "Nullable") ∧
    (p.isOverride = true ↔ ∃ a ∈ m.annotations, a.simpleName = "Override") ∧
    (p.isRedacted = true ↔ ∃ a ∈ m.annotations, a.simpleName = "Redacted") := by
  obtain ⟨-, -, -, hoverride, hredacted⟩ := ofAccessor_spec h
  obtain ⟨type, -, htype⟩ := type_of_ofAccessor h
  refine ⟨?_, ?_, ?_⟩
  · rw [htype, TypeName.isNullable_withNull, isMarkedNullable, List.any_eq_true]
    simp only [beq_iff_eq, AnnotationUse.marker_eq_nullable_iff]
  · rw [hoverride, List.any_eq_true]
    simp only [beq_iff_eq, AnnotationUse.marker_eq_override_iff]
  · rw [hredacted, isSome_redactedClassOf, hasRedaction, List.any_eq_true]
    simp only [AnnotationUse.isRedaction, beq_iff_eq]

/-- The annotations that survive are carried along. -/
theorem annotations_of_ofAccessor (h : ofAccessor name m = .ok p) :
    p.annotations =
      (m.annotations.filter fun a => decide (a.Survives name)).map AnnotationUse.convert := by
  obtain ⟨-, -, hannotations, -⟩ := ofAccessor_spec h
  rw [hannotations]
  refine congrArg _ (List.filter_congr fun a _ => ?_)
  rw [Bool.eq_iff_iff, AnnotationUse.isCarried_marker_iff, decide_eq_true_eq]

end ValueProperty

/-! ### Annotations that are made -/

namespace Method

/-- What is made for the getter of the property of this name: it keeps the accessor's name, unless
one of the two names has the prefix of a getter or the accessor overrides another. -/
def getterAnnotations (name : String) (m : Method) : List Annotation :=
  if "get".toList <+: name.toList ∨ "get".toList <+: m.name.toList ∨
      ∃ a ∈ m.annotations, a.simpleName = "Override" then []
  else [{ jvmName m.name with onGetter := true }]

/-- What is made for a value that must not be shown: an annotation of the class that is known for
that, unless the whole class is not shown. -/
def redactionAnnotations (redactedClass : Option ClassName) (isClassRedacted : Bool) (m : Method) :
    List Annotation :=
  if isClassRedacted = false ∧ ∃ a ∈ m.annotations, a.simpleName = "Redacted" then
    redactedClass.toList.map fun cls => { cls := cls }
  else []

end Method

namespace ValueProperty

variable {name : String} {m : Method} {p : ValueProperty}

theorem usesGetterSyntax_iff (name accessor : String) : usesGetterSyntax name accessor = true ↔
    "get".toList <+: name.toList ∨ "get".toList <+: accessor.toList := by
  rw [usesGetterSyntax, Bool.or_eq_true, Text.beginsWith, Text.beginsWith,
    List.isPrefixOf_iff_prefix, List.isPrefixOf_iff_prefix]

/-- In the constructor a property has the annotations that it carries along, and those that are made
for its accessor. -/
theorem annotations_of_toConstructorProperty (h : ofAccessor name m = .ok p)
    (redactedClass : Option ClassName) (isClassRedacted : Bool) (default : Option Code) :
    (p.toConstructorProperty redactedClass isClassRedacted default).property.annotations =
      p.annotations ++ m.getterAnnotations name ++
        m.redactionAnnotations redactedClass isClassRedacted := by
  obtain ⟨hname, haccessor, -⟩ := ofAccessor_spec h
  obtain ⟨-, hoverride, hredacted⟩ := markers_of_ofAccessor h
  have hgetter : (if !p.hasGetterSyntax && !p.isOverride then
      [{ jvmName p.accessorName with onGetter := true }] else []) = m.getterAnnotations name := by
    have hreached : ("get".toList <+: name.toList ∨ "get".toList <+: m.name.toList ∨
        ∃ a ∈ m.annotations, a.simpleName = "Override") ↔
          ¬(!p.hasGetterSyntax && !p.isOverride) = true := by
      rw [← or_assoc, ← usesGetterSyntax_iff, ← hoverride, hasGetterSyntax, hname, haccessor]
      cases usesGetterSyntax name m.name <;> cases p.isOverride <;> decide
    rw [Method.getterAnnotations, if_congr hreached rfl rfl, ite_not, haccessor]
  have hmarked : (isClassRedacted = false ∧ ∃ a ∈ m.annotations, a.simpleName = "Redacted") ↔
      (p.isRedacted && !isClassRedacted) = true := by
    rw [← hredacted, Bool.and_eq_true, Bool.not_eq_true', and_comm]
  rw [← hgetter, Method.redactionAnnotations, if_congr hmarked rfl rfl]
  cases redactedClass with
  | none =>
    rw [Option.toList_none, List.map_nil, ite_self]
    rfl
  | some cls => rfl

/-- **Markers are taken off, and everything else survives.** An accessor has a property if the type
that it returns can be converted. The property may be null, overrides another, or must not be shown
just if some annotation of the accessor has the simple name that says so. In the constructor it
has what becomes of the annotations that survive, in their order, and then what is made for it. -/
theorem markers_are_consumed (name : String) (m : Method) :
    (∃ failure, m.returnType.convert = .error failure ∧ ofAccessor name m = .error failure) ∨
    ∃ p, ofAccessor name m = .ok p ∧
      (p.type.isNullable = true ↔ ∃ a ∈ m.annotations, a.simpleName = "Nullable") ∧
      (p.isOverride = true ↔ ∃ a ∈ m.annotations, a.simpleName = "Override") ∧
      (p.isRedacted = true ↔ ∃ a ∈ m.annotations, a.simpleName = "Redacted") ∧
      ∀ redactedClass isClassRedacted default,
        (p.toConstructorProperty redactedClass isClassRedacted default).property.annotations =
          (m.annotations.filter fun a => decide (a.Survives name)).map AnnotationUse.convert ++
            m.getterAnnotations name ++ m.redactionAnnotations redactedClass isClassRedacted := by
  cases htype : m.returnType.convert with
  | error failure => exact .inl ⟨failure, rfl, by rw [ofAccessor, htype]; rfl⟩
  | ok type =>
    obtain ⟨p, hp⟩ : ∃ p, ofAccessor name m = .ok p := ⟨_, by rw [ofAccessor, htype]; rfl⟩
    obtain ⟨hnullable, hoverride, hredacted⟩ := markers_of_ofAccessor hp
    refine .inr ⟨p, hp, hnullable, hoverride, hredacted,
      fun redactedClass isClassRedacted default => ?_⟩
    rw [annotations_of_toConstructorProperty hp, annotations_of_ofAccessor hp]

/-- Of two names for JSON the one that repeats the property's is taken off; the same note survives
twice. -/
example : (ofAccessor "title" {
      name := "title"
      returnType := .declared "java.lang.String" []
      annotations := [
        { typeName := "test.Note" },
        { typeName := "com.squareup.moshi.Json", members := [("name", .string "title")] },
        { typeName := "javax.annotation.Nullable" },
        { typeName := "com.squareup.moshi.Json", members := [("name", .string "t")] },
        { typeName := "test.Redacted" },
        { typeName := "test.Note" }] }).map (fun p =>
      (p.type.isNullable, p.isOverride, p.isRedacted,
        (p.toConstructorProperty (some ⟨"test", ["Redacted"]⟩) false
          none).property.annotations.map (·.cls.canonical))) =
    .ok (true, false, true, ["test.Note", "com.squareup.moshi.Json", "test.Note",
      "kotlin.jvm.JvmName", "test.Redacted"]) := by
  decide +kernel

end ValueProperty

end DataClassGen
