import DataClassGen.Run.Candidate

/-!
# The types of a round

The types of a round are its elements and all that is nested in them, however deep, each with the
type that it is declared in. The value classes of the round are those of its types that are value
classes, so what holds of the types holds of them.
-/

namespace DataClassGen

namespace TypeElement

/-- The type as one that is declared in `outer`, unless it says itself what it is declared in. -/
def declaredIn (outer : Option EnclosingType) (e : TypeElement) : TypeElement :=
  { e with enclosing := e.enclosing <|> outer }

mutual

/-- A type and the types nested in it, outer ones first, each with what it is declared in. -/
def types (outer : Option EnclosingType) : TypeElement → List TypeElement
  | ⟨qualifiedName, package, kind, modifiers, annotations, doc, superclass, interfaces,
      typeParameters, fields, methods, nestedTypes, enclosing⟩ =>
    let element := declaredIn outer ⟨qualifiedName, package, kind, modifiers, annotations, doc,
      superclass, interfaces, typeParameters, fields, methods, nestedTypes, enclosing⟩
    element :: typesOfAll (some element.asEnclosing) nestedTypes

/-- Some types and the types nested in them, in order. -/
def typesOfAll (outer : Option EnclosingType) : List TypeElement → List TypeElement
  | [] => []
  | element :: elements => types outer element ++ typesOfAll outer elements

end

theorem types_eq (outer : Option EnclosingType) (e : TypeElement) :
    e.types outer =
      e.declaredIn outer :: typesOfAll (some (e.declaredIn outer).asEnclosing) e.nestedTypes := by
  cases e; rfl

theorem valueClasses_eq (outer : Option EnclosingType) (e : TypeElement) :
    e.valueClasses outer =
      (if (e.declaredIn outer).isValueClass then [e.declaredIn outer] else []) ++
        valueClassesOfAll (some (e.declaredIn outer).asEnclosing) e.nestedTypes := by
  cases e; rfl

mutual

/-- The value classes among some types are those of the types that are value classes. -/
theorem valueClasses_eq_filter (outer : Option EnclosingType) (e : TypeElement) :
    e.valueClasses outer = (e.types outer).filter (·.isValueClass) := by
  have : sizeOf e.nestedTypes < sizeOf e := by cases e; simp; omega
  rw [valueClasses_eq, types_eq, valueClassesOfAll_eq_filter, List.filter_cons]
  split <;> rfl

theorem valueClassesOfAll_eq_filter (outer : Option EnclosingType) (es : List TypeElement) :
    valueClassesOfAll outer es = (typesOfAll outer es).filter (·.isValueClass) := by
  cases es with
  | nil => rfl
  | cons e es =>
    rw [valueClassesOfAll, typesOfAll, List.filter_append, valueClasses_eq_filter,
      valueClassesOfAll_eq_filter]

end

theorem mem_typesOfAll {outer : Option EnclosingType} {es : List TypeElement} {t : TypeElement} :
    t ∈ typesOfAll outer es ↔ ∃ e ∈ es, t ∈ e.types outer := by
  induction es with
  | nil => simp [typesOfAll]
  | cons e es ih => simp [typesOfAll, ih]

theorem map_declaredIn_sublist (outer : Option EnclosingType) (es : List TypeElement) :
    (es.map (declaredIn outer)).Sublist (typesOfAll outer es) := by
  induction es with
  | nil => exact List.Sublist.refl []
  | cons e es ih =>
    rw [List.map_cons, typesOfAll, types_eq, List.cons_append]
    exact (ih.trans (List.sublist_append_right _ _)).cons_cons _

mutual

/-- The types that are nested in one of some types are among them too. -/
theorem nested_sublist_types {outer : Option EnclosingType} (e : TypeElement) {t : TypeElement}
    (ht : t ∈ e.types outer) :
    (t.nestedTypes.map (declaredIn (some t.asEnclosing))).Sublist (e.types outer) := by
  have : sizeOf e.nestedTypes < sizeOf e := by cases e; simp; omega
  rw [types_eq] at ht ⊢
  rcases List.mem_cons.mp ht with rfl | ht
  · exact (map_declaredIn_sublist _ _).cons _
  · exact (nested_sublist_typesOfAll e.nestedTypes ht).cons _

theorem nested_sublist_typesOfAll {outer : Option EnclosingType} (es : List TypeElement)
    {t : TypeElement} (ht : t ∈ typesOfAll outer es) :
    (t.nestedTypes.map (declaredIn (some t.asEnclosing))).Sublist (typesOfAll outer es) := by
  cases es with
  | nil => cases ht
  | cons e es =>
    rw [typesOfAll] at ht ⊢
    rcases List.mem_append.mp ht with ht | ht
    · exact (nested_sublist_types e ht).trans (List.sublist_append_left _ _)
    · exact (nested_sublist_typesOfAll es ht).trans (List.sublist_append_right _ _)

end

mutual

/-- A type among some types is one of them, or nested in one that is among them. -/
theorem mem_types_cases {outer : Option EnclosingType} (e : TypeElement) {t : TypeElement}
    (ht : t ∈ e.types outer) : t = e.declaredIn outer ∨
      ∃ p ∈ e.types outer, ∃ u ∈ p.nestedTypes, t = u.declaredIn (some p.asEnclosing) := by
  have : sizeOf e.nestedTypes < sizeOf e := by cases e; simp; omega
  rw [types_eq] at ht ⊢
  rcases List.mem_cons.mp ht with rfl | ht
  · exact Or.inl rfl
  · rcases mem_typesOfAll_cases e.nestedTypes ht with ⟨u, hu, rfl⟩ | ⟨p, hp, hnested⟩
    · exact Or.inr ⟨e.declaredIn outer, List.mem_cons_self, u, hu, rfl⟩
    · exact Or.inr ⟨p, List.mem_cons_of_mem _ hp, hnested⟩

theorem mem_typesOfAll_cases {outer : Option EnclosingType} (es : List TypeElement)
    {t : TypeElement} (ht : t ∈ typesOfAll outer es) : (∃ e ∈ es, t = e.declaredIn outer) ∨
      ∃ p ∈ typesOfAll outer es, ∃ u ∈ p.nestedTypes, t = u.declaredIn (some p.asEnclosing) := by
  cases es with
  | nil => cases ht
  | cons e es =>
    rw [typesOfAll] at ht ⊢
    rcases List.mem_append.mp ht with ht | ht
    · rcases mem_types_cases e ht with rfl | ⟨p, hp, hnested⟩
      · exact Or.inl ⟨e, List.mem_cons_self, rfl⟩
      · exact Or.inr ⟨p, List.mem_append_left _ hp, hnested⟩
    · rcases mem_typesOfAll_cases es ht with ⟨u, hu, rfl⟩ | ⟨p, hp, hnested⟩
      · exact Or.inl ⟨u, List.mem_cons_of_mem _ hu, rfl⟩
      · exact Or.inr ⟨p, List.mem_append_right _ hp, hnested⟩

end

end TypeElement

/-- The types of a round, in the order in which they are seen. -/
def Round.types (round : Round) : List TypeElement := TypeElement.typesOfAll none round.elements

/-- The value classes of a round are those of its types that are value classes. -/
theorem Round.valueClasses_eq_filter (round : Round) :
    round.valueClasses = round.types.filter (·.isValueClass) :=
  TypeElement.valueClassesOfAll_eq_filter none round.elements

theorem Round.flatMap_valueClasses_eq_filter (rounds : List Round) :
    rounds.flatMap Round.valueClasses = (rounds.flatMap Round.types).filter (·.isValueClass) := by
  rw [List.filter_flatMap, funext Round.valueClasses_eq_filter]

theorem Round.mem_types_of_mem_valueClasses {round : Round} {e : TypeElement}
    (h : e ∈ round.valueClasses) : e ∈ round.types := by
  rw [round.valueClasses_eq_filter] at h
  exact (List.mem_filter.mp h).1

theorem Round.valueClasses_sublist_types (rounds : List Round) :
    (rounds.flatMap Round.valueClasses).Sublist (rounds.flatMap Round.types) := by
  rw [Round.flatMap_valueClasses_eq_filter]
  exact List.filter_sublist

theorem Round.nested_sublist_types {round : Round} {t : TypeElement} (ht : t ∈ round.types) :
    (t.nestedTypes.map (TypeElement.declaredIn (some t.asEnclosing))).Sublist round.types :=
  TypeElement.nested_sublist_typesOfAll round.elements ht

/-- A type that is nested in a type of the rounds is a type of the rounds. -/
theorem Round.nested_mem_types {rounds : List Round} {t u : TypeElement}
    (ht : t ∈ rounds.flatMap Round.types) (hu : u ∈ t.nestedTypes) :
    u.declaredIn (some t.asEnclosing) ∈ rounds.flatMap Round.types := by
  obtain ⟨round, hround, ht⟩ := List.mem_flatMap.mp ht
  exact List.mem_flatMap.mpr
    ⟨round, hround, (Round.nested_sublist_types ht).subset (List.mem_map_of_mem hu)⟩

/-- A type of a round is one of its elements or nested in a type of the round. -/
theorem Round.mem_types_cases {round : Round} {t : TypeElement} (ht : t ∈ round.types) :
    (∃ e ∈ round.elements, t = e.declaredIn none) ∨
      ∃ p ∈ round.types, ∃ u ∈ p.nestedTypes, t = u.declaredIn (some p.asEnclosing) :=
  TypeElement.mem_typesOfAll_cases round.elements ht

/-! ### A round to look at -/

/-- A type without members in the package `test`. -/
def TypeElement.bare (qualifiedName : String) (nestedTypes : List TypeElement) : TypeElement :=
  { qualifiedName, package := "test", nestedTypes }

/-- A value class without members in the package `test`. -/
def TypeElement.bareValueClass (qualifiedName : String) (nestedTypes : List TypeElement) :
    TypeElement :=
  { TypeElement.bare qualifiedName nestedTypes with
    annotations := [{ typeName := valueClassMarker }] }

/-- A value class with another one in it that has an enum, and a type that is no value class with
two of them in it. -/
def Round.mixed : Round := { elements := [
  .bareValueClass "test.A" [.bareValueClass "test.A.B" [
    { TypeElement.bare "test.A.B.E" [] with kind := .enumType }]],
  .bare "test.P" [.bareValueClass "test.P.Q" [.bareValueClass "test.P.Q.R" []]]] }

end DataClassGen
