import DataClassGen.Proofs.Run.Composition

/-!
# The places in files

A place is where a declaration stands: the declaration that it stands directly in, if there is
one, whether it is that of an enum, and its name. The places of outlines say all that composing
did to the registry: the classes and enums that have places are gone, the classes are composed, and
the rest is as it was (`Composes.effect`). No class has two places, and no enum has.
-/

namespace DataClassGen

/-- Where a declaration stands. -/
structure Place where
  /-- The class that it stands directly in; none for the root of a file. -/
  outer : Option String
  isEnum : Bool
  name : String
  deriving DecidableEq

namespace Outline

/-- The canonical name of the class or enum. -/
def name : Outline → String
  | .cls model _ => model.qualifiedName
  | .enum model => model.qualifiedName

mutual

/-- The places of an outline and of what is nested in it, for an outline that stands in `outer`. -/
def places (outer : Option String) : Outline → List Place
  | .cls model inner =>
    ⟨outer, false, model.qualifiedName⟩ :: placesAll (some model.qualifiedName) inner
  | .enum model => [⟨outer, true, model.qualifiedName⟩]

/-- The places of outlines that stand in `outer`. -/
def placesAll (outer : Option String) : List Outline → List Place
  | [] => []
  | outline :: outlines => places outer outline ++ placesAll outer outlines

end

end Outline

namespace Place

/-- The names of the classes among places. -/
def classNames (ps : List Place) : List String := (ps.filter (!·.isEnum)).map (·.name)

/-- The names of the enums among places. -/
def enumNames (ps : List Place) : List String := (ps.filter (·.isEnum)).map (·.name)

@[simp] theorem classNames_nil : classNames [] = [] := rfl

@[simp] theorem enumNames_nil : enumNames [] = [] := rfl

@[simp] theorem classNames_append (ps qs : List Place) :
    classNames (ps ++ qs) = classNames ps ++ classNames qs := by
  simp [classNames]

@[simp] theorem enumNames_append (ps qs : List Place) :
    enumNames (ps ++ qs) = enumNames ps ++ enumNames qs := by
  simp [enumNames]

@[simp] theorem classNames_cons_class (outer : Option String) (name : String) (ps : List Place) :
    classNames (⟨outer, false, name⟩ :: ps) = name :: classNames ps := rfl

@[simp] theorem enumNames_cons_class (outer : Option String) (name : String) (ps : List Place) :
    enumNames (⟨outer, false, name⟩ :: ps) = enumNames ps := rfl

@[simp] theorem classNames_cons_enum (outer : Option String) (name : String) (ps : List Place) :
    classNames (⟨outer, true, name⟩ :: ps) = classNames ps := rfl

@[simp] theorem enumNames_cons_enum (outer : Option String) (name : String) (ps : List Place) :
    enumNames (⟨outer, true, name⟩ :: ps) = name :: enumNames ps := rfl

theorem mem_classNames {ps : List Place} {name : String} :
    name ∈ classNames ps ↔ ∃ outer, ⟨outer, false, name⟩ ∈ ps := by
  simp only [classNames, List.mem_map, List.mem_filter]
  constructor
  · rintro ⟨⟨outer, isEnum, _⟩, ⟨hmem, hclass⟩, rfl⟩
    obtain rfl : isEnum = false := by simpa using hclass
    exact ⟨outer, hmem⟩
  · rintro ⟨outer, hmem⟩
    exact ⟨_, ⟨hmem, rfl⟩, rfl⟩

theorem mem_enumNames {ps : List Place} {name : String} :
    name ∈ enumNames ps ↔ ∃ outer, ⟨outer, true, name⟩ ∈ ps := by
  simp only [enumNames, List.mem_map, List.mem_filter]
  constructor
  · rintro ⟨⟨outer, isEnum, _⟩, ⟨hmem, henum⟩, rfl⟩
    obtain rfl : isEnum = true := henum
    exact ⟨outer, hmem⟩
  · rintro ⟨outer, hmem⟩
    exact ⟨_, ⟨hmem, rfl⟩, rfl⟩

/-- A place is that of a class or that of an enum. -/
theorem countP_name (ps : List Place) (name : String) :
    ps.countP (·.name == name) = (classNames ps).count name + (enumNames ps).count name := by
  induction ps with
  | nil => rfl
  | cons p ps ih =>
    obtain ⟨outer, isEnum, n⟩ := p
    rw [List.countP_cons, ih]
    cases isEnum with
    | false =>
      rw [classNames_cons_class, enumNames_cons_class, List.count_cons]
      dsimp only
      omega
    | true =>
      rw [classNames_cons_enum, enumNames_cons_enum, List.count_cons]
      dsimp only
      omega

end Place

namespace Registry

open Place

/-- The models are registered under their own names. -/
structure Named (r : Registry) : Prop where
  classes : r.ClassesNamed
  enums : r.EnumsNamed

/-! ### What places do to a registry -/

/-- The registry `r` becomes `r'` by giving classes and enums these places: they are gone, the
classes are composed, and all else is as it was. -/
structure Effect (r : Registry) (ps : List Place) (r' : Registry) : Prop where
  classes : r'.classes = r.classes.filter fun e => decide (e.1 ∉ classNames ps)
  enums : r'.enums = r.enums.filter fun e => decide (e.1 ∉ enumNames ps)
  state? : ∀ name, r'.state? name = if name ∈ classNames ps then some .composed else r.state? name
  ordered : Ordered r.states → Ordered r'.states
  /-- No class has two places. -/
  nodup_classes : (classNames ps).Nodup
  /-- No enum has two places. -/
  nodup_enums : (enumNames ps).Nodup
  /-- The classes that have places were registered. -/
  registered : ∀ name ∈ classNames ps, r.classes.lookup name ≠ none
  /-- The enums that have places were registered. -/
  registered_enums : ∀ name ∈ enumNames ps, r.enums.lookup name ≠ none

namespace Effect

variable {r r₁ r₂ r' : Registry} {ps qs : List Place}

theorem refl (r : Registry) : Effect r [] r where
  classes := by simp
  enums := by simp
  state? := by simp
  ordered := id
  nodup_classes := List.nodup_nil
  nodup_enums := List.nodup_nil
  registered := by simp
  registered_enums := by simp

/-- The class is there afterwards just when it was there and has no place. -/
theorem lookup_classes (h : Effect r ps r') (name : String) :
    r'.classes.lookup name = if name ∈ classNames ps then none else r.classes.lookup name := by
  rw [h.classes, lookup_filter (fun name => decide (name ∉ classNames ps))]
  by_cases hname : name ∈ classNames ps
  · simp [hname]
  · simp [hname]

/-- The enum is there afterwards just when it was there and has no place. -/
theorem lookup_enums (h : Effect r ps r') (name : String) :
    r'.enums.lookup name = if name ∈ enumNames ps then none else r.enums.lookup name := by
  rw [h.enums, lookup_filter (fun name => decide (name ∉ enumNames ps))]
  by_cases hname : name ∈ enumNames ps
  · simp [hname]
  · simp [hname]

/-- A class that is there afterwards has no place and was there. -/
theorem class_kept (h : Effect r ps r') {name : String} {model : ClassModel}
    (hmodel : r'.classes.lookup name = some model) :
    name ∉ classNames ps ∧ r.classes.lookup name = some model := by
  rw [h.lookup_classes] at hmodel
  split at hmodel
  · cases hmodel
  · next hnot => exact ⟨hnot, hmodel⟩

/-- An enum that is there afterwards has no place and was there. -/
theorem enum_kept (h : Effect r ps r') {name : String} {model : EnumModel}
    (hmodel : r'.enums.lookup name = some model) :
    name ∉ enumNames ps ∧ r.enums.lookup name = some model := by
  rw [h.lookup_enums] at hmodel
  split at hmodel
  · cases hmodel
  · next hnot => exact ⟨hnot, hmodel⟩

theorem named (h : Effect r ps r') (named : r.Named) : r'.Named where
  classes := fun name model hmodel => named.classes name model (h.class_kept hmodel).2
  enums := fun name model hmodel => named.enums name model (h.enum_kept hmodel).2

/-- What was not there at first has no place. -/
theorem not_mem_classNames (h : Effect r ps r') {name : String}
    (hname : r.classes.lookup name = none) : name ∉ classNames ps :=
  fun hmem => h.registered name hmem hname

/-- One effect after another. What has a place already is gone and gets no second one. -/
theorem append (h : Effect r ps r₁) (h' : Effect r₁ qs r₂) : Effect r (ps ++ qs) r₂ where
  classes := by
    rw [h'.classes, h.classes, List.filter_filter]
    refine List.filter_congr fun e _ => ?_
    simp [Bool.and_comm]
  enums := by
    rw [h'.enums, h.enums, List.filter_filter]
    refine List.filter_congr fun e _ => ?_
    simp [Bool.and_comm]
  state? := fun name => by
    rw [h'.state?, h.state?]
    simp only [classNames_append, List.mem_append]
    by_cases hq : name ∈ classNames qs
    · rw [if_pos hq, if_pos (Or.inr hq)]
    · by_cases hp : name ∈ classNames ps
      · rw [if_neg hq, if_pos hp, if_pos (Or.inl hp)]
      · rw [if_neg hq, if_neg hp, if_neg (by simp [hp, hq])]
  ordered := fun hr => h'.ordered (h.ordered hr)
  nodup_classes := by
    rw [classNames_append]
    refine List.nodup_append'.mpr ⟨h.nodup_classes, h'.nodup_classes, fun name hp hq => ?_⟩
    exact h'.registered name hq (by rw [h.lookup_classes, if_pos hp])
  nodup_enums := by
    rw [enumNames_append]
    refine List.nodup_append'.mpr ⟨h.nodup_enums, h'.nodup_enums, fun name hp hq => ?_⟩
    exact h'.registered_enums name hq (by rw [h.lookup_enums, if_pos hp])
  registered := fun name hname => by
    rw [classNames_append, List.mem_append] at hname
    rcases hname with hp | hq
    · exact h.registered name hp
    · have := h'.registered name hq
      rw [h.lookup_classes] at this
      split at this
      · exact absurd rfl this
      · exact this
  registered_enums := fun name hname => by
    rw [enumNames_append, List.mem_append] at hname
    rcases hname with hp | hq
    · exact h.registered_enums name hp
    · have := h'.registered_enums name hq
      rw [h.lookup_enums] at this
      split at this
      · exact absurd rfl this
      · exact this

/-- An enum has a place. -/
theorem enum (outer : Option String) {name : String} {model : EnumModel}
    (found : r.enums.lookup name = some model) :
    Effect r [⟨outer, true, name⟩] (r.withoutEnum name) where
  classes := by simp [withoutEnum]
  enums := by
    simp only [withoutEnum, eraseKey, enumNames_cons_enum, enumNames_nil, List.mem_singleton]
    refine List.filter_congr fun e _ => ?_
    by_cases he : e.1 = name <;> simp [he]
  state? := by simp [withoutEnum, Registry.state?]
  ordered := id
  nodup_classes := List.nodup_nil
  nodup_enums := List.nodup_singleton name
  registered := by simp
  registered_enums := fun other hother => by
    rw [List.mem_singleton.mp hother, found]
    exact Option.some_ne_none model

/-- A class is taken out, its children have places and it is composed. -/
theorem cls (outer : Option String) {name : String} {model : ClassModel}
    (found : r.classes.lookup name = some model) (inside : Effect (r.withoutClass name) ps r₁)
    (entered : r₁.transition name .composed = .ok r₂) :
    Effect r (⟨outer, false, name⟩ :: ps) r₂ := by
  obtain ⟨source, -, -, rfl⟩ := transition_ok_iff.mp entered
  have hname : name ∉ classNames ps :=
    inside.not_mem_classNames (lookup_eraseKey_self name r.classes)
  exact {
    classes := by
      rw [classes_withState, inside.classes, withoutClass, eraseKey, List.filter_filter]
      refine List.filter_congr fun e _ => ?_
      by_cases he : e.1 = name <;> simp [he]
    enums := by rw [enums_withState, inside.enums, withoutClass, enumNames_cons_class]
    state? := fun other => by
      rw [state?_withState, inside.state?]
      simp only [classNames_cons_class, List.mem_cons]
      by_cases hother : other = name
      · rw [if_pos hother, if_pos (Or.inl hother)]
      · simp only [hother, if_false, false_or]
        rfl
    ordered := fun hr => Ordered.insert (inside.ordered hr) name .composed
    nodup_classes := List.nodup_cons.mpr ⟨hname, inside.nodup_classes⟩
    nodup_enums := inside.nodup_enums
    registered := fun other hother => by
      rcases List.mem_cons.mp hother with rfl | hother
      · rw [found]
        exact Option.some_ne_none model
      · have hne : other ≠ name := fun h => hname (h ▸ hother)
        have := inside.registered other hother
        rwa [withoutClass, lookup_eraseKey_of_ne hne] at this
    registered_enums := inside.registered_enums }

end Effect

theorem Named.withoutClass {r : Registry} (h : r.Named) (name : String) :
    (r.withoutClass name).Named where
  classes := fun other model hmodel => h.classes other model (lookup_of_eraseKey hmodel)
  enums := h.enums

theorem Named.withoutEnum {r : Registry} (h : r.Named) (name : String) :
    (r.withoutEnum name).Named where
  classes := h.classes
  enums := fun other model hmodel => h.enums other model (lookup_of_eraseKey hmodel)

/-- Composing has the effect of the places of the outlines. -/
theorem Composes.effect {outer : Option String} {r r' : Registry} {children : List String}
    {outlines : List Outline} (h : Composes outer r children outlines r') (named : r.Named) :
    Effect r (Outline.placesAll outer outlines) r' := by
  induction h with
  | done outer r => exact Effect.refl r
  | @enum outer r r' child rest model outlines found after ih =>
    obtain rfl : model.qualifiedName = child := named.enums _ _ found
    have here : Effect r [⟨some outer, true, model.qualifiedName⟩] (r.withoutEnum _) :=
      Effect.enum (some outer) found
    exact here.append (ih (here.named named))
  | skipped noEnum isSkipped after ih => exact ih named
  | @cls outer r r₁ r₂ r' child rest model inner outlines must found inside entered after ihInside ihAfter =>
    obtain rfl : model.qualifiedName = child := named.classes _ _ found
    have here := Effect.cls outer found (ihInside (named.withoutClass _)) entered
    exact here.append (ihAfter (here.named named))

/-! ### What is listed -/

/-- A class is registered that lists the child. -/
def Lists (r : Registry) (outer child : String) : Prop :=
  ∃ model, r.classes.lookup outer = some model ∧ child ∈ model.children

theorem Effect.lists {r r' : Registry} {ps : List Place} (h : Effect r ps r') {outer child : String}
    (hlists : r'.Lists outer child) : r.Lists outer child := by
  obtain ⟨model, hmodel, hchild⟩ := hlists
  exact ⟨model, (h.class_kept hmodel).2, hchild⟩

/-- What a class lists does not change while it is registered. -/
theorem Effect.lists_of_registered {r r' : Registry} {ps : List Place} (h : Effect r ps r')
    {outer child : String} (houter : r'.classes.lookup outer ≠ none)
    (hlists : r.Lists outer child) : r'.Lists outer child := by
  obtain ⟨model, hmodel, hchild⟩ := hlists
  have hlookup := h.lookup_classes outer
  split at hlookup
  · exact absurd hlookup houter
  · exact ⟨model, hlookup.trans hmodel, hchild⟩

theorem withoutClass_lists_of_registered {r : Registry} {name outer child : String}
    (houter : (r.withoutClass name).classes.lookup outer ≠ none) (hlists : r.Lists outer child) :
    (r.withoutClass name).Lists outer child := by
  obtain ⟨model, hmodel, hchild⟩ := hlists
  by_cases hname : outer = name
  · rw [hname] at houter
    exact absurd (lookup_eraseKey_self name r.classes) houter
  · refine ⟨model, ?_, hchild⟩
    rw [withoutClass, lookup_eraseKey_of_ne hname]
    exact hmodel

theorem lists_of_withoutClass {r : Registry} {name outer child : String}
    (hlists : (r.withoutClass name).Lists outer child) : r.Lists outer child := by
  obtain ⟨model, hmodel, hchild⟩ := hlists
  exact ⟨model, lookup_of_eraseKey hmodel, hchild⟩

variable {outer : Option String} {r r' : Registry} {children : List String}
  {outlines : List Outline}

/-- Whatever has a place is one of the children, and stands in `outer`, or is listed by the class
that it stands in, which has a place too. No enum is the root of a file. -/
theorem Composes.place_cases (h : Composes outer r children outlines r') (named : r.Named)
    {p : Place} (hp : p ∈ Outline.placesAll outer outlines) :
    (p.outer = outer ∧ p.name ∈ children ∧ (p.isEnum = true → outer ≠ none)) ∨
      ∃ o, p.outer = some o ∧ o ∈ classNames (Outline.placesAll outer outlines) ∧
        r.Lists o p.name := by
  induction h with
  | done outer r => cases hp
  | @enum outer r r' child rest model outlines found after ih =>
    obtain rfl : model.qualifiedName = child := named.enums _ _ found
    have here : Effect r [⟨some outer, true, model.qualifiedName⟩] (r.withoutEnum _) :=
      Effect.enum (some outer) found
    rcases List.mem_append.mp hp with hp | hp
    · rw [List.mem_singleton.mp hp]
      exact Or.inl ⟨rfl, List.mem_cons_self, fun _ => Option.some_ne_none _⟩
    · rcases ih (here.named named) hp with
        ⟨houter, hname, hisEnum⟩ | ⟨o, houter, hplace, hlists⟩
      · exact Or.inl ⟨houter, List.mem_cons_of_mem _ hname, hisEnum⟩
      · exact Or.inr ⟨o, houter, hplace, here.lists hlists⟩
  | skipped noEnum isSkipped after ih =>
    rcases ih named hp with ⟨houter, hname, hisEnum⟩ | hinner
    · exact Or.inl ⟨houter, List.mem_cons_of_mem _ hname, hisEnum⟩
    · exact Or.inr hinner
  | @cls outer r r₁ r₂ r' child rest model inner outlines must found inside entered after ihInside
      ihAfter =>
    obtain rfl : model.qualifiedName = child := named.classes _ _ found
    have hinside := inside.effect (named.withoutClass _)
    have here := Effect.cls outer found hinside entered
    have hmem : model.qualifiedName ∈ classNames
        (Outline.placesAll outer (.cls model inner :: outlines)) := List.mem_cons_self
    rcases List.mem_append.mp hp with hp | hp
    · rcases List.mem_cons.mp hp with rfl | hp
      · exact Or.inl ⟨rfl, List.mem_cons_self, fun hclass => nomatch hclass⟩
      · rcases ihInside (named.withoutClass _) hp with
          ⟨houter, hname, hisEnum⟩ | ⟨o, houter, hplace, hlists⟩
        · exact Or.inr ⟨model.qualifiedName, houter, hmem, model, found, hname⟩
        · refine Or.inr ⟨o, houter, ?_, lists_of_withoutClass hlists⟩
          rw [Outline.placesAll, classNames_append, Outline.places, classNames_cons_class]
          exact List.mem_append_left _ (List.mem_cons_of_mem _ hplace)
    · rcases ihAfter (here.named named) hp with
        ⟨houter, hname, hisEnum⟩ | ⟨o, houter, hplace, hlists⟩
      · exact Or.inl ⟨houter, List.mem_cons_of_mem _ hname, hisEnum⟩
      · refine Or.inr ⟨o, houter, ?_, here.lists hlists⟩
        rw [Outline.placesAll, classNames_append]
        exact List.mem_append_right _ hplace

/-- The children of a class that has places, and those of the classes in it, are no enums any
more. -/
theorem Composes.enum_gone (h : Composes outer r children outlines r') (named : r.Named)
    {child : String}
    (hchild : (outer ≠ none ∧ child ∈ children) ∨
      ∃ o ∈ classNames (Outline.placesAll outer outlines), r.Lists o child) :
    r'.enums.lookup child = none := by
  have gone : ∀ {r r' : Registry} {ps : List Place}, Effect r ps r' →
      r.enums.lookup child = none → r'.enums.lookup child = none := by
    intro r r' ps heffect hnone
    rw [heffect.lookup_enums, hnone, ite_self]
  induction h with
  | done outer r =>
    rcases hchild with ⟨-, hmem⟩ | ⟨o, ho, -⟩
    · cases hmem
    · cases ho
  | @enum outer r r' first rest model outlines found after ih =>
    obtain rfl : model.qualifiedName = first := named.enums _ _ found
    have hafter := after.effect (named.withoutEnum _)
    rcases hchild with ⟨houter, hmem⟩ | ⟨o, ho, hlists⟩
    · rcases List.mem_cons.mp hmem with rfl | hmem
      · exact gone hafter (lookup_eraseKey_self _ r.enums)
      · exact ih (named.withoutEnum _) (Or.inl ⟨houter, hmem⟩)
    · exact ih (named.withoutEnum _) (Or.inr ⟨o, ho, hlists⟩)
  | skipped noEnum isSkipped after ih =>
    rcases hchild with ⟨houter, hmem⟩ | hlisted
    · rcases List.mem_cons.mp hmem with rfl | hmem
      · exact gone (after.effect named) noEnum
      · exact ih named (Or.inl ⟨houter, hmem⟩)
    · exact ih named (Or.inr hlisted)
  | @cls outer r r₁ r₂ r' first rest model inner outlines must found inside entered after ihInside
      ihAfter =>
    obtain rfl : model.qualifiedName = first := named.classes _ _ found
    have hinside := inside.effect (named.withoutClass _)
    have here := Effect.cls outer found hinside entered
    have hafter := after.effect (here.named named)
    obtain ⟨source, -, -, rfl⟩ := transition_ok_iff.mp entered
    rcases hchild with ⟨houter, hmem⟩ | ⟨o, ho, hlists⟩
    · rcases List.mem_cons.mp hmem with rfl | hmem
      · exact gone hafter (gone here (must houter).1)
      · exact ihAfter (here.named named) (Or.inl ⟨houter, hmem⟩)
    · rw [Outline.placesAll, classNames_append, List.mem_append, Outline.places,
        classNames_cons_class, List.mem_cons] at ho
      rcases ho with (rfl | ho) | ho
      · obtain ⟨model', hmodel', hmem⟩ := hlists
        obtain rfl : model = model' := Option.some.inj (found.symm.trans hmodel')
        exact gone hafter (ihInside (named.withoutClass _)
          (Or.inl ⟨Option.some_ne_none _, hmem⟩))
      · exact gone hafter (ihInside (named.withoutClass _)
          (Or.inr ⟨o, ho, withoutClass_lists_of_registered (hinside.registered o ho) hlists⟩))
      · exact ihAfter (here.named named)
          (Or.inr ⟨o, ho, here.lists_of_registered (hafter.registered o ho) hlists⟩)

/-- Composing skips no class. -/
theorem Effect.not_skipped {r r' : Registry} {ps : List Place} (h : Effect r ps r') {name : String}
    (hskipped : r.state? name ≠ some .skipped) : r'.state? name ≠ some .skipped := by
  rw [h.state?]
  split
  · decide
  · exact hskipped

/-- A child that is not skipped has as many places as it is listed, or more. -/
theorem Composes.count_le (h : Composes outer r children outlines r') (named : r.Named)
    {child : String} (hskipped : r.state? child ≠ some .skipped) :
    children.count child ≤ (Outline.placesAll outer outlines).countP (·.name == child) := by
  induction h with
  | done outer r => simp
  | @enum outer r r' first rest model outlines found after ih =>
    obtain rfl : model.qualifiedName = first := named.enums _ _ found
    have hrest := ih (named.withoutEnum _) hskipped
    rw [Outline.placesAll, Outline.places, List.count_cons, List.countP_append,
      List.countP_singleton]
    dsimp only
    omega
  | @skipped outer r r' first rest outlines noEnum isSkipped after ih =>
    have hne : first ≠ child := fun heq => hskipped (heq ▸ isSkipped)
    rw [List.count_cons_of_ne hne]
    exact ih named hskipped
  | @cls outer r r₁ r₂ r' first rest model inner outlines must found inside entered after ihInside
      ihAfter =>
    obtain rfl : model.qualifiedName = first := named.classes _ _ found
    have here := Effect.cls outer found (inside.effect (named.withoutClass _)) entered
    have hrest := ihAfter (here.named named) (here.not_skipped hskipped)
    rw [Outline.placesAll, Outline.places, List.count_cons, List.countP_append, List.countP_cons]
    dsimp only
    omega

/-- The same of the children of the classes that have places. -/
theorem Composes.count_listed_le (h : Composes outer r children outlines r')
    (named : r.Named) {child : String}
    (hskipped : r.state? child ≠ some .skipped) {o : String}
    (ho : o ∈ classNames (Outline.placesAll outer outlines)) {listing : ClassModel}
    (hlisting : r.classes.lookup o = some listing) :
    listing.children.count child ≤
      (Outline.placesAll outer outlines).countP (·.name == child) := by
  induction h with
  | done outer r => cases ho
  | @enum outer r r' first rest model outlines found after ih =>
    obtain rfl : model.qualifiedName = first := named.enums _ _ found
    have hrest := ih (named.withoutEnum _) hskipped ho hlisting
    rw [Outline.placesAll, List.countP_append]
    omega
  | skipped noEnum isSkipped after ih => exact ih named hskipped ho hlisting
  | @cls outer r r₁ r₂ r' first rest model inner outlines must found inside entered after ihInside
      ihAfter =>
    obtain rfl : model.qualifiedName = first := named.classes _ _ found
    have hinside := inside.effect (named.withoutClass _)
    have here := Effect.cls outer found hinside entered
    have hafter := after.effect (here.named named)
    rw [Outline.placesAll, Outline.places, List.countP_append, List.countP_cons]
    rw [Outline.placesAll, classNames_append, List.mem_append, Outline.places,
      classNames_cons_class, List.mem_cons] at ho
    rcases ho with (rfl | ho) | ho
    · obtain rfl : model = listing := Option.some.inj (found.symm.trans hlisting)
      have hskipped' : (r.withoutClass model.qualifiedName).state? child ≠ some .skipped := hskipped
      have := inside.count_le (named.withoutClass _) hskipped'
      omega
    · have hne : o ≠ model.qualifiedName := by
        rintro rfl
        exact hinside.registered _ ho (lookup_eraseKey_self _ r.classes)
      have := ihInside (named.withoutClass _) hskipped ho
        ((lookup_eraseKey_of_ne hne r.classes).trans hlisting)
      omega
    · have hlookup := here.lookup_classes o
      split at hlookup
      · exact absurd hlookup (hafter.registered o ho)
      · have := ihAfter (here.named named) (here.not_skipped hskipped) ho
          (hlookup.trans hlisting)
        omega

/-- What a class with a place lists is skipped, or has a place too. -/
theorem Composes.listed_cases (h : Composes outer r children outlines r') (named : r.Named)
    {o child : String} (ho : o ∈ classNames (Outline.placesAll outer outlines))
    (hlists : r.Lists o child) :
    r.state? child = some .skipped ∨ child ∈ enumNames (Outline.placesAll outer outlines) ∨
      child ∈ classNames (Outline.placesAll outer outlines) := by
  obtain ⟨listing, hlisting, hchild⟩ := hlists
  by_cases hskipped : r.state? child = some .skipped
  · exact Or.inl hskipped
  have hcount := h.count_listed_le named hskipped ho hlisting
  have hlisted : 0 < listing.children.count child := List.count_pos_iff.mpr hchild
  obtain ⟨⟨around, isEnum, name⟩, hp, hname⟩ :=
    List.countP_pos_iff.mp (lt_of_lt_of_le hlisted hcount)
  obtain rfl : name = child := by simpa using hname
  cases isEnum with
  | true => exact Or.inr (Or.inl (mem_enumNames.mpr ⟨around, hp⟩))
  | false => exact Or.inr (Or.inr (mem_classNames.mpr ⟨around, hp⟩))

/-- The classes with files of their own stand at the roots of the files, each at its own. -/
theorem Composes.roots (h : Composes outer r children outlines r') (houter : outer = none)
    (named : r.Named) :
    outlines.map (·.name) = children ∧
      ∀ root ∈ children, ⟨none, false, root⟩ ∈ Outline.placesAll none outlines := by
  induction h with
  | done outer r => exact ⟨rfl, fun root hroot => nomatch hroot⟩
  | enum found after ih => cases houter
  | skipped noEnum isSkipped after ih => cases houter
  | @cls outer r r₁ r₂ r' first rest model inner outlines must found inside entered after ihInside
      ihAfter =>
    obtain rfl : model.qualifiedName = first := named.classes _ _ found
    have here := Effect.cls outer found (inside.effect (named.withoutClass _)) entered
    obtain ⟨hnames, hplaces⟩ := ihAfter houter (here.named named)
    refine ⟨by rw [List.map_cons, hnames, Outline.name], fun root hroot => ?_⟩
    rw [Outline.placesAll, Outline.places]
    rcases List.mem_cons.mp hroot with rfl | hroot
    · exact List.mem_append_left _ List.mem_cons_self
    · exact List.mem_append_right _ (hplaces root hroot)

/-- What holds of the children that are registered as classes, and of a registered class if it holds
of one that lists it, holds of all classes that have places. -/
theorem Composes.place_induction (h : Composes outer r children outlines r') (named : r.Named)
    {P : String → Prop} (start : ∀ child ∈ children, r.classes.lookup child ≠ none → P child)
    (next : ∀ o child, r.Lists o child → P o → r.classes.lookup child ≠ none → P child) :
    ∀ name ∈ classNames (Outline.placesAll outer outlines), P name := by
  induction h with
  | done outer r => exact fun name hname => absurd hname List.not_mem_nil
  | @enum outer r r' child rest model outlines found after ih =>
    obtain rfl : model.qualifiedName = child := named.enums _ _ found
    exact ih (named.withoutEnum _) (fun c hc => start c (List.mem_cons_of_mem _ hc)) next
  | skipped noEnum isSkipped after ih =>
    exact ih named (fun c hc => start c (List.mem_cons_of_mem _ hc)) next
  | @cls outer r r₁ r₂ r' child rest model inner outlines must found inside entered after ihInside
      ihAfter =>
    obtain rfl : model.qualifiedName = child := named.classes _ _ found
    have hinside := inside.effect (named.withoutClass _)
    have here := Effect.cls outer found hinside entered
    have hself := start _ List.mem_cons_self (by rw [found]; exact Option.some_ne_none model)
    have hregistered : ∀ {r₀ : Registry} {c : String},
        (∀ model, r₀.classes.lookup c = some model → r.classes.lookup c = some model) →
          r₀.classes.lookup c ≠ none → r.classes.lookup c ≠ none := by
      intro r₀ c hback hc
      obtain ⟨found, hfound⟩ := Option.ne_none_iff_exists'.mp hc
      rw [hback found hfound]
      exact Option.some_ne_none found
    intro name hname
    rw [Outline.placesAll, classNames_append, List.mem_append, Outline.places,
      classNames_cons_class, List.mem_cons] at hname
    rcases hname with (rfl | hname) | hname
    · exact hself
    · refine ihInside (named.withoutClass _) (fun c hc hfound => ?_) (fun o c hlists ho hfound => ?_)
        name hname
      · exact next _ c ⟨model, found, hc⟩ hself
          (hregistered (fun _ => lookup_of_eraseKey) hfound)
      · exact next o c (lists_of_withoutClass hlists) ho
          (hregistered (fun _ => lookup_of_eraseKey) hfound)
    · refine ihAfter (here.named named) (fun c hc hfound => ?_) (fun o c hlists ho hfound => ?_)
        name hname
      · exact start c (List.mem_cons_of_mem _ hc)
          (hregistered (fun _ hback => (here.class_kept hback).2) hfound)
      · exact next o c (here.lists hlists) ho
          (hregistered (fun _ hback => (here.class_kept hback).2) hfound)

end Registry

end DataClassGen
