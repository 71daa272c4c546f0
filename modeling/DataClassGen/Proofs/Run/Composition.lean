import DataClassGen.Proofs.Failing
import DataClassGen.Proofs.Run.Intake

/-!
# Composing files

A file is composed from the outline of its class: the class with the outlines of the classes and
enums in it, in the order of the children it lists. `Composes` says which outlines a list of
children has in a registry, and which registry is left; `Stops` says how composing can fail. Every
composition does one of the two (`composing_spec`), and what comes of one that does not fail is
written down by its outlines and nothing else.

The classes with files of their own are composed in the same way, except that no enum and no
skipped class is looked for under their names. Both relations cover them as the children of no
class.
-/

namespace DataClassGen

open Source

/-- What a class or an enum in a file is made of. -/
inductive Outline where
  /-- A class with what is nested in it. -/
  | cls (model : ClassModel) (inner : List Outline)
  /-- An enum. -/
  | enum (model : EnumModel)

namespace Outline

mutual

/-- The declaration of an outline: that of its class, and behind it those of what is nested in
it. -/
def declaration : Outline → Except Failure TypeDecl
  | .cls model inner => do
    let declaration ← model.toDeclaration
    let types ← declarations inner
    return { declaration with types := declaration.types ++ types }
  | .enum model => .ok model.toDeclaration

/-- The declarations of outlines. -/
def declarations : List Outline → Except Failure (List TypeDecl)
  | [] => .ok []
  | outline :: outlines => do
    let type ← declaration outline
    let types ← declarations outlines
    return type :: types

end

end Outline

namespace Registry

/-! ### The steps of a composition -/

/-- The declarations of children, and the registry without them. -/
def composing (r : Registry) (parent : String) (children : List String) :
    Except Failure (List TypeDecl) × Registry :=
  ((r.composeChildren parent children).result, (r.composeChildren parent children).registry)

/-- What composes the children of a class. -/
abbrev Composing := Registry → String → List String → Except Failure (List TypeDecl) × Registry

/-- The declaration of a class that was taken out of the registry, its children composed by
`composing`, and the registry without what is nested in it. -/
def closing (composing : Composing) (r : Registry) (model : ClassModel) :
    Except Failure TypeDecl × Registry :=
  match model.toDeclaration with
  | .error failure => (.error failure, r)
  | .ok declaration =>
    match composing r model.qualifiedName model.children with
    | (.error failure, r₁) => (.error failure, r₁)
    | (.ok types, r₁) =>
      match r₁.transition model.qualifiedName .composed with
      | .error failure => (.error failure, r₁)
      | .ok r₂ => (.ok { declaration with types := declaration.types ++ types }, r₂)

/-- The declaration of a class that was taken out of the registry, and the registry without what is
nested in it. -/
def composingClass (r : Registry) (model : ClassModel) : Except Failure TypeDecl × Registry :=
  closing composing r model

theorem composing_nil (r : Registry) (parent : String) : r.composing parent [] = (.ok [], r) := by
  simp [composing, composeChildren]

theorem composingClass_of_declared {r : Registry} {model : ClassModel} {declaration : TypeDecl}
    (h : model.toDeclaration = .ok declaration) :
    r.composingClass model =
      let inner := (r.composeChildren model.qualifiedName model.children).close model.qualifiedName
        declaration
      (inner.result, inner.registry) := by
  simp only [composingClass, closing, h, composing, Composed.close]
  cases (r.composeChildren model.qualifiedName model.children).result with
  | error failure => rfl
  | ok types =>
    simp only
    split
    · next htransition => split <;> simp_all
    · next htransition => split <;> simp_all

theorem composing_cons (r : Registry) (parent child : String) (rest : List String) :
    r.composing parent (child :: rest) =
      match r.enums.lookup child with
      | some model =>
        ((((r.withoutEnum child).composing parent rest).1).map (model.toDeclaration :: ·),
          ((r.withoutEnum child).composing parent rest).2)
      | none =>
        if r.state? child = some .skipped then r.composing parent rest
        else
          match r.classes.lookup child with
          | none => (.error (.missingChild child parent), r)
          | some model =>
            match (r.withoutClass child).composingClass model with
            | (.error failure, r₁) => (.error failure, r₁)
            | (.ok type, r₁) =>
              (((r₁.composing parent rest).1).map (type :: ·), (r₁.composing parent rest).2) := by
  rw [composing, composeChildren]
  cases r.enums.lookup child with
  | some model => rfl
  | none =>
    simp only
    split
    · rfl
    · split
      · next hchild => simp only [hchild]
      · next model hchild =>
        simp only [hchild]
        split
        · next failure hdeclared => simp only [composingClass, closing, hdeclared]
        · next declaration hdeclared =>
          rw [composingClass_of_declared hdeclared]
          split <;> next hresult => simp only [hresult, composing]

/-- Composing adds no classes. -/
theorem length_composing_le (r : Registry) (parent : String) (children : List String) :
    (r.composing parent children).2.classes.length ≤ r.classes.length :=
  (r.composeChildren parent children).length_le

theorem length_composingClass_le (r : Registry) (model : ClassModel) :
    (r.composingClass model).2.classes.length ≤ r.classes.length := by
  have hle := r.length_composing_le model.qualifiedName model.children
  rw [composingClass, closing]
  split
  · exact Nat.le_refl _
  · split
    · next hcomposing =>
      rw [hcomposing] at hle
      exact hle
    · next hcomposing =>
      rw [hcomposing] at hle
      split
      · exact hle
      · next htransition =>
        rw [← classes_of_transition htransition] at hle
        exact hle

/-! ### What is composed, and what stops it -/

/-- The child of `outer` must be a class: `outer` is no class, or else the child is neither an enum
nor skipped. -/
def MustBeClass (r : Registry) (outer : Option String) (child : String) : Prop :=
  outer ≠ none → r.enums.lookup child = none ∧ r.state? child ≠ some .skipped

/-- The children of `outer` have these outlines, and the registry `r` becomes `r'` by composing
them. -/
inductive Composes : Option String → Registry → List String → List Outline → Registry → Prop
  | done (outer : Option String) (r : Registry) : Composes outer r [] [] r
  /-- An enum takes its place. -/
  | enum {outer : String} {r r' : Registry} {child : String} {rest : List String}
      {model : EnumModel} {outlines : List Outline} (found : r.enums.lookup child = some model)
      (after : Composes (some outer) (r.withoutEnum child) rest outlines r') :
      Composes (some outer) r (child :: rest) (.enum model :: outlines) r'
  /-- A skipped class has no place. -/
  | skipped {outer : String} {r r' : Registry} {child : String} {rest : List String}
      {outlines : List Outline} (noEnum : r.enums.lookup child = none)
      (isSkipped : r.state? child = some .skipped)
      (after : Composes (some outer) r rest outlines r') :
      Composes (some outer) r (child :: rest) outlines r'
  /-- A class takes its place with its own children. -/
  | cls {outer : Option String} {r r₁ r₂ r' : Registry} {child : String} {rest : List String}
      {model : ClassModel} {inner outlines : List Outline} (must : r.MustBeClass outer child)
      (found : r.classes.lookup child = some model)
      (inside : Composes (some model.qualifiedName) (r.withoutClass child) model.children inner r₁)
      (entered : r₁.transition model.qualifiedName .composed = .ok r₂)
      (after : Composes outer r₂ rest outlines r') :
      Composes outer r (child :: rest) (.cls model inner :: outlines) r'

/-- Composing the children of `outer` stops with a failure: at a child that is missing, at a class
without a declaration or in a state that it cannot be composed in, or further on or inside. -/
inductive Stops : Option String → Registry → List String → Failure → Prop
  | missing {outer : Option String} {r : Registry} {child : String} (rest : List String)
      (must : r.MustBeClass outer child) (missing : r.classes.lookup child = none) :
      Stops outer r (child :: rest) (.missingChild child (outer.getD "<root>"))
  | undeclared {outer : Option String} {r : Registry} {child : String} (rest : List String)
      {model : ClassModel} {failure : Failure} (must : r.MustBeClass outer child)
      (found : r.classes.lookup child = some model)
      (undeclared : model.toDeclaration = .error failure) : Stops outer r (child :: rest) failure
  | inside {outer : Option String} {r : Registry} {child : String} (rest : List String)
      {model : ClassModel} {failure : Failure} (must : r.MustBeClass outer child)
      (found : r.classes.lookup child = some model)
      (inside : Stops (some model.qualifiedName) (r.withoutClass child) model.children failure) :
      Stops outer r (child :: rest) failure
  | closing {outer : Option String} {r r₁ : Registry} {child : String} (rest : List String)
      {model : ClassModel} {inner : List Outline} {failure : Failure}
      (must : r.MustBeClass outer child) (found : r.classes.lookup child = some model)
      (inside : Composes (some model.qualifiedName) (r.withoutClass child) model.children inner r₁)
      (notEntered : r₁.transition model.qualifiedName .composed = .error failure) :
      Stops outer r (child :: rest) failure
  | afterEnum {outer : String} {r : Registry} {child : String} {rest : List String}
      {model : EnumModel} {failure : Failure} (found : r.enums.lookup child = some model)
      (after : Stops (some outer) (r.withoutEnum child) rest failure) :
      Stops (some outer) r (child :: rest) failure
  | afterSkipped {outer : String} {r : Registry} {child : String} {rest : List String}
      {failure : Failure} (noEnum : r.enums.lookup child = none)
      (isSkipped : r.state? child = some .skipped) (after : Stops (some outer) r rest failure) :
      Stops (some outer) r (child :: rest) failure
  | afterClass {outer : Option String} {r r₁ r₂ : Registry} {child : String} {rest : List String}
      {model : ClassModel} {inner : List Outline} {failure : Failure}
      (must : r.MustBeClass outer child) (found : r.classes.lookup child = some model)
      (inside : Composes (some model.qualifiedName) (r.withoutClass child) model.children inner r₁)
      (entered : r₁.transition model.qualifiedName .composed = .ok r₂)
      (after : Stops outer r₂ rest failure) : Stops outer r (child :: rest) failure

/-- Composing children gives the declarations of their outlines, or stops. -/
def ComposingSpec (r : Registry) (parent : String) (children : List String) : Prop :=
  (∃ types outlines r', r.composing parent children = (.ok types, r') ∧
      Composes (some parent) r children outlines r' ∧ Outline.declarations outlines = .ok types) ∨
    ∃ failure r', r.composing parent children = (.error failure, r') ∧
      Stops (some parent) r children failure

/-- What comes of a class that was taken out, if its children keep to their specification. -/
theorem composingClass_spec {r : Registry} {model : ClassModel}
    (h : r.ComposingSpec model.qualifiedName model.children) :
    (∃ type inner r₁ r₂, r.composingClass model = (.ok type, r₂) ∧
        Composes (some model.qualifiedName) r model.children inner r₁ ∧
        r₁.transition model.qualifiedName .composed = .ok r₂ ∧ r₂.classes = r₁.classes ∧
        r₁.classes.length ≤ r.classes.length ∧ (Outline.cls model inner).declaration = .ok type) ∨
      ∃ failure r₂, r.composingClass model = (.error failure, r₂) ∧
        ∀ (outer : Option String) (r₀ : Registry) (child : String) (rest : List String),
          r₀.withoutClass child = r → r₀.MustBeClass outer child →
          r₀.classes.lookup child = some model → Stops outer r₀ (child :: rest) failure := by
  have hlength := r.length_composing_le model.qualifiedName model.children
  cases hdeclared : model.toDeclaration with
  | error failure =>
    refine Or.inr ⟨failure, r, by simp only [composingClass, closing, hdeclared], ?_⟩
    intro outer r₀ child rest _ must found
    exact Stops.undeclared rest must found hdeclared
  | ok declaration =>
    rcases h with ⟨types, inner, r₁, hcomposing, hcomposes, hinner⟩ | ⟨failure, r₁, hcomposing, hstops⟩
    · rw [hcomposing] at hlength
      cases htransition : r₁.transition model.qualifiedName .composed with
      | error failure =>
        refine Or.inr ⟨failure, r₁, by simp only [composingClass, closing, hdeclared, hcomposing, htransition],
          ?_⟩
        rintro outer r₀ child rest rfl must found
        exact Stops.closing rest must found hcomposes htransition
      | ok r₂ =>
        refine Or.inl ⟨{ declaration with types := declaration.types ++ types }, inner, r₁, r₂,
          by simp only [composingClass, closing, hdeclared, hcomposing, htransition], hcomposes, htransition,
          classes_of_transition htransition, hlength, ?_⟩
        simp only [Outline.declaration, hdeclared, hinner, bind, Except.bind, pure, Except.pure]
    · refine Or.inr ⟨failure, r₁, by simp only [composingClass, closing, hdeclared, hcomposing], ?_⟩
      rintro outer r₀ child rest rfl must found
      exact Stops.inside rest must found hstops

/-- Composing gives the declarations of outlines, or stops. The induction is on the number of
classes, which a class that is taken out makes smaller, and then on the children. -/
theorem composing_spec (r : Registry) (parent : String) (children : List String) :
    r.ComposingSpec parent children := by
  induction hn : r.classes.length using Nat.strong_induction_on generalizing r parent children with
  | _ n ihClasses =>
  induction children generalizing r with
  | nil => exact Or.inl ⟨[], [], r, r.composing_nil parent, Composes.done _ r, rfl⟩
  | cons child rest ihRest =>
    have hcons := r.composing_cons parent child rest
    cases henum : r.enums.lookup child with
    | some model =>
      simp only [henum] at hcons
      rcases ihRest (r.withoutEnum child) hn with
        ⟨types, outlines, r', hrest, hcomposes, htypes⟩ | ⟨failure, r', hrest, hstops⟩
      · refine Or.inl ⟨model.toDeclaration :: types, .enum model :: outlines, r', ?_,
          Composes.enum henum hcomposes, ?_⟩
        · rw [hcons, hrest]
          rfl
        · simp only [Outline.declarations, Outline.declaration, htypes, bind, Except.bind, pure,
            Except.pure]
      · refine Or.inr ⟨failure, r', ?_, Stops.afterEnum henum hstops⟩
        rw [hcons, hrest]
        rfl
    | none =>
      simp only [henum] at hcons
      by_cases hskipped : r.state? child = some .skipped
      · rw [if_pos hskipped] at hcons
        rcases ihRest r hn with
          ⟨types, outlines, r', hrest, hcomposes, htypes⟩ | ⟨failure, r', hrest, hstops⟩
        · exact Or.inl ⟨types, outlines, r', hcons.trans hrest,
            Composes.skipped henum hskipped hcomposes, htypes⟩
        · exact Or.inr ⟨failure, r', hcons.trans hrest, Stops.afterSkipped henum hskipped hstops⟩
      · rw [if_neg hskipped] at hcons
        have must : r.MustBeClass (some parent) child := fun _ => ⟨henum, hskipped⟩
        cases hchild : r.classes.lookup child with
        | none =>
          simp only [hchild] at hcons
          exact Or.inr ⟨.missingChild child parent, r, hcons, Stops.missing rest must hchild⟩
        | some model =>
          simp only [hchild] at hcons
          have hlt : (r.withoutClass child).classes.length < n := by
            rw [← hn]
            exact length_eraseKey_lt hchild
          rcases composingClass_spec (ihClasses _ hlt (r.withoutClass child) model.qualifiedName
            model.children rfl) with
            ⟨type, inner, r₁, r₂, hclass, hinner, hentered, hclasses, hle, htype⟩ |
              ⟨failure, r₂, hclass, hstops⟩
          · rw [hclass] at hcons
            simp only at hcons
            have hlt' : r₂.classes.length < n := by
              rw [hclasses]
              exact Nat.lt_of_le_of_lt hle hlt
            rcases ihClasses _ hlt' r₂ parent rest rfl with
              ⟨types, outlines, r', hrest, hcomposes, htypes⟩ | ⟨failure, r', hrest, hstops⟩
            · refine Or.inl ⟨type :: types, .cls model inner :: outlines, r', ?_,
                Composes.cls must hchild hinner hentered hcomposes, ?_⟩
              · rw [hcons, hrest]
                rfl
              · simp only [Outline.declarations, htype, htypes, bind, Except.bind, pure, Except.pure]
            · refine Or.inr ⟨failure, r', ?_, Stops.afterClass must hchild hinner hentered hstops⟩
              rw [hcons, hrest]
              rfl
          · rw [hclass] at hcons
            exact Or.inr ⟨failure, r₂, hcons, hstops (some parent) r child rest rfl must hchild⟩

/-- A class whose children are composed, and which has a declaration, is composed. -/
theorem composingClass_of_composing {r r₁ r₂ : Registry} {model : ClassModel}
    {inner : List Outline} {types : List TypeDecl} {type : TypeDecl}
    (hinner : r.composing model.qualifiedName model.children = (.ok types, r₁))
    (htypes : Outline.declarations inner = .ok types)
    (hentered : r₁.transition model.qualifiedName .composed = .ok r₂)
    (htype : (Outline.cls model inner).declaration = .ok type) :
    r.composingClass model = (.ok type, r₂) := by
  rw [Outline.declaration] at htype
  obtain ⟨declaration, hdeclared, htype⟩ := bind_ok_iff.mp htype
  rw [htypes] at htype
  obtain rfl := Except.ok.inj htype
  simp only [composingClass, closing, hdeclared, hinner, hentered]

/-- What outlines with declarations compose to is what composing gives. -/
theorem composing_of_composes {outer : Option String} {r r' : Registry} {children : List String}
    {outlines : List Outline} (h : Composes outer r children outlines r') :
    ∀ {parent : String} {types : List TypeDecl}, outer = some parent →
      Outline.declarations outlines = .ok types →
      r.composing parent children = (.ok types, r') := by
  induction h with
  | done outer r =>
    intro parent types _ htypes
    obtain rfl := Except.ok.inj htypes
    exact r.composing_nil parent
  | enum found after ih =>
    intro parent types houter htypes
    rw [Outline.declarations] at htypes
    obtain ⟨type, htype, htypes⟩ := bind_ok_iff.mp htypes
    obtain ⟨rest, hrest, htypes⟩ := bind_ok_iff.mp htypes
    obtain rfl := Except.ok.inj htype
    obtain rfl := Except.ok.inj htypes
    rw [composing_cons, found]
    simp only [ih houter hrest]
    rfl
  | skipped noEnum isSkipped after ih =>
    intro parent types houter htypes
    rw [composing_cons, noEnum]
    simp only [if_pos isSkipped]
    exact ih houter htypes
  | cls must found inside entered after ihInside ihAfter =>
    intro parent types houter htypes
    rw [Outline.declarations] at htypes
    obtain ⟨type, htype, htypes⟩ := bind_ok_iff.mp htypes
    obtain ⟨rest, hrest, htypes⟩ := bind_ok_iff.mp htypes
    obtain rfl := Except.ok.inj htypes
    obtain ⟨declaration, -, hinner⟩ := bind_ok_iff.mp (Outline.declaration.eq_1 _ _ ▸ htype)
    obtain ⟨inner, hinner, -⟩ := bind_ok_iff.mp hinner
    have hclass := composingClass_of_composing (ihInside rfl hinner) hinner entered htype
    obtain ⟨henum, hskipped⟩ := must (by rw [houter]; exact Option.some_ne_none parent)
    rw [composing_cons, henum]
    simp only [if_neg hskipped, found, hclass, ihAfter houter hrest]
    rfl

end Registry

end DataClassGen
