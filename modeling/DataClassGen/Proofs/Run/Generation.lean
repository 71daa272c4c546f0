import DataClassGen.Proofs.Run.Written

/-!
# Generating files

Generating composes the classes with files of their own, one after the other, and drains what is
left. Each file holds the declaration of one outline. So generating either gives the files of
outlines that the registry composes to, or fails where composing stops, or fails in draining
(`generate_spec`).
-/

namespace DataClassGen

open Source

/-! ### Files -/

/-- The file holds the declaration of the outline, at the place for its package and name. -/
inductive IsFileOf (options : Options) : GeneratedFile → Outline → Prop
  | intro {model : ClassModel} {inner : List Outline} {root : TypeDecl} (name : String)
      (declared : (Outline.cls model inner).declaration = .ok root) :
      IsFileOf options {
        path := Path.ofSource options.srcDir model.cls.package model.cls.simpleName
        qualifiedName := name
        contents := ({ package := model.cls.package, root } : SourceFile).emit } (.cls model inner)

namespace Registry

theorem compose_eq (r : Registry) (root : String) :
    r.compose root =
      match r.classes.lookup root with
      | none => (.error (.missingChild root "<root>"), r)
      | some model =>
        ((((r.withoutClass root).composingClass model).1).map
            fun type => { package := model.cls.package, root := type },
          ((r.withoutClass root).composingClass model).2) := by
  rw [compose]
  cases r.classes.lookup root with
  | none => rfl
  | some model =>
    simp only
    cases hdeclared : model.toDeclaration with
    | error failure => simp only [composingClass, closing, hdeclared, Except.map]
    | ok declaration => rw [composingClass_of_declared hdeclared]

end Registry

namespace Session

theorem runOn_generateFile (root : String) (s : Session) :
    (generateFile root).runOn s =
      (((s.registry.compose root).1).map fun file => {
          path := Path.ofSource s.options.srcDir file.package file.root.name
          qualifiedName := root
          contents := file.emit },
        { s with registry := (s.registry.compose root).2 }) := by
  rw [generateFile, Step.runOn_bind, Step.runOn_ofRegistry]
  cases (s.registry.compose root).1 with
  | error failure => rfl
  | ok file => rfl

/-- The file of a class is that of its outline, unless composing stops. -/
theorem runOn_generateFile_cases (root : String) (s : Session) :
    (∃ model inner file r₁ r₂, (generateFile root).runOn s = (.ok file, { s with registry := r₂ }) ∧
        s.registry.classes.lookup root = some model ∧
        Registry.Composes (some model.qualifiedName) (s.registry.withoutClass root) model.children
          inner r₁ ∧
        r₁.transition model.qualifiedName .composed = .ok r₂ ∧ file.qualifiedName = root ∧
        IsFileOf s.options file (.cls model inner)) ∨
      ∃ failure s', (generateFile root).runOn s = (.error failure, s') ∧
        ∀ rest, Registry.Stops none s.registry (root :: rest) failure := by
  have must : s.registry.MustBeClass none root := fun h => absurd rfl h
  have hcompose := s.registry.compose_eq root
  rw [runOn_generateFile]
  cases hroot : s.registry.classes.lookup root with
  | none =>
    simp only [hroot] at hcompose
    rw [hcompose]
    exact Or.inr ⟨_, _, rfl, fun rest => Registry.Stops.missing rest must hroot⟩
  | some model =>
    simp only [hroot] at hcompose
    rcases Registry.composingClass_spec (Registry.composing_spec (s.registry.withoutClass root)
      model.qualifiedName model.children) with
      ⟨type, inner, r₁, r₂, hclass, hinner, hentered, -, -, htype⟩ | ⟨failure, r₂, hclass, hstops⟩
    · rw [hcompose, hclass]
      refine Or.inl ⟨model, inner, _, r₁, r₂, rfl, rfl, hinner, hentered, rfl, ?_⟩
      simp only [Outline.name_of_declaration htype]
      exact IsFileOf.intro root htype
    · rw [hcompose, hclass]
      exact Or.inr ⟨failure, _, rfl, fun rest => hstops none _ root rest rfl must hroot⟩

/-- The files of some classes are those of outlines that the registry composes to, in the order of
the classes, unless composing stops. -/
theorem runOn_generateFiles_cases (roots : List String) (s : Session) :
    (∃ files forest r', (roots.mapM generateFile).runOn s = (.ok files, { s with registry := r' }) ∧
        Registry.Composes none s.registry roots forest r' ∧ files.map (·.qualifiedName) = roots ∧
        List.Forall₂ (IsFileOf s.options) files forest) ∨
      ∃ failure s', (roots.mapM generateFile).runOn s = (.error failure, s') ∧
        Registry.Stops none s.registry roots failure := by
  induction roots generalizing s with
  | nil => exact Or.inl ⟨[], [], s.registry, rfl, Registry.Composes.done _ _, rfl, .nil⟩
  | cons root rest ih =>
    have must : s.registry.MustBeClass none root := fun h => absurd rfl h
    rw [List.mapM_cons, Step.runOn_bind]
    rcases runOn_generateFile_cases root s with
      ⟨model, inner, file, r₁, r₂, hfile, hroot, hinner, hentered, hname, hisFile⟩ |
        ⟨failure, s', hfile, hstops⟩
    · rw [hfile]
      simp only
      rw [Step.runOn_bind]
      rcases ih { s with registry := r₂ } with
        ⟨files, forest, r', hrest, hcomposes, hnames, hfiles⟩ | ⟨failure, s', hrest, hstops⟩
      · rw [hrest]
        refine Or.inl ⟨file :: files, .cls model inner :: forest, r', rfl,
          Registry.Composes.cls must hroot hinner hentered hcomposes, ?_, .cons hisFile hfiles⟩
        rw [List.map_cons, hname, hnames]
      · rw [hrest]
        exact Or.inr ⟨failure, s', rfl,
          Registry.Stops.afterClass must hroot hinner hentered hstops⟩
    · rw [hfile]
      exact Or.inr ⟨failure, s', rfl, hstops rest⟩

/-! ### The whole -/

theorem runOn_generate_of_no_candidates {s : Session} (h : s.candidates = 0) :
    generate.runOn s = (.ok [], { s with
      log := s.log ++ [{ severity := .error, message := noValueClasses }] }) := by
  rw [generate, Step.runOn_get_bind, if_pos h]
  rfl

/-- Generating gives the files of the outlines that the registry composes to and drains what is
left, unless composing stops or draining fails. -/
theorem generate_spec {s : Session} (h : s.candidates ≠ 0) :
    (∃ files forest r₁ r₂, generate.runOn s = (.ok files, { s with registry := r₂ }) ∧
        Registry.Composes none s.registry s.registry.roots forest r₁ ∧ r₁.drain = (.ok (), r₂) ∧
        files.map (·.qualifiedName) = s.registry.roots ∧
        List.Forall₂ (IsFileOf s.options) files forest) ∨
      ∃ failure s', generate.runOn s = (.error failure, s') ∧
        (Registry.Stops none s.registry s.registry.roots failure ∨
          ∃ forest r₁ r₂, Registry.Composes none s.registry s.registry.roots forest r₁ ∧
            r₁.drain = (.error failure, r₂)) := by
  rw [generate, Step.runOn_get_bind, if_neg h, Step.runOn_get_bind, Step.runOn_bind]
  rcases runOn_generateFiles_cases s.registry.roots s with
    ⟨files, forest, r₁, hfiles, hcomposes, hnames, hisFile⟩ | ⟨failure, s', hfiles, hstops⟩
  · rw [hfiles]
    simp only
    rw [Step.runOn_bind, Step.runOn_ofRegistry]
    rcases hdrain : r₁.drain with ⟨failure | ⟨⟩, r₂⟩
    · exact Or.inr ⟨failure, _, rfl, Or.inr ⟨forest, r₁, r₂, hcomposes, hdrain⟩⟩
    · exact Or.inl ⟨files, forest, r₁, r₂, rfl, hcomposes, hdrain, hnames, hisFile⟩
  · rw [hfiles]
    exact Or.inr ⟨failure, s', rfl, Or.inl hstops⟩

/-! ### The way back -/

/-- The file of the outline that a class composes to is what generating it gives. -/
theorem runOn_generateFile_of_composes {root : String} {model : ClassModel} {inner : List Outline}
    {file : GeneratedFile} {s : Session} {r₁ r₂ : Registry}
    (found : s.registry.classes.lookup root = some model)
    (inside : Registry.Composes (some model.qualifiedName) (s.registry.withoutClass root)
      model.children inner r₁)
    (entered : r₁.transition model.qualifiedName .composed = .ok r₂)
    (hname : file.qualifiedName = root) (hfile : IsFileOf s.options file (.cls model inner)) :
    (generateFile root).runOn s = (.ok file, { s with registry := r₂ }) := by
  cases hfile with
  | @intro _ _ type name declared =>
    obtain rfl : name = root := hname
    obtain ⟨declaration, -, hinner⟩ := bind_ok_iff.mp (Outline.declaration.eq_1 _ _ ▸ declared)
    obtain ⟨types, htypes, -⟩ := bind_ok_iff.mp hinner
    have hclass := Registry.composingClass_of_composing
      (Registry.composing_of_composes inside rfl htypes) htypes entered declared
    rw [runOn_generateFile, Registry.compose_eq, found]
    simp only [hclass]
    rw [← Outline.name_of_declaration declared]
    rfl

/-- The files of the outlines that some classes compose to are what generating them gives. -/
theorem runOn_generateFiles_of_composes {roots : List String} {files : List GeneratedFile}
    {forest : List Outline} {s : Session} {r' : Registry}
    (h : Registry.Composes none s.registry roots forest r')
    (hnames : files.map (·.qualifiedName) = roots)
    (hfiles : List.Forall₂ (IsFileOf s.options) files forest) :
    (roots.mapM generateFile).runOn s = (.ok files, { s with registry := r' }) := by
  induction roots generalizing s files forest with
  | nil =>
    obtain rfl := List.map_eq_nil_iff.mp hnames
    cases h
    rfl
  | cons root rest ih =>
    cases h with
    | @cls _ _ r₁ r₂ _ _ _ model inner outlines must found inside entered after =>
      cases hfiles with
      | @cons file _ files _ hfile hfiles =>
        obtain ⟨hname, hnames⟩ := List.cons.inj hnames
        rw [List.mapM_cons,
          Step.runOn_bind_of_ok (runOn_generateFile_of_composes found inside entered hname hfile),
          Step.runOn_bind_of_ok (ih (s := { s with registry := r₂ }) after hnames hfiles)]
        rfl

/-- Where the registry composes to outlines with files, and what is left can be drained, generating
gives the files. -/
theorem runOn_generate_of_composes {s : Session} {files : List GeneratedFile}
    {forest : List Outline} {r₁ r₂ : Registry} (h : s.candidates ≠ 0)
    (hcomposes : Registry.Composes none s.registry s.registry.roots forest r₁)
    (hdrain : r₁.drain = (.ok (), r₂)) (hnames : files.map (·.qualifiedName) = s.registry.roots)
    (hfiles : List.Forall₂ (IsFileOf s.options) files forest) :
    generate.runOn s = (.ok files, { s with registry := r₂ }) := by
  rw [generate, Step.runOn_get_bind, if_neg h, Step.runOn_get_bind,
    Step.runOn_bind_of_ok (runOn_generateFiles_of_composes hcomposes hnames hfiles),
    Step.runOn_bind, Step.runOn_ofRegistry]
  simp only [hdrain]
  rfl

end Session

end DataClassGen
