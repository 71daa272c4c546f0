import DataClassGen.Proofs.Run.Overwriting
import DataClassGen.Proofs.Source.LookUp

/-!
# Classes that move to the top

If nested classes are ignored, a class that is nested in a type which is no value class has a file
of its own. Its declaration moves there: it stands at the top of the package, under the last of the
names that the class has. What refers to the class, its builder or anything else in it does not move
along. The references in the file are still to the class where it was nested.

Around these references there is no type of the outermost name, so they are written with all names,
and whatever has all these names is further in than anything that the file declares for the class.
So none of the references gives the declaration in the file (`moved_roots_find_themselves_iff`);
they give the class where it was nested, unless an import or a type in the file has the outermost
name. The only exception is a class with the same name as the outermost type around it.
-/

namespace DataClassGen

namespace Source

/-! ### References to a class that has moved -/

/-- What the declaration of the class at the top of a file makes of a class in it, which has these
names in there. -/
def ClassName.moved (cls : ClassName) (inner : List String) : ClassName :=
  ⟨cls.package, cls.simpleName :: inner⟩

/-- The reference is to the class or, if there are names in `inner`, to the class of these names in
it. -/
def Reference.IsInto (r : Reference) (cls : ClassName) (inner : List String) : Prop :=
  r.cls = ⟨cls.package, cls.simpleNames ++ inner⟩

namespace SourceFile

variable {file : SourceFile} {r : Reference}

/-- The text that is written for the reference stands for this class where it is written. -/
def Gives (file : SourceFile) (r : Reference) (cls : ClassName) : Prop :=
  file.lookUp r.enclosing (file.names.reference (TypeDecl.scopeOf r.enclosing) r.cls) = some cls

/-- What is found in the own package has all the names that are written. -/
theorem readNames_suffix_of_lookUp {enclosing : List TypeDecl} {text : String} {cls : ClassName}
    (hfound : file.lookUp enclosing text = some cls) (hpackage : cls.package = file.package) :
    readNames text <:+ cls.simpleNames := by
  rw [lookUp] at hfound
  split at hfound
  · cases hfound
  · next first members hread =>
    rw [hread]
    split at hfound
    · next path hpath =>
      rw [← Option.some.inj hfound]
      exact List.suffix_append path (first :: members)
    · split at hfound
      · next imported himport =>
        -- What is imported is of another package.
        have hforeign := file.foreign_of_imports himport
        rw [← Option.some.inj hfound] at hpackage
        rw [isForeign, hpackage] at hforeign
        simp at hforeign
      · exact Option.some.inj hfound ▸ List.suffix_refl _

/-- A reference to something in a class with another outermost name than the file's type does not
give what the file makes of it. -/
theorem not_gives_moved (hr : r ∈ file.references) (hown : r.IsOwnIn file)
    (hkind : file.root.kind ≠ .companion) {cls : ClassName} {inner : List String}
    (hroot : file.root.name = cls.simpleName) (hinto : r.IsInto cls inner) {outermost : String}
    {nesting : List String} (hnames : cls.simpleNames = outermost :: nesting)
    (hother : outermost ≠ cls.simpleName) : ¬file.Gives r (cls.moved inner) := by
  intro hgives
  have hwhole : r.cls.simpleNames = outermost :: (nesting ++ inner) := by
    rw [hinto, hnames, List.cons_append]
  have hpackage : (cls.moved inner).package = file.package := by
    rw [← hown.package, hinto]
    rfl
  have hsuffix := readNames_suffix_of_lookUp hgives hpackage
  rw [readNames_reference hown,
    relativeNames_of_mem_references hr hkind hwhole (hroot ▸ hother)] at hsuffix
  -- So the class has no more names than the file's type.
  have hlength := hsuffix.length_le
  simp only [ClassName.moved, List.length_cons, List.length_append] at hlength
  obtain rfl : nesting = [] := List.length_eq_zero_iff.mp (by omega)
  exact hother (by rw [ClassName.simpleName, hnames]; rfl)

end SourceFile

end Source

open Source

/-! ### Names of nested classes -/

/-- In complete rounds the class of a nested type has the name of another one before its own. -/
theorem CompleteRounds.one_lt_simpleNames {rounds : List Round} (h : CompleteRounds rounds)
    {t : TypeElement} (ht : t ∈ rounds.flatMap Round.types) (hnested : t.enclosing ≠ none) :
    1 < (ClassName.inPackage t.package t.qualifiedName).simpleNames.length := by
  rcases h.cases ht with ⟨hnone, -⟩ | ⟨p, hp, -, ⟨u, hu, rfl⟩, -⟩
  · exact absurd hnone hnested
  · obtain ⟨⟨top, htop, rest, -, hname⟩, hnestedIn⟩ := h.trees.of_mem h.topsNamed hp
    obtain ⟨-, hpackage, simpleName, hself⟩ := hnestedIn u hu
    have hcanonical : u.qualifiedName =
        TypeElement.nameIn u.package none (top ++ rest ++ "." ++ simpleName) := by
      rw [hself, hname, hpackage, TypeElement.nameIn_append, TypeElement.nameIn_append]
    have hnonempty : (top ++ rest ++ "." ++ simpleName).isEmpty = false := by simp
    show 1 < (ClassName.inPackage u.package u.qualifiedName).simpleNames.length
    rw [ClassName.inPackage, hcanonical, TypeElement.relative?_nameIn]
    simp only [hnonempty, Bool.false_eq_true, if_false]
    exact Text.one_lt_length_split (by simp)

/-! ### The files of a run -/

/-- The source file has the declaration of the class at its root, in the package of the class, with
what its children compose to in it. -/
structure Source.SourceFile.IsFor (source : SourceFile) (model : ClassModel) : Prop where
  package : source.package = model.cls.package
  root : ∃ r inner r', Registry.Composes (some model.qualifiedName) r model.children inner r' ∧
    (Outline.cls model inner).declaration = .ok source.root

/-- The declaration at the root is a class, and has the class's own name. -/
theorem Source.SourceFile.IsFor.root_eq {source : SourceFile} {model : ClassModel}
    (h : source.IsFor model) :
    source.root.kind = .classDecl ∧ source.root.name = model.cls.simpleName := by
  obtain ⟨r, inner, r', -, hdeclared⟩ := h.root
  refine ⟨?_, Outline.name_of_declaration hdeclared⟩
  rw [Outline.declaration] at hdeclared
  obtain ⟨own, hown, hdeclared⟩ := bind_ok_iff.mp hdeclared
  obtain ⟨types, -, hdeclared⟩ := bind_ok_iff.mp hdeclared
  obtain ⟨properties, -, hown⟩ := bind_ok_iff.mp hown
  obtain ⟨builder, -, hown⟩ := bind_ok_iff.mp hown
  rw [← Except.ok.inj hdeclared, ← Except.ok.inj hown]

/-- A class without children is all that stands in its file. -/
theorem Source.SourceFile.IsFor.root_of_no_children {source : SourceFile} {model : ClassModel}
    (h : source.IsFor model) (hchildren : model.children = []) :
    model.toDeclaration = .ok source.root := by
  obtain ⟨r, inner, r', hcomposes, hdeclared⟩ := h.root
  rw [hchildren] at hcomposes
  cases hcomposes
  rw [Outline.declaration] at hdeclared
  obtain ⟨own, hown, hdeclared⟩ := bind_ok_iff.mp hdeclared
  obtain ⟨types, htypes, hdeclared⟩ := bind_ok_iff.mp hdeclared
  rw [← Except.ok.inj htypes, List.append_nil] at hdeclared
  rw [hown, ← Except.ok.inj hdeclared]
  cases own
  rfl

/-- A file has the source of the class that is registered for it. -/
theorem IsFileOf.source_of_mem {options : Options} {r : Registry} {files : List GeneratedFile}
    {forest : List Outline} (h : List.Forall₂ (IsFileOf options) files forest)
    (hroots : List.Forall₂ (fun root outline => ∃ model inner, outline = .cls model inner ∧
      r.classes.lookup root = some model ∧ ∃ r₁ r₂,
        Registry.Composes (some model.qualifiedName) r₁ model.children inner r₂)
      (files.map (·.qualifiedName)) forest)
    {file : GeneratedFile} (hfile : file ∈ files) :
    ∃ model source, r.classes.lookup file.qualifiedName = some model ∧
      file.contents = SourceFile.emit source ∧ source.IsFor model := by
  induction h with
  | nil => cases hfile
  | @cons first outline files forest hfirst hrest ih =>
    cases hroots with
    | cons hroot hroots =>
      rcases List.mem_cons.mp hfile with rfl | hfile
      · obtain ⟨model, inner, rfl, hmodel, r₁, r₂, hinside⟩ := hroot
        cases hfirst with
        | @intro _ _ root name declared =>
          exact ⟨model, ⟨model.cls.package, root⟩, hmodel, rfl, rfl, r₁, inner, r₂, hinside,
            declared⟩
      · exact ih hroots hfile

namespace Session

variable {options : Options} {rounds : List Round} {s g : Session} {files : List GeneratedFile}

/-- Each file of a run has the source of a registered class. In a class with another name than the
outermost type around it, no reference to the class or to something in it gives what the file
declares, so that all of them do just when there are none; each gives what it gave where the class
was nested, unless a type around it or an import has the outermost name. The classes of nested types
in complete rounds have an outermost name besides their own. -/
theorem moved_roots_find_themselves_iff
    (hprocess : (processAll rounds).runOn { options } = (.ok (), s))
    (hgenerate : generate.runOn s = (.ok files, g)) :
    ∀ file ∈ files, ∃ e ∈ rounds.flatMap Round.valueClasses, ∃ model source,
      s.registry.classes.lookup file.qualifiedName = some model ∧
      model.cls = .inPackage e.package e.qualifiedName ∧
      file.contents = SourceFile.emit source ∧ source.IsFor model ∧
      (CompleteRounds rounds → e.enclosing ≠ none → 1 < model.cls.simpleNames.length) ∧
      ∀ outermost nesting, model.cls.simpleNames = outermost :: nesting →
        outermost ≠ model.cls.simpleName →
        ((∀ r ∈ source.references, ∀ inner, r.IsOwnIn source → r.IsInto model.cls inner →
            source.Gives r (model.cls.moved inner)) ↔
          ∀ r ∈ source.references, ∀ inner, r.IsOwnIn source → ¬r.IsInto model.cls inner) ∧
        ∀ r ∈ source.references, ∀ inner, r.IsOwnIn source → r.IsInto model.cls inner →
          ¬source.Gives r (model.cls.moved inner) ∧
          (source.Finds r ↔ (∀ u ∈ r.enclosing, u.declares outermost = false) ∧
            source.imports.lookup outermost = none) := by
  intro file hfile
  obtain ⟨hregisters, -, -⟩ := registers_of_processAll hprocess
  obtain ⟨forest, r, hcomposes, -, hnames, hisFile⟩ := of_generate hprocess hgenerate
  have hinsides := hcomposes.forall₂_insides rfl
  rw [← hnames] at hinsides
  obtain ⟨model, source, hmodel, hcontents, hsource⟩ :=
    IsFileOf.source_of_mem hisFile hinsides hfile
  obtain ⟨e, he, hcls⟩ := hregisters.cls _ model hmodel
  obtain ⟨hkind, hroot⟩ := hsource.root_eq
  have hclass : source.root.kind ≠ .companion := by
    rw [hkind]
    decide
  have hnested : CompleteRounds rounds → e.enclosing ≠ none → 1 < model.cls.simpleNames.length := by
    intro complete henclosing
    rw [hcls]
    exact complete.one_lt_simpleNames ((Round.valueClasses_sublist_types rounds).subset he)
      henclosing
  refine ⟨e, he, model, source, hmodel, hcls, hcontents, hsource, hnested, ?_⟩
  intro outermost nesting hsimpleNames hother
  have hlost : ∀ r ∈ source.references, ∀ inner, r.IsOwnIn source → r.IsInto model.cls inner →
      ¬source.Gives r (model.cls.moved inner) := fun r hr inner hown hinto =>
    SourceFile.not_gives_moved hr hown hclass hroot hinto hsimpleNames hother
  refine ⟨⟨fun hall r hr inner hown hinto => ?_, fun hnone r hr inner hown hinto => ?_⟩, ?_⟩
  · exact hlost r hr inner hown hinto (hall r hr inner hown hinto)
  · exact absurd hinto (hnone r hr inner hown)
  · intro r hr inner hown hinto
    have hwhole : r.cls.simpleNames = outermost :: (nesting ++ inner) := by
      rw [hinto, hsimpleNames, List.cons_append]
    exact ⟨hlost r hr inner hown hinto,
      SourceFile.finds_sibling_iff hr hown hclass hwhole (hroot ▸ hother)⟩

/-- A value class in a type that is none, with a method that changes its property. -/
def innerRound : Round := { elements := [
  .bare "test.Outer" [{ TypeElement.bareValueClass "test.Outer.Inner" [] with
    methods := [
      { name := "x", modifiers := [.publicAccess, .abstract], returnType := .primitive .int },
      { name := "withX", modifiers := [.publicAccess, .abstract],
        returnType := .declared "test.Outer.Inner" [],
        parameters := [{ name := "x", type := .primitive .int }] }] }]] }

theorem innerRound_complete : CompleteRounds [innerRound] where
  complete := by
    intro round hround e he
    obtain rfl := List.mem_singleton.mp hround
    obtain rfl := List.mem_singleton.mp he
    refine .intro "Outer" rfl rfl ⟨by decide, by decide⟩ rfl fun t ht => ?_
    obtain rfl := List.mem_singleton.mp ht
    exact .intro "Inner" rfl rfl ⟨by decide, by decide⟩ rfl fun t ht => nomatch ht
  distinct := by decide

/-- There is a reference to the class in the other one, with nothing around it or imported that has
the other one's name. -/
def refersToInner (source : SourceFile) : Bool :=
  (source.imports.lookup "Outer").isNone && source.references.any fun r =>
    r.cls == ⟨"test", ["Outer", "Inner"]⟩ && r.enclosing.all fun u => !u.declares "Outer"

theorem exists_of_refersToInner {source : SourceFile} (hpackage : source.package = "test")
    (hrefers : refersToInner source = true) :
    ∃ r ∈ source.references, r.cls = ⟨"test", ["Outer", "Inner"]⟩ ∧ r.IsOwnIn source ∧
      (∀ u ∈ r.enclosing, u.declares "Outer" = false) ∧ source.imports.lookup "Outer" = none := by
  obtain ⟨hnotImported, hsome⟩ := Bool.and_eq_true_iff.mp hrefers
  obtain ⟨r, hr, hreference⟩ := List.any_eq_true.mp hsome
  obtain ⟨hcls, haround⟩ := Bool.and_eq_true_iff.mp hreference
  have hcls : r.cls = ⟨"test", ["Outer", "Inner"]⟩ := beq_iff_eq.mp hcls
  refine ⟨r, hr, hcls, ⟨?_, ?_, ?_⟩, by simpa using haround, by simpa using hnotImported⟩
  · rw [hcls, hpackage]
  · rw [hcls]
    decide
  · rw [hcls]
    decide

/-- The result of the method is the class in the other one, and not the one in the file. -/
theorem changed_value_is_of_the_nested_class :
    CompleteRounds [innerRound] ∧ ∃ s files g,
      (processAll [innerRound]).runOn { options := twinOptions } = (.ok (), s) ∧
      generate.runOn s = (.ok files, g) ∧ ∃ file ∈ files, ∃ source r,
        file.contents = SourceFile.emit source ∧ source.root.name = "Inner" ∧
        r ∈ source.references ∧ r.cls = ⟨"test", ["Outer", "Inner"]⟩ ∧
        ¬source.Gives r ⟨"test", ["Inner"]⟩ ∧ source.Finds r := by
  have hprocess := runOn_processAll
    (show ((processAll [innerRound]).runOn { options := twinOptions }).1 = .ok () by decide +kernel)
  obtain ⟨files, g, hgenerate, hnames⟩ := runOn_generate_ok
    (show (generateBounded.runOn (after twinOptions [innerRound])).1.map
      (·.map (·.qualifiedName)) = .ok ["test.Outer.Inner"] by decide +kernel)
  obtain ⟨file, rfl⟩ := List.length_eq_one_iff.mp (by simpa using congrArg List.length hnames)
  have hname : file.qualifiedName = "test.Outer.Inner" := by simpa using hnames
  have hmodels : ((after twinOptions [innerRound]).registry.classes.lookup "test.Outer.Inner").map
      (fun model => (model.cls, model.children,
        model.toDeclaration.map fun root => refersToInner ⟨model.cls.package, root⟩)) =
        some (⟨"test", ["Outer", "Inner"]⟩, [], .ok true) := by decide +kernel
  obtain ⟨e, -, model, source, hmodel, -, hcontents, hsource, -, hfound⟩ :=
    moved_roots_find_themselves_iff hprocess hgenerate file List.mem_cons_self
  rw [hname] at hmodel
  rw [hmodel] at hmodels
  obtain ⟨hcls, hrest⟩ := Prod.mk.inj (Option.some.inj hmodels)
  obtain ⟨hchildren, hrefers⟩ := Prod.mk.inj hrest
  rw [hsource.root_of_no_children hchildren, ← hsource.package] at hrefers
  have hpackage : source.package = "test" := by rw [hsource.package, hcls]
  obtain ⟨r, hr, hrcls, hown, hfree, hnotImported⟩ :=
    exists_of_refersToInner hpackage (Except.ok.inj hrefers)
  have hinto : r.IsInto model.cls [] := by rw [Reference.IsInto, hrcls, hcls]; rfl
  have hsimpleName : model.cls.simpleName = "Inner" := by rw [hcls]; rfl
  obtain ⟨-, hgiven⟩ := hfound "Outer" ["Inner"] (by rw [hcls]) (by rw [hsimpleName]; decide)
  obtain ⟨hnotMoved, hnested⟩ := hgiven r hr [] hown hinto
  rw [hcls] at hnotMoved
  exact ⟨innerRound_complete, after twinOptions [innerRound], [file], g, hprocess, hgenerate, file,
    List.mem_cons_self, source, r, hcontents, hsource.root_eq.2.trans hsimpleName, hr, hrcls,
    hnotMoved, hnested.mpr ⟨hfree, hnotImported⟩⟩

end Session

end DataClassGen
