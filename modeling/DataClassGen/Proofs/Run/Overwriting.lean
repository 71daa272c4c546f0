import DataClassGen.Proofs.Files.SourcePaths
import DataClassGen.Proofs.Run.Evaluation
import DataClassGen.Proofs.Run.Stranded

/-!
# Which files have one path

The path of a file is made from the package and the simple name of its class, and not from the types
that the class is nested in. So two files have one path just when their classes have one simple
name and packages with the same segments (`RootsApart` says that no two have). Classes at the top of
proper packages are told apart by these, and so in complete rounds no file takes the place of
another unless nested classes are ignored.
-/

namespace DataClassGen

open Source TypeElement

namespace Registry

/-- No two classes with files of their own have one simple name and packages with the same
segments. -/
def RootsApart (r : Registry) : Prop :=
  ∀ name model name' model', r.classes.lookup name = some model → model.isTopLevel = true →
    r.classes.lookup name' = some model' → model'.isTopLevel = true →
    Path.packageSteps model.cls.package = Path.packageSteps model'.cls.package →
    model.cls.simpleName = model'.cls.simpleName → name = name'

/-- Composing registers no classes. -/
theorem Composes.lookup_of_lookup {outer : Option String} {r r' : Registry} {children : List String}
    {outlines : List Outline} (h : Composes outer r children outlines r') {name : String}
    {model : ClassModel} (hmodel : r'.classes.lookup name = some model) :
    r.classes.lookup name = some model := by
  induction h with
  | done outer r => exact hmodel
  | enum found after ih => exact ih hmodel
  | skipped noEnum isSkipped after ih => exact ih hmodel
  | cls must found inside entered after ihInside ihAfter =>
    have hinside := ihAfter hmodel
    rw [classes_of_transition entered] at hinside
    exact lookup_of_eraseKey (ihInside hinside)

/-- The outlines of the classes with files of their own are made of the models registered for them and
of what their children compose to. -/
theorem Composes.forall₂_insides {outer : Option String} {r r' : Registry} {children : List String}
    {outlines : List Outline} (h : Composes outer r children outlines r') (houter : outer = none) :
    List.Forall₂ (fun root outline => ∃ model inner, outline = .cls model inner ∧
      r.classes.lookup root = some model ∧
      ∃ r₁ r₂, Composes (some model.qualifiedName) r₁ model.children inner r₂) children outlines := by
  induction h with
  | done outer r => exact .nil
  | enum found after ih => cases houter
  | skipped noEnum isSkipped after ih => cases houter
  | @cls outer r r₁ r₂ r' child rest model inner outlines must found inside entered after ihInside
      ihAfter =>
    refine .cons ⟨model, inner, rfl, found, _, _, inside⟩ ((ihAfter houter).imp ?_)
    rintro root outline ⟨model', inner', rfl, hmodel, hinside⟩
    rw [classes_of_transition entered] at hmodel
    exact ⟨model', inner', rfl, lookup_of_eraseKey (inside.lookup_of_lookup hmodel), hinside⟩

/-- The outlines of the classes with files of their own are those of the models registered for
them. -/
theorem Composes.forall₂_roots {outer : Option String} {r r' : Registry} {children : List String}
    {outlines : List Outline} (h : Composes outer r children outlines r') (houter : outer = none) :
    List.Forall₂ (fun root outline => ∃ model inner, outline = .cls model inner ∧
      r.classes.lookup root = some model) children outlines :=
  (h.forall₂_insides houter).imp fun _ _ ⟨model, inner, houtline, hmodel, _⟩ =>
    ⟨model, inner, houtline, hmodel⟩

end Registry

/-- The path of a file is that of the class it is for. -/
theorem IsFileOf.path_of_mem {options : Options} {r : Registry} {files : List GeneratedFile}
    {forest : List Outline} (h : List.Forall₂ (IsFileOf options) files forest)
    (hroots : List.Forall₂ (fun root outline => ∃ model inner, outline = .cls model inner ∧
      r.classes.lookup root = some model) (files.map (·.qualifiedName)) forest)
    {file : GeneratedFile} (hfile : file ∈ files) :
    ∃ model, r.classes.lookup file.qualifiedName = some model ∧
      file.path = Path.ofSource options.srcDir model.cls.package model.cls.simpleName := by
  induction h with
  | nil => cases hfile
  | @cons first outline files forest hfirst hrest ih =>
    cases hroots with
    | cons hroot hroots =>
      rcases List.mem_cons.mp hfile with rfl | hfile
      · obtain ⟨model, inner, rfl, hmodel⟩ := hroot
        cases hfirst with
        | intro name declared => exact ⟨model, hmodel, rfl⟩
      · exact ih hroots hfile

namespace Session

variable {options : Options} {rounds : List Round} {s g : Session} {files : List GeneratedFile}

/-- There is a file for each class with a file of its own, and it has the path for the package and
the simple name of the class. -/
theorem file_origin (hprocess : (processAll rounds).runOn { options } = (.ok (), s))
    (hgenerate : generate.runOn s = (.ok files, g)) :
    files.map (·.qualifiedName) = s.registry.roots ∧ ∀ file ∈ files,
      ∃ model, s.registry.classes.lookup file.qualifiedName = some model ∧
        file.path = Path.ofSource options.srcDir model.cls.package model.cls.simpleName := by
  obtain ⟨forest, r, hcomposes, -, hnames, hisFile⟩ := of_generate hprocess hgenerate
  have hroots := hcomposes.forall₂_roots rfl
  rw [← hnames] at hroots
  exact ⟨hnames, fun file hfile => IsFileOf.path_of_mem hisFile hroots hfile⟩

/-- At the top of proper packages, the segments of the package and the simple name tell a class. -/
theorem rootsApart_of_complete (complete : CompleteRounds rounds)
    (hprocess : (processAll rounds).runOn { options } = (.ok (), s))
    (hignore : options.ignoreNested = false)
    (hpackages : ∀ t ∈ rounds.flatMap Round.types,
      t.package = "" ∨ "" ∉ Text.split '.' t.package) : s.registry.RootsApart := by
  have haccounts := (isOfComplete_of_processAll complete hprocess).accounts
  have htop : ∀ {name : String} {model : ClassModel},
      s.registry.classes.lookup name = some model → model.isTopLevel = true →
        Text.joinWith "." (Path.packageSteps model.cls.package) = model.cls.package ∧
        model.cls = ⟨model.cls.package, [model.cls.simpleName]⟩ ∧
        model.cls.canonical = name := by
    intro name model hmodel htop
    obtain ⟨e, he, -, rfl, hmodeled, -⟩ := haccounts.model _ _ hmodel
    have heTypes := (Registry.IsOfComplete.mem_types he).1
    have hplace := hmodeled.place
    rw [htop, if_pos rfl] at hplace
    have henclosing := enclosing_of_placement_ownFile hplace hignore
    rcases complete.cases heTypes with ⟨-, hsimple, hself⟩ | ⟨p, -, hnested, -⟩
    · rw [hmodeled.cls, TypeElement.inPackage_of_top hsimple hself]
      exact ⟨Path.joinWith_packageSteps (hpackages e heTypes), rfl, hself.symm⟩
    · rw [henclosing] at hnested
      cases hnested
  intro name model name' model' hmodel htopModel hmodel' htopModel' hsteps hsimple
  obtain ⟨hjoin, hcls, hname⟩ := htop hmodel htopModel
  obtain ⟨hjoin', hcls', hname'⟩ := htop hmodel' htopModel'
  have hpackage : model.cls.package = model'.cls.package := by
    rw [← hjoin, ← hjoin', hsteps]
  rw [← hname, ← hname', hcls, hcls', hpackage, hsimple]

/-- Where no class has a slash in its name, no two files have one path just when no two of their
classes have one simple name and packages with the same segments. In complete rounds whose packages
have no empty segments no two do, unless nested classes are ignored. -/
theorem paths_nodup_iff
    (noSlash : ∀ e ∈ rounds.flatMap Round.valueClasses, '/' ∉ e.qualifiedName.toList)
    (hprocess : (processAll rounds).runOn { options } = (.ok (), s))
    (hgenerate : generate.runOn s = (.ok files, g)) :
    ((files.map (·.path)).Nodup ↔ s.registry.RootsApart) ∧
    (CompleteRounds rounds → options.ignoreNested = false →
      (∀ t ∈ rounds.flatMap Round.types, t.package = "" ∨ "" ∉ Text.split '.' t.package) →
      (files.map (·.path)).Nodup) := by
  obtain ⟨hregisters, -, -⟩ := registers_of_processAll hprocess
  obtain ⟨hnames, horigin⟩ := file_origin hprocess hgenerate
  have hnodup : (files.map (·.qualifiedName)).Nodup := hnames ▸ hregisters.nodup_roots
  have hclean : ∀ {name : String} {model : ClassModel},
      s.registry.classes.lookup name = some model →
        '/' ∉ model.cls.package.toList ∧ '/' ∉ model.cls.simpleName.toList := by
    intro name model hmodel
    obtain ⟨e, he, hcls⟩ := hregisters.cls name model hmodel
    rw [hcls]
    exact ClassName.not_mem_inPackage (by decide) (noSlash e he)
  have hiff : (files.map (·.path)).Nodup ↔ s.registry.RootsApart := by
    constructor
    · intro hpaths name model name' model' hmodel htop hmodel' htop' hsteps hsimple
      have hroot : name ∈ s.registry.roots := (hregisters.mem_roots name).mpr ⟨model, hmodel, htop⟩
      have hroot' : name' ∈ s.registry.roots :=
        (hregisters.mem_roots name').mpr ⟨model', hmodel', htop'⟩
      rw [← hnames] at hroot hroot'
      obtain ⟨file, hfile, rfl⟩ := List.mem_map.mp hroot
      obtain ⟨file', hfile', rfl⟩ := List.mem_map.mp hroot'
      obtain ⟨found, hfound, hpath⟩ := horigin file hfile
      obtain ⟨found', hfound', hpath'⟩ := horigin file' hfile'
      obtain rfl : model = found := Option.some.inj (hmodel.symm.trans hfound)
      obtain rfl : model' = found' := Option.some.inj (hmodel'.symm.trans hfound')
      have hequal : file.path = file'.path := by
        rw [hpath, hpath']
        exact (Path.ofSource_eq_iff (hclean hmodel).1 (hclean hmodel').1 (hclean hmodel).2
          (hclean hmodel').2).mpr ⟨hsteps, hsimple⟩
      rw [List.inj_on_of_nodup_map hpaths hfile hfile' hequal]
    · intro hapart
      refine (List.nodup_map_iff_inj_on hnodup.of_map).mpr fun file hfile file' hfile' hequal => ?_
      have htop : ∀ {file : GeneratedFile} {model : ClassModel}, file ∈ files →
          s.registry.classes.lookup file.qualifiedName = some model → model.isTopLevel = true := by
        intro file model hfile hmodel
        have hroot : file.qualifiedName ∈ s.registry.roots := hnames ▸ List.mem_map_of_mem hfile
        obtain ⟨found, hfound, htop⟩ := (hregisters.mem_roots _).mp hroot
        obtain rfl : model = found := Option.some.inj (hmodel.symm.trans hfound)
        exact htop
      obtain ⟨model, hmodel, hpath⟩ := horigin file hfile
      obtain ⟨model', hmodel', hpath'⟩ := horigin file' hfile'
      rw [hpath, hpath'] at hequal
      obtain ⟨hsteps, hsimple⟩ := (Path.ofSource_eq_iff (hclean hmodel).1 (hclean hmodel').1
        (hclean hmodel).2 (hclean hmodel').2).mp hequal
      exact List.inj_on_of_nodup_map hnodup hfile hfile' (hapart _ model _ model' hmodel
        (htop hfile hmodel) hmodel' (htop hfile' hmodel') hsteps hsimple)
  exact ⟨hiff, fun complete hignore hpackages =>
    hiff.mpr (rootsApart_of_complete complete hprocess hignore hpackages)⟩

/-- Two value classes of one simple name in types that are none. -/
def twinRound : Round := { elements := [
  .bare "test.A" [.bareValueClass "test.A.X" []], .bare "test.B" [.bareValueClass "test.B.X" []]] }

/-- Nested classes are ignored. -/
def twinOptions : Options := { srcDir := "out", ignoreNested := true }

theorem twinRound_complete : CompleteRounds [twinRound] where
  complete := by
    intro round hround e he
    obtain rfl := List.mem_singleton.mp hround
    rcases List.mem_cons.mp he with rfl | he
    · refine .intro "A" rfl rfl ⟨by decide, by decide⟩ rfl fun t ht => ?_
      obtain rfl := List.mem_singleton.mp ht
      exact .intro "X" rfl rfl ⟨by decide, by decide⟩ rfl fun t ht => nomatch ht
    · obtain rfl := List.mem_singleton.mp he
      refine .intro "B" rfl rfl ⟨by decide, by decide⟩ rfl fun t ht => ?_
      obtain rfl := List.mem_singleton.mp ht
      exact .intro "X" rfl rfl ⟨by decide, by decide⟩ rfl fun t ht => nomatch ht
  distinct := by decide

/-- Their files have one path. -/
theorem twins_share_a_path :
    CompleteRounds [twinRound] ∧
    (∀ e ∈ [twinRound].flatMap Round.valueClasses, '/' ∉ e.qualifiedName.toList) ∧
    ∃ s files g, (processAll [twinRound]).runOn { options := twinOptions } = (.ok (), s) ∧
      generate.runOn s = (.ok files, g) ∧
      files.map (·.path) = ["out/test/X.kt", "out/test/X.kt"] ∧ ¬s.registry.RootsApart := by
  have hclean : ∀ e ∈ [twinRound].flatMap Round.valueClasses, '/' ∉ e.qualifiedName.toList := by
    decide +kernel
  have hprocess := runOn_processAll
    (show ((processAll [twinRound]).runOn { options := twinOptions }).1 = .ok () by decide +kernel)
  obtain ⟨files, g, hgenerate, hpaths⟩ := runOn_generate_ok
    (show (generateBounded.runOn (after twinOptions [twinRound])).1.map (·.map (·.path)) =
      .ok ["out/test/X.kt", "out/test/X.kt"] by decide +kernel)
  obtain ⟨hiff, -⟩ := paths_nodup_iff hclean hprocess hgenerate
  refine ⟨twinRound_complete, hclean, _, files, g, hprocess, hgenerate, hpaths, fun hapart => ?_⟩
  have hnodup := hiff.mpr hapart
  rw [hpaths] at hnodup
  exact absurd hnodup (by decide)

end Session

end DataClassGen
