import DataClassGen.Proofs.Run.States

/-!
# What stands in the files

The files of a run are those of a forest of outlines, and the places in the forest are where the
declarations of the run stand, since the type in each file is what is written of its outline. Nothing
is lost and nothing is doubled: each composed class has one place, at the root of a file if it has one
of its own and otherwise in the one class that lists it, and so has each enum that a composed class
lists. A skipped class has none.
-/

namespace DataClassGen

open Source

namespace Outline

mutual

/-- The outline is made of models that are registered. -/
def IsRegisteredIn (r : Registry) : Outline → Prop
  | .cls model inner => r.classes.lookup model.qualifiedName = some model ∧ AreRegisteredIn r inner
  | .enum model => r.enums.lookup model.qualifiedName = some model

/-- The outlines are made of models that are registered. -/
def AreRegisteredIn (r : Registry) : List Outline → Prop
  | [] => True
  | outline :: outlines => IsRegisteredIn r outline ∧ AreRegisteredIn r outlines

end

/-- What is registered is, whatever else is. -/
theorem AreRegisteredIn.mono {r r' : Registry}
    (classes : ∀ name model, r'.classes.lookup name = some model →
      r.classes.lookup name = some model)
    (enums : ∀ name model, r'.enums.lookup name = some model → r.enums.lookup name = some model) :
    ∀ {outlines : List Outline}, AreRegisteredIn r' outlines → AreRegisteredIn r outlines
  | [], _ => by rw [AreRegisteredIn]; trivial
  | .cls model inner :: outlines, h => by
    rw [AreRegisteredIn, IsRegisteredIn] at h ⊢
    obtain ⟨⟨hmodel, hinner⟩, houtlines⟩ := h
    exact ⟨⟨classes _ _ hmodel, hinner.mono classes enums⟩, houtlines.mono classes enums⟩
  | .enum model :: outlines, h => by
    rw [AreRegisteredIn, IsRegisteredIn] at h ⊢
    obtain ⟨hmodel, houtlines⟩ := h
    exact ⟨enums _ _ hmodel, houtlines.mono classes enums⟩

end Outline

namespace Registry

open Place

theorem Effect.registeredIn {r r' : Registry} {ps : List Place} (h : Effect r ps r')
    {outlines : List Outline} (houtlines : Outline.AreRegisteredIn r' outlines) :
    Outline.AreRegisteredIn r outlines :=
  houtlines.mono (fun _ _ hmodel => (h.class_kept hmodel).2) fun _ _ hmodel =>
    (h.enum_kept hmodel).2

theorem registeredIn_of_withoutClass {r : Registry} {name : String} {outlines : List Outline}
    (houtlines : Outline.AreRegisteredIn (r.withoutClass name) outlines) :
    Outline.AreRegisteredIn r outlines := by
  have hclasses : ∀ other model, (r.withoutClass name).classes.lookup other = some model →
      r.classes.lookup other = some model := fun _ _ hmodel => lookup_of_eraseKey hmodel
  have henums : ∀ other model, (r.withoutClass name).enums.lookup other = some model →
      r.enums.lookup other = some model := fun _ _ hmodel => hmodel
  exact houtlines.mono hclasses henums

/-- What is composed is made of the models that were registered. -/
theorem Composes.registeredIn {outer : Option String} {r r' : Registry} {children : List String}
    {outlines : List Outline} (h : Composes outer r children outlines r') (named : r.Named) :
    Outline.AreRegisteredIn r outlines := by
  induction h with
  | done outer r => rw [Outline.AreRegisteredIn]; trivial
  | @enum outer r r' child rest model outlines found after ih =>
    obtain rfl : model.qualifiedName = child := named.enums _ _ found
    have here : Effect r [⟨some outer, true, model.qualifiedName⟩] (r.withoutEnum _) :=
      Effect.enum (some outer) found
    rw [Outline.AreRegisteredIn, Outline.IsRegisteredIn]
    exact ⟨found, here.registeredIn (ih (here.named named))⟩
  | skipped noEnum isSkipped after ih => exact ih named
  | @cls outer r r₁ r₂ r' child rest model inner outlines must found inside entered after ihInside
      ihAfter =>
    obtain rfl : model.qualifiedName = child := named.classes _ _ found
    have here := Effect.cls outer found (inside.effect (named.withoutClass _)) entered
    have hinner := registeredIn_of_withoutClass (ihInside (named.withoutClass _))
    rw [Outline.AreRegisteredIn, Outline.IsRegisteredIn]
    exact ⟨⟨found, hinner⟩,
      here.registeredIn (ihAfter (here.named named))⟩

end Registry

/-! ### Distinct names -/

/-- Types with one name are one type, so that they are nested, where they are nested, in types with
one name. -/
def DistinctNames (rounds : List Round) : Prop :=
  ∀ t ∈ rounds.flatMap Round.types, ∀ t' ∈ rounds.flatMap Round.types,
    ∀ u ∈ t.nestedTypes, ∀ u' ∈ t'.nestedTypes,
      u.qualifiedName = u'.qualifiedName → t.qualifiedName = t'.qualifiedName

namespace Registry

variable {options : Options} {rounds : List Round} {r : Registry}

theorem Accounts.exists_nested (h : r.Accounts options (rounds.flatMap Round.valueClasses))
    (keeps : ∀ t ∈ rounds.flatMap Round.types, t.KeepsName) {outer child : String}
    (hlists : r.Lists outer child) :
    ∃ t ∈ rounds.flatMap Round.types, t.qualifiedName = outer ∧
      ∃ u ∈ t.nestedTypes, u.qualifiedName = child := by
  obtain ⟨model, hmodel, hchild⟩ := hlists
  obtain ⟨e, he, -, hname, hmodeled, -⟩ := h.model outer model hmodel
  have ht := (Round.valueClasses_sublist_types rounds).subset he
  exact ⟨e, ht, hname,
    hmodeled.exists_nested (fun _ hu => TypeElement.keepsName_of_nested keeps ht hu) hchild⟩

/-- Where names are distinct, no two classes list the same child. -/
theorem Accounts.lists_unique (h : r.Accounts options (rounds.flatMap Round.valueClasses))
    (keeps : ∀ t ∈ rounds.flatMap Round.types, t.KeepsName) (distinct : DistinctNames rounds)
    {outer other child : String} (hlists : r.Lists outer child) (hlists' : r.Lists other child) :
    outer = other := by
  obtain ⟨t, ht, rfl, u, hu, rfl⟩ := h.exists_nested keeps hlists
  obtain ⟨t', ht', rfl, u', hu', hname⟩ := h.exists_nested keeps hlists'
  exact distinct t ht t' ht' u hu u' hu' hname.symm

end Registry

/-! ### Once and no more -/

/-- The files of a forest hold all that a run composes once: `before` is the registry that they were
generated from, and `after` the one that generating left. -/
structure HoldsOnce (before after : Registry) (files : List GeneratedFile) (forest : List Outline) :
    Prop where
  /-- What stands in the files is made of the models that were registered. -/
  registered : Outline.AreRegisteredIn before forest
  /-- Each file is for the class at its root. -/
  roots : files.map (·.qualifiedName) = forest.map (·.name)
  /-- At each place there is a type of the place's kind with the simple name of its model, and in it
  are the types at the places in that one, behind the builder and the companion object of a class. -/
  written : List.Forall₂ (fun file outline => ∃ source : SourceFile, file.contents = source.emit ∧
    outline.declaration = .ok source.root ∧ outline.IsWrittenAs source.root) files forest
  nodup_files : (files.map (·.qualifiedName)).Nodup
  /-- The classes that have files are those that are composed and have files of their own. -/
  files : ∀ name, name ∈ files.map (·.qualifiedName) ↔
    after.state? name = some .composed ∧
      ∃ model, before.classes.lookup name = some model ∧ model.isTopLevel = true
  /-- A composed class stands in the files once, and any other class not at all. -/
  classes : ∀ name, (Place.classNames (Outline.placesAll none forest)).count name =
    if after.state? name = some .composed then 1 else 0
  /-- A composed class without a file stands in the one class that lists it. -/
  nested : ∀ name model, after.state? name = some .composed →
    before.classes.lookup name = some model → model.isTopLevel = false →
      ∃ outer, ⟨some outer, false, name⟩ ∈ Outline.placesAll none forest ∧
        after.state? outer = some .composed ∧ before.Lists outer name ∧
        ∀ other, before.Lists other name → other = outer
  /-- What a composed class lists is a registered enum, or a class that is composed or skipped. -/
  listed : ∀ outer child, after.state? outer = some .composed → before.Lists outer child →
    before.enums.lookup child ≠ none ∨ after.state? child = some .composed ∨
      after.state? child = some .skipped
  /-- An enum that a composed class lists stands in the files once, in that class. -/
  enums : ∀ outer enum, after.state? outer = some .composed → before.Lists outer enum →
    before.enums.lookup enum ≠ none →
      (Place.enumNames (Outline.placesAll none forest)).count enum = 1 ∧
        ⟨some outer, true, enum⟩ ∈ Outline.placesAll none forest

namespace Session

open Registry

theorem holdsOnce_of_composes {options : Options} {rounds : List Round} {r r₁ r₂ : Registry}
    (keeps : ∀ t ∈ rounds.flatMap Round.types, t.KeepsName) (distinct : DistinctNames rounds)
    (haccounts : r.Accounts options (rounds.flatMap Round.valueClasses)) (named : r.Named)
    {files : List GeneratedFile} {forest : List Outline}
    (hcomposes : Composes none r r.roots forest r₁) (hdrain : r₁.drain = (.ok (), r₂))
    (hnames : files.map (·.qualifiedName) = r.roots)
    (hfiles : List.Forall₂ (IsFileOf options) files forest) : HoldsOnce r r₂ files forest := by
  have heffect := hcomposes.effect named
  have hplace := fun {p : Place} => hcomposes.place_cases named (p := p)
  obtain ⟨hforest, hroots⟩ := hcomposes.roots rfl named
  obtain ⟨-, -, -, hafter⟩ := haccounts.after_generate named hcomposes hdrain
  have hstate : ∀ name, r₂.state? name = some .composed ↔
      name ∈ Place.classNames (Outline.placesAll none forest) := by
    intro name
    rw [hafter]
    split
    · next hmem => simp [hmem]
    · next hmem => split <;> simp [hmem]
  exact {
    registered := hcomposes.registeredIn named
    roots := hnames.trans hforest.symm
    written := hfiles.imp fun file outline hfile => by
      obtain ⟨name, declared⟩ := hfile
      exact ⟨_, rfl, declared, Outline.isWrittenAs_of_declaration declared⟩
    nodup_files := hnames ▸ haccounts.nodup_roots
    files := fun name => by
      rw [hnames, hstate, haccounts.mem_roots]
      constructor
      · intro hroot
        exact ⟨Place.mem_classNames.mpr ⟨none, hroots name ((haccounts.mem_roots name).mpr hroot)⟩,
          hroot⟩
      · exact fun h => h.2
    classes := fun name => by
      simp only [hstate]
      split
      · next hmem => exact List.count_eq_one_of_mem heffect.nodup_classes hmem
      · next hmem => exact List.count_eq_zero_of_not_mem hmem
    nested := fun name model hcomposed hmodel hnested => by
      obtain ⟨outer?, hmem⟩ := Place.mem_classNames.mp ((hstate name).mp hcomposed)
      rcases hplace hmem with ⟨-, hroot, -⟩ | ⟨outer, rfl, houter, hlists⟩
      · obtain ⟨model', hmodel', htop⟩ := (haccounts.mem_roots name).mp hroot
        obtain rfl : model = model' := Option.some.inj (hmodel.symm.trans hmodel')
        rw [hnested] at htop
        cases htop
      · exact ⟨outer, hmem, (hstate outer).mpr houter, hlists,
          fun other hlists' => haccounts.lists_unique keeps distinct hlists' hlists⟩
    listed := fun outer child hcomposed hlists => by
      rcases hcomposes.listed_cases named ((hstate outer).mp hcomposed) hlists with
        hskipped | henum | hclass
      · right
        rw [hafter, hskipped]
        split
        · exact Or.inl rfl
        · exact Or.inr rfl
      · exact Or.inl (heffect.registered_enums child henum)
      · exact Or.inr (Or.inl ((hstate child).mpr hclass))
    enums := fun outer enum hcomposed hlists hregistered => by
      have hgone := hcomposes.enum_gone named
        (Or.inr ⟨outer, (hstate outer).mp hcomposed, hlists⟩)
      rw [heffect.lookup_enums] at hgone
      split at hgone
      · next hmem =>
        refine ⟨List.count_eq_one_of_mem heffect.nodup_enums hmem, ?_⟩
        obtain ⟨outer?, hmem⟩ := Place.mem_enumNames.mp hmem
        rcases hplace hmem with ⟨-, -, hnone⟩ | ⟨other, rfl, -, hlists'⟩
        · exact absurd rfl (hnone rfl)
        · rwa [haccounts.lists_unique keeps distinct hlists hlists']
      · exact absurd hgone hregistered }

/-- The files of a run over rounds with distinct names hold each composed class once, the ones with
files of their own at the roots of the files and the others in the classes that list them, and in
the same way each enum that a composed class lists, each as a type of its kind and simple name. What
else a composed class lists is skipped and stands in no file. -/
theorem files_hold_everything_once {options : Options} {rounds : List Round} {s g : Session}
    {files : List GeneratedFile} (distinct : DistinctNames rounds)
    (names : ∀ round ∈ rounds, ∀ t ∈ round.types, Text.beginsWith "." t.qualifiedName = false)
    (hprocess : (processAll rounds).runOn { options } = (.ok (), s))
    (hgenerate : generate.runOn s = (.ok files, g)) :
    ∃ forest, List.Forall₂ (IsFileOf options) files forest ∧
      HoldsOnce s.registry g.registry files forest := by
  have keeps : ∀ t ∈ rounds.flatMap Round.types, t.KeepsName := by
    intro t ht
    obtain ⟨round, hround, ht⟩ := List.mem_flatMap.mp ht
    exact TypeElement.keepsName_of_not_beginsWith (names round hround t ht)
  have keepsClasses : ∀ e ∈ rounds.flatMap Round.valueClasses, e.KeepsName := by
    intro e he
    obtain ⟨round, hround, he⟩ := List.mem_flatMap.mp he
    exact keeps e (List.mem_flatMap.mpr ⟨round, hround, Round.mem_types_of_mem_valueClasses he⟩)
  obtain ⟨haccounts, henums, -, -⟩ := accounts_of_processAll keepsClasses hprocess
  have hnamed : s.registry.Named := ⟨haccounts.classesNamed keepsClasses, henums⟩
  obtain ⟨forest, r, hcomposes, hdrain, hnames, hisFile⟩ :=
    of_generate hprocess hgenerate
  exact ⟨forest, hisFile,
    holdsOnce_of_composes keeps distinct haccounts hnamed hcomposes hdrain hnames hisFile⟩

/-- A class and an enum that are nested in another class stand there once, though the round they come
from is seen twice. -/
theorem mixed_round_stands_once :
    DistinctNames [Round.mixed, Round.mixed] ∧
    (∀ round ∈ [Round.mixed, Round.mixed], ∀ t ∈ round.types,
      Text.beginsWith "." t.qualifiedName = false) ∧
    ∃ s files g forest,
      (processAll [Round.mixed, Round.mixed]).runOn { options := { srcDir := "out" } } =
        (.ok (), s) ∧
      generate.runOn s = (.ok files, g) ∧ files.map (·.qualifiedName) = ["test.A"] ∧
      List.Forall₂ (IsFileOf { srcDir := "out" }) files forest ∧
      HoldsOnce s.registry g.registry files forest := by
  have hdistinct : DistinctNames [Round.mixed, Round.mixed] := by
    unfold DistinctNames
    decide +kernel
  have hnames : ∀ round ∈ [Round.mixed, Round.mixed], ∀ t ∈ round.types,
      Text.beginsWith "." t.qualifiedName = false := by decide +kernel
  obtain ⟨s, files, g, hprocess, hgenerate, hfiles⟩ := runOn_mixed_rounds
  obtain ⟨forest, hisFile, honce⟩ :=
    files_hold_everything_once hdistinct hnames hprocess hgenerate
  exact ⟨hdistinct, hnames, s, files, g, forest, hprocess, hgenerate, hfiles, hisFile, honce⟩

end Session

end DataClassGen
