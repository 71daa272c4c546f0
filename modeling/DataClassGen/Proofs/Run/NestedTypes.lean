import DataClassGen.Proofs.Model.BuilderFunctions
import DataClassGen.Proofs.Run.Skipping

/-!
# What becomes of nested types

A composed class comes from the declaration that its name stands for, and the types nested in that
are sorted by what they are. Its builder is taken into the model, the value classes and the enums
that convert are listed as children, and composing gives each child a place, unless it is skipped,
which has been reported. An enum that does not convert is reported, and so is a type that is none of
these, with the class then skipped. So a nested type stands in the declaration of its class, or it is
reported, or it is a builder behind the first one: the one kind of nested type that is left out
without a word (`nested_types_stand_or_are_reported`, `further_builder_is_dropped`).
-/

namespace DataClassGen

open Source

/-! ### Outlines in outlines -/

namespace Outline

/-- The outline is one of some outlines or stands in one of them, at any depth. -/
inductive StandsIn (outline : Outline) : List Outline → Prop
  | here {outlines : List Outline} (mem : outline ∈ outlines) : StandsIn outline outlines
  | inside {outlines inner : List Outline} {model : ClassModel}
      (mem : .cls model inner ∈ outlines) (within : StandsIn outline inner) :
      StandsIn outline outlines

theorem standsIn_cons {outline first : Outline} {rest : List Outline} :
    StandsIn outline (first :: rest) ↔ outline = first ∨
      (∃ model inner, first = .cls model inner ∧ StandsIn outline inner) ∨
        StandsIn outline rest := by
  constructor
  · rintro (⟨hmem⟩ | ⟨hmem, hwithin⟩)
    · rcases List.mem_cons.mp hmem with rfl | hmem
      · exact Or.inl rfl
      · exact Or.inr (Or.inr (.here hmem))
    · rcases List.mem_cons.mp hmem with rfl | hmem
      · exact Or.inr (Or.inl ⟨_, _, rfl, hwithin⟩)
      · exact Or.inr (Or.inr (.inside hmem hwithin))
  · rintro (rfl | ⟨model, inner, rfl, hwithin⟩ | hrest)
    · exact .here List.mem_cons_self
    · exact .inside List.mem_cons_self hwithin
    · cases hrest with
      | here hmem => exact .here (List.mem_cons_of_mem _ hmem)
      | inside hmem hwithin => exact .inside (List.mem_cons_of_mem _ hmem) hwithin

/-- A class that has a place among outlines stands in them. -/
theorem exists_standsIn_of_mem_classNames {name : String} :
    ∀ {outer : Option String} {outlines : List Outline},
      name ∈ Place.classNames (placesAll outer outlines) →
        ∃ model inner, StandsIn (.cls model inner) outlines ∧ model.qualifiedName = name
  | _, [], h => absurd h List.not_mem_nil
  | _, .cls model inner :: rest, h => by
    rw [placesAll, Place.classNames_append, List.mem_append, places, Place.classNames_cons_class,
      List.mem_cons] at h
    rcases h with (rfl | hinner) | hrest
    · exact ⟨model, inner, .here List.mem_cons_self, rfl⟩
    · obtain ⟨model', inner', hstands, hname⟩ := exists_standsIn_of_mem_classNames hinner
      exact ⟨model', inner', .inside List.mem_cons_self hstands, hname⟩
    · obtain ⟨model', inner', hstands, hname⟩ := exists_standsIn_of_mem_classNames hrest
      exact ⟨model', inner', standsIn_cons.mpr (Or.inr (Or.inr hstands)), hname⟩
  | _, .enum model :: rest, h => by
    rw [placesAll, Place.classNames_append, List.mem_append, places] at h
    rcases h with henum | hrest
    · simp [Place.classNames] at henum
    · obtain ⟨model', inner', hstands, hname⟩ := exists_standsIn_of_mem_classNames hrest
      exact ⟨model', inner', standsIn_cons.mpr (Or.inr (Or.inr hstands)), hname⟩

/-! ### Declarations of outlines -/

/-- Each outline has its declaration among those of all. -/
theorem exists_declaration_of_mem {outlines : List Outline} {types : List TypeDecl}
    (h : declarations outlines = .ok types) {outline : Outline} (hmem : outline ∈ outlines) :
    ∃ type ∈ types, outline.declaration = .ok type := by
  induction outlines generalizing types with
  | nil => cases hmem
  | cons first rest ih =>
    rw [declarations] at h
    obtain ⟨type, htype, h⟩ := bind_ok_iff.mp h
    obtain ⟨others, hothers, h⟩ := bind_ok_iff.mp h
    obtain rfl := Except.ok.inj h
    rcases List.mem_cons.mp hmem with rfl | hmem
    · exact ⟨type, List.mem_cons_self, htype⟩
    · obtain ⟨type', hmem', htype'⟩ := ih hothers hmem
      exact ⟨type', List.mem_cons_of_mem _ hmem', htype'⟩

/-- The declaration of a class holds the types of the class itself and the declarations of what
stands in it. -/
theorem types_of_declaration {model : ClassModel} {inner : List Outline} {type : TypeDecl}
    (h : (cls model inner).declaration = .ok type) :
    (∃ own, model.toDeclaration = .ok own ∧ own.types ⊆ type.types) ∧
      ∃ types, declarations inner = .ok types ∧ types ⊆ type.types := by
  rw [declaration] at h
  obtain ⟨own, hown, h⟩ := bind_ok_iff.mp h
  obtain ⟨types, htypes, h⟩ := bind_ok_iff.mp h
  obtain rfl := Except.ok.inj h
  exact ⟨⟨own, hown, List.subset_append_left _ _⟩, types, htypes, List.subset_append_right _ _⟩

/-- What stands in outlines that have declarations has one too. -/
theorem StandsIn.exists_declaration {outline : Outline} {outlines : List Outline}
    (h : StandsIn outline outlines) (declared : ∀ o ∈ outlines, ∃ type, o.declaration = .ok type) :
    ∃ type, outline.declaration = .ok type := by
  induction h with
  | here hmem => exact declared _ hmem
  | inside hmem _ ih =>
    obtain ⟨type, htype⟩ := declared _ hmem
    obtain ⟨-, types, htypes, -⟩ := types_of_declaration htype
    refine ih fun o ho => ?_
    obtain ⟨type', -, htype'⟩ := exists_declaration_of_mem htypes ho
    exact ⟨type', htype'⟩

end Outline

namespace Registry

/-! ### Children that are composed -/

/-- Each of the children that are composed has an outline, unless it is skipped. -/
theorem Composes.children_stand {outer : Option String} {r r' : Registry} {children : List String}
    {outlines : List Outline} (h : Composes outer r children outlines r') (named : r.Named) :
    ∀ child ∈ children, (∃ o ∈ outlines, o.name = child) ∨ r.state? child = some .skipped := by
  have behind : ∀ {r r₁ : Registry} {ps : List Place} {first : Outline} {rest : List Outline}
      {child : String}, Effect r ps r₁ →
      (∃ o ∈ rest, o.name = child) ∨ r₁.state? child = some .skipped →
        (∃ o ∈ first :: rest, o.name = child) ∨ r.state? child = some .skipped := by
    rintro r r₁ ps first rest child heffect (⟨o, ho, hname⟩ | hskipped)
    · exact Or.inl ⟨o, List.mem_cons_of_mem _ ho, hname⟩
    · rw [heffect.state?] at hskipped
      split at hskipped
      · cases hskipped
      · exact Or.inr hskipped
  induction h with
  | done outer r => exact fun child hchild => absurd hchild List.not_mem_nil
  | @enum outer r r' child rest model outlines found after ih =>
    obtain rfl : model.qualifiedName = child := named.enums _ _ found
    have here : Effect r [⟨some outer, true, model.qualifiedName⟩] (r.withoutEnum _) :=
      Effect.enum (some outer) found
    intro child hchild
    rcases List.mem_cons.mp hchild with rfl | hchild
    · exact Or.inl ⟨_, List.mem_cons_self, rfl⟩
    · exact behind here (ih (here.named named) child hchild)
  | skipped noEnum isSkipped after ih =>
    intro child hchild
    rcases List.mem_cons.mp hchild with rfl | hchild
    · exact Or.inr isSkipped
    · exact ih named child hchild
  | @cls outer r r₁ r₂ r' child rest model inner outlines must found inside entered after ihInside
      ihAfter =>
    obtain rfl : model.qualifiedName = child := named.classes _ _ found
    have here := Effect.cls outer found (inside.effect (named.withoutClass _)) entered
    intro child hchild
    rcases List.mem_cons.mp hchild with rfl | hchild
    · exact Or.inl ⟨_, List.mem_cons_self, rfl⟩
    · exact behind here (ihAfter (here.named named) child hchild)

/-- A class that stands in what is composed has a registered model, and each of its children stands
in it or is skipped. -/
theorem Composes.of_standsIn {outer : Option String} {r r' : Registry} {children : List String}
    {outlines : List Outline} (h : Composes outer r children outlines r') (named : r.Named)
    {model : ClassModel} {inner : List Outline} (hstands : Outline.StandsIn (.cls model inner) outlines) :
    r.classes.lookup model.qualifiedName = some model ∧
      ∀ child ∈ model.children,
        (∃ o ∈ inner, o.name = child) ∨ r.state? child = some .skipped := by
  have before : ∀ {r r₁ : Registry} {ps : List Place}, Effect r ps r₁ →
      (r₁.classes.lookup model.qualifiedName = some model ∧ ∀ child ∈ model.children,
        (∃ o ∈ inner, o.name = child) ∨ r₁.state? child = some .skipped) →
      r.classes.lookup model.qualifiedName = some model ∧ ∀ child ∈ model.children,
        (∃ o ∈ inner, o.name = child) ∨ r.state? child = some .skipped := by
    rintro r r₁ ps heffect ⟨hmodel, hchildren⟩
    refine ⟨(heffect.class_kept hmodel).2, fun child hchild => ?_⟩
    rcases hchildren child hchild with hinner | hskipped
    · exact Or.inl hinner
    · rw [heffect.state?] at hskipped
      split at hskipped
      · cases hskipped
      · exact Or.inr hskipped
  induction h with
  | done outer r =>
    cases hstands with
    | here hmem => cases hmem
    | inside hmem => cases hmem
  | @enum outer r r' child rest enumModel outlines found after ih =>
    obtain rfl : enumModel.qualifiedName = child := named.enums _ _ found
    have here : Effect r [⟨some outer, true, enumModel.qualifiedName⟩] (r.withoutEnum _) :=
      Effect.enum (some outer) found
    rcases Outline.standsIn_cons.mp hstands with heq | ⟨_, _, heq, -⟩ | hrest
    · cases heq
    · cases heq
    · exact before here (ih (here.named named) hrest)
  | skipped noEnum isSkipped after ih => exact ih named hstands
  | @cls outer r r₁ r₂ r' child rest found inside outlines must hfound hinside entered after ihInside
      ihAfter =>
    obtain rfl : found.qualifiedName = child := named.classes _ _ hfound
    have here := Effect.cls outer hfound (hinside.effect (named.withoutClass _)) entered
    rcases Outline.standsIn_cons.mp hstands with heq | ⟨_, _, heq, hwithin⟩ | hrest
    · obtain ⟨rfl, rfl⟩ := Outline.cls.inj heq
      exact ⟨hfound, hinside.children_stand (named.withoutClass _)⟩
    · obtain ⟨rfl, rfl⟩ := Outline.cls.inj heq
      obtain ⟨hmodel, hchildren⟩ := ihInside (named.withoutClass _) hwithin
      exact ⟨lookup_of_eraseKey hmodel, hchildren⟩
    · exact before here (ihAfter (here.named named) hrest)

end Registry

/-! ### What a verdict says of nested types -/

/-- The builder that a class has in its model is the first one that is nested in it. -/
theorem ClassModel.exists_builder_of_ofElement? {e : TypeElement} {enumChildren : List String}
    {model : ClassModel} {log log' : Log}
    (h : (ofElement? e enumChildren).runOn log = (.ok (some model), log')) {builder : TypeElement}
    (hbuilder : e.nestedTypes.find? (·.isBuilder) = some builder) :
    ∃ b, model.builder = some b ∧ b.name = builder.simpleName := by
  obtain ⟨c, -, -, -, -, hfound, hmodel⟩ := context_of_ofElement? h
  rw [hbuilder] at hfound
  obtain ⟨b, log₁, log₂, hb, hcontext⟩ := hfound
  obtain ⟨roles, changing, made⟩ := isMadeFrom_of_ofContext hmodel
  obtain ⟨parts, log₃, -, builderMade⟩ := BuilderModel.isMadeFrom_of_ofElement? hb
  refine ⟨b, ?_, builderMade.name⟩
  rw [made.builder, hcontext]
  rfl

namespace TypeElement

/-- A class that has a place has no types in it that cannot stay there. -/
theorem misplacedTypes_of_placement {options : Options} {e : TypeElement}
    (h : (e.placement options).1 ≠ .nowhere) : e.misplacedTypes = [] := by
  rw [placement] at h
  split at h
  · exact absurd rfl h
  · by_contra hmisplaced
    rw [← List.isEmpty_iff] at hmisplaced
    exact h (if_neg hmisplaced)

/-- The verdict on a class that gets a model has its builder and all that is reported of its enums,
and none of its types is out of place. -/
theorem of_verdict_of_model {options : Options} {e : TypeElement} {v : Verdict}
    (h : e.verdict options = .ok v) {model : ClassModel} (hmodel : v.model = some model) :
    e.enumLog ⊆ v.log ∧ e.misplacedTypes = [] ∧
      ∀ builder, e.nestedTypes.find? (·.isBuilder) = some builder →
        ∃ b, model.builder = some b ∧ b.name = builder.simpleName := by
  have hplace : (e.placement options).1 ≠ .nowhere := by
    rw [(isModeledBy_of_verdict h hmodel).1.place]
    split <;> simp
  have of_modelVerdict : ∀ {isTopLevel : Bool} {log : Log},
      e.modelVerdict isTopLevel log = .ok v → e.enumLog ⊆ v.log ∧
        ∀ builder, e.nestedTypes.find? (·.isBuilder) = some builder →
          ∃ b, model.builder = some b ∧ b.name = builder.simpleName := by
    intro isTopLevel log h
    rw [modelVerdict] at h
    split at h
    · cases h
    · next found modelLog hfound =>
      obtain rfl := Except.ok.inj h
      obtain ⟨original, rfl, rfl⟩ := Option.map_eq_some_iff.mp hmodel
      exact ⟨fun d hd => List.mem_append_left _ (List.mem_append_right _ hd),
        fun builder hbuilder => ClassModel.exists_builder_of_ofElement? hfound hbuilder⟩
  have hmisplaced := misplacedTypes_of_placement hplace
  rw [verdict] at h
  split at h
  · obtain rfl := Except.ok.inj h
    cases hmodel
  · exact ⟨(of_modelVerdict h).1, hmisplaced, (of_modelVerdict h).2⟩
  · exact ⟨(of_modelVerdict h).1, hmisplaced, (of_modelVerdict h).2⟩

/-- The type is a builder that is nested behind another one, and nothing else. -/
def HasFurtherBuilder (e u : TypeElement) : Prop :=
  u.isBuilder = true ∧ u.isEnum = false ∧ u.isValueClass = false ∧
    e.nestedTypes.find? (·.isBuilder) ≠ some u

/-- A type that is nested in a class which gets a model is its builder, a child of it, an enum that
was reported, or a further builder. -/
theorem nested_cases {options : Options} {e : TypeElement} {v : Verdict}
    (h : e.verdict options = .ok v) {model : ClassModel} (hmodel : v.model = some model)
    (keeps : ∀ u ∈ e.nestedTypes, u.KeepsName) {u : TypeElement} (hu : u ∈ e.nestedTypes) :
    e.nestedTypes.find? (·.isBuilder) = some u ∨ u.qualifiedName ∈ model.children ∨
      (u.isEnum = true ∧ (EnumModel.ofElement? u).1 = none) ∨ e.HasFurtherBuilder u := by
  obtain ⟨-, hmisplaced, -⟩ := of_verdict_of_model h hmodel
  have hchildren := (isModeledBy_of_verdict h hmodel).1.children
  by_cases hfirst : e.nestedTypes.find? (·.isBuilder) = some u
  · exact Or.inl hfirst
  cases hvalue : u.isValueClass with
  | true =>
    right; left
    rw [hchildren]
    exact List.mem_append_left _ (List.mem_map_of_mem (List.mem_filter.mpr ⟨hu, hvalue⟩))
  | false =>
    cases henum : u.isEnum with
    | true =>
      cases hconverted : (EnumModel.ofElement? u).1 with
      | none => exact Or.inr (Or.inr (Or.inl ⟨rfl, rfl⟩))
      | some enum =>
        have hname : enum.qualifiedName = u.qualifiedName := by
          rw [EnumModel.qualifiedName, EnumModel.cls_of_ofElement? hconverted]
          exact keeps u hu
        right; left
        rw [hchildren, ← hname]
        exact List.mem_append_right _ (List.mem_map_of_mem (List.mem_filterMap.mpr
          ⟨u, List.mem_filter.mpr ⟨hu, henum⟩, hconverted⟩))
    | false =>
      cases hbuilder : u.isBuilder with
      | true => exact Or.inr (Or.inr (Or.inr ⟨hbuilder, henum, hvalue, hfirst⟩))
      | false =>
        have hmem : u ∈ e.misplacedTypes := List.mem_filter.mpr ⟨hu, by simp [hbuilder, henum, hvalue]⟩
        rw [hmisplaced] at hmem
        cases hmem

end TypeElement

namespace Session

open TypeElement (firstOf?)

/-! ### The whole run -/

/-- What is registered after a run comes from the declaration of its name, and what was reported of
that stands in the log. -/
theorem judged_of_processAll {options : Options} {rounds : List Round} {s : Session}
    (keeps : ∀ e ∈ rounds.flatMap Round.valueClasses, e.KeepsName)
    (h : (processAll rounds).runOn { options } = (.ok (), s)) {name : String} {model : ClassModel}
    (hmodel : s.registry.classes.lookup name = some model) :
    ∃ e v, declaration? options rounds name = some e ∧ e.verdict options = .ok v ∧
      v.model = some model ∧ v.log ⊆ s.log := by
  refine ((run_induction (P := fun done r log => r.Explains options done log ∧
    ∀ name model, r.classes.lookup name = some model → ∃ e v, firstOf? options done name = some e ∧
      e.verdict options = .ok v ∧ v.model = some model ∧ v.log ⊆ log)
    ⟨Registry.Explains.start, fun _ _ h => nomatch h⟩ ?_ ?_ h).1).2 name model hmodel
  · rintro done e rest r log - ⟨hexplains, hjudged⟩ hpass
    refine ⟨hexplains.pass hpass, fun name model hmodel => ?_⟩
    obtain ⟨e', v, he', hrest⟩ := hjudged name model hmodel
    exact ⟨e', v, TypeElement.firstOf?_append_of_some he' [e], hrest⟩
  · rintro done e rest r log v hall ⟨hexplains, hjudged⟩ - hwanted hunknown hverdict
    have hkeeps : e.KeepsName := by
      refine keeps e ?_
      rw [hall]
      exact List.mem_append_right _ List.mem_cons_self
    refine ⟨hexplains.settle hkeeps hwanted hunknown hverdict, fun name model hmodel => ?_⟩
    rcases Registry.registered_settle_cases hmodel with hold | ⟨hnew, hname⟩
    · obtain ⟨e', v', he', hverdict', hmodel', hlog⟩ := hjudged name model hold
      exact ⟨e', v', TypeElement.firstOf?_append_of_some he' [e], hverdict', hmodel',
        fun d hd => List.mem_append_left _ (hlog hd)⟩
    · have hmodeled := (TypeElement.isModeledBy_of_verdict hverdict hnew).1
      obtain rfl : e.qualifiedName = name := (hmodeled.qualifiedName hkeeps).symm.trans hname
      exact ⟨e, v, TypeElement.firstOf?_append_self hwanted (hexplains.known _ hunknown), hverdict,
        hnew, List.subset_append_right _ _⟩

/-- The outlines of files have declarations. -/
theorem exists_declaration_of_isFileOf {options : Options} {files : List GeneratedFile}
    {forest : List Outline} (h : List.Forall₂ (IsFileOf options) files forest) :
    ∀ o ∈ forest, ∃ type, o.declaration = .ok type := by
  induction h with
  | nil => exact fun _ ho => nomatch ho
  | cons hfirst hrest ih =>
    intro o ho
    rcases List.mem_cons.mp ho with rfl | ho
    · obtain ⟨name, declared⟩ := hfirst
      exact ⟨_, declared⟩
    · exact ih o ho

/-- An error or a warning is about the type or about something in it: about a name that begins with
the type's name, or that a type has which is nested in one of the type's name. -/
def ReportsOn (rounds : List Round) (log : Log) (u : TypeElement) : Prop :=
  ∃ d ∈ log, d.severity ≠ .note ∧ ∃ name, d.element = some name ∧
    (Text.beginsWith u.qualifiedName name = true ∨
      ∃ t ∈ rounds.flatMap Round.types, t.qualifiedName = u.qualifiedName ∧
        ∃ inner ∈ t.nestedTypes, inner.qualifiedName = name)

/-- The declaration `type` of a class with this model and these outlines in it holds what is written
of the type `u`: as its builder, or as a class or an enum that is nested in it. -/
def Holds (model : ClassModel) (inner : List Outline) (type : TypeDecl) (u : TypeElement) : Prop :=
  (∃ b, model.builder = some b ∧ b.name = u.simpleName ∧
    ∃ declared ∈ type.types, b.toDeclaration model.cls = .ok declared ∧ b.IsWrittenAs declared) ∨
  ∃ o ∈ inner, o.name = u.qualifiedName ∧
    ∃ declared ∈ type.types, o.declaration = .ok declared ∧ o.IsWrittenAs declared

theorem reportsOn_of_blames {rounds : List Round} {log : Log} {e u : TypeElement}
    (he : e ∈ rounds.flatMap Round.types) (hname : e.qualifiedName = u.qualifiedName)
    (h : log.Blames e) : ReportsOn rounds log u := by
  obtain ⟨d, hd, hsevere, t, ht, habout⟩ := h
  refine ⟨d, hd, hsevere, t.qualifiedName, habout, ?_⟩
  rcases ht with rfl | ht
  · rw [hname]
    exact Or.inl (by simpa using Text.beginsWith_append u.qualifiedName "")
  · exact Or.inr ⟨e, he, hname, t, ht, rfl⟩

theorem reportsOn_of_enum {rounds : List Round} {log : Log} {e u : TypeElement}
    (he : e ∈ rounds.flatMap Round.types) (hu : u ∈ e.nestedTypes) (henum : u.isEnum = true)
    (hnone : (EnumModel.ofElement? u).1 = none) (hlog : e.enumLog ⊆ log) :
    ReportsOn rounds log u := by
  obtain ⟨d, hd, hsevere, habout⟩ := EnumModel.reported_of_none (.self u) hnone
  have hmem : d ∈ e.enumLog := List.mem_flatMap.mpr ⟨u, List.mem_filter.mpr ⟨hu, henum⟩, hd⟩
  have hnote : d.severity ≠ .note := by simp [hsevere]
  rcases habout with ⟨inner, hinner, habout⟩ | ⟨m, -, habout⟩
  · exact ⟨d, hlog hmem, hnote, _, habout,
      Or.inr ⟨_, Round.nested_mem_types he hu, rfl, inner, hinner, rfl⟩⟩
  · rw [String.append_assoc] at habout
    exact ⟨d, hlog hmem, hnote, _, habout, Or.inl (Text.beginsWith_append _ _)⟩

/-- In a run that succeeds, every composed class is that of the declaration that its name stands for,
and stands in the files. Each type nested in that declaration stands in it, as its builder or as a
class or an enum nested in it, unless it was reported, or something in it, or it is a builder behind
another one. -/
theorem nested_types_stand_or_are_reported {options : Options} {rounds : List Round} {s g : Session}
    {files : List GeneratedFile}
    (names : ∀ round ∈ rounds, ∀ t ∈ round.types, Text.beginsWith "." t.qualifiedName = false)
    (hprocess : (processAll rounds).runOn { options } = (.ok (), s))
    (hgenerate : generate.runOn s = (.ok files, g)) :
    ∃ forest, List.Forall₂ (IsFileOf options) files forest ∧
      ∀ name, g.registry.state? name = some .composed →
        ∃ e, declaration? options rounds name = some e ∧
          ∃ model inner type, Outline.StandsIn (.cls model inner) forest ∧
            model.qualifiedName = name ∧ (Outline.cls model inner).declaration = .ok type ∧
            ∀ u ∈ e.nestedTypes, Holds model inner type u ∨ ReportsOn rounds g.log u ∨
              e.HasFurtherBuilder u := by
  have keepsTypes : ∀ t ∈ rounds.flatMap Round.types, t.KeepsName := by
    intro t ht
    obtain ⟨round, hround, ht⟩ := List.mem_flatMap.mp ht
    exact TypeElement.keepsName_of_not_beginsWith (names round hround t ht)
  have hsubset := (Round.valueClasses_sublist_types rounds).subset
  have keeps : ∀ e ∈ rounds.flatMap Round.valueClasses, e.KeepsName := fun e he =>
    keepsTypes e (hsubset he)
  obtain ⟨haccounts, henums, -, -⟩ := accounts_of_processAll keeps hprocess
  have hnamed : s.registry.Named := ⟨haccounts.classesNamed keeps, henums⟩
  have hexplains := explains_of_processAll keeps hprocess
  have hlog := log_subset_of_generate hgenerate
  obtain ⟨forest, r, hcomposes, hdrain, -, hfiles⟩ := of_generate hprocess hgenerate
  obtain ⟨-, -, -, hafter⟩ := haccounts.after_generate hnamed hcomposes hdrain
  refine ⟨forest, hfiles, fun name hcomposed => ?_⟩
  have hplace : name ∈ Place.classNames (Outline.placesAll none forest) := by
    rw [hafter] at hcomposed
    split at hcomposed
    · next hmem => exact hmem
    · split at hcomposed <;> cases hcomposed
  obtain ⟨model, inner, hstands, rfl⟩ := Outline.exists_standsIn_of_mem_classNames hplace
  obtain ⟨hmodel, hchildren⟩ := hcomposes.of_standsIn hnamed hstands
  obtain ⟨e, v, hdeclared, hverdict, hv, hvlog⟩ := judged_of_processAll keeps hprocess hmodel
  obtain ⟨type, htype⟩ := hstands.exists_declaration (exists_declaration_of_isFileOf hfiles)
  have he : e ∈ rounds.flatMap Round.types := hsubset (List.mem_of_find?_eq_some hdeclared)
  obtain ⟨henumLog, -, hbuilders⟩ := TypeElement.of_verdict_of_model hverdict hv
  obtain ⟨⟨own, hown, hownTypes⟩, types, htypes, hinnerTypes⟩ := Outline.types_of_declaration htype
  refine ⟨e, hdeclared, model, inner, type, hstands, rfl, htype, fun u hu => ?_⟩
  rcases TypeElement.nested_cases hverdict hv
      (fun _ hu => TypeElement.keepsName_of_nested keepsTypes he hu) hu with
    hfirst | hchild | ⟨henum, hnone⟩ | hfurther
  · obtain ⟨b, hb, hname⟩ := hbuilders u hfirst
    obtain ⟨-, -, -, hdeclarations, -⟩ := ClassModel.toDeclaration_spec hown
    obtain ⟨declared, hmem, hdeclaration⟩ := hdeclarations b hb
    exact Or.inl (Or.inl ⟨b, hb, hname, declared, hownTypes hmem, hdeclaration,
      b.isWrittenAs_of_toDeclaration hdeclaration⟩)
  · rcases hchildren _ hchild with ⟨o, ho, hname⟩ | hskipped
    · obtain ⟨declared, hmem, hdeclaration⟩ := Outline.exists_declaration_of_mem htypes ho
      exact Or.inl (Or.inr ⟨o, ho, hname, declared, hinnerTypes hmem, hdeclaration,
        Outline.isWrittenAs_of_declaration hdeclaration⟩)
    · obtain ⟨e', he', hblames⟩ := hexplains.skipped _ hskipped
      have hname := List.find?_some he'
      simp only [Bool.and_eq_true, beq_iff_eq] at hname
      exact Or.inr (Or.inl (reportsOn_of_blames
        (hsubset (List.mem_of_find?_eq_some he')) hname.2 (hblames.mono hlog)))
  · exact Or.inr (Or.inl (reportsOn_of_enum he hu henum hnone
      (fun d hd => hlog (hvlog (henumLog hd)))))
  · exact Or.inr (Or.inr hfurther)

/-- A builder with one method, which finishes a value of the class `test.P`. -/
def bareBuilder (qualifiedName : String) : TypeElement :=
  { TypeElement.bare qualifiedName [] with
    annotations := [{ typeName := builderMarker }]
    methods := [{ name := "build", modifiers := [.abstract], returnType := .declared "test.P" [] }] }

/-- A value class with two builders. -/
def twoBuilders : TypeElement :=
  .bareValueClass "test.P" [bareBuilder "test.P.First", bareBuilder "test.P.Second"]

/-- The class with two builders is composed without a report. Its first builder stands in it, and its
second builder stands nowhere in the file. -/
theorem further_builder_is_dropped :
    (∀ round ∈ [{ elements := [twoBuilders] : Round }], ∀ t ∈ round.types,
      Text.beginsWith "." t.qualifiedName = false) ∧
    ∃ s files g forest model inner type,
      (processAll [{ elements := [twoBuilders] }]).runOn { options := { srcDir := "out" } } =
        (.ok (), s) ∧
      generate.runOn s = (.ok files, g) ∧ g.log = [] ∧
      g.registry.state? "test.P" = some .composed ∧
      List.Forall₂ (IsFileOf { srcDir := "out" }) files forest ∧
      Outline.StandsIn (.cls model inner) forest ∧ model.qualifiedName = "test.P" ∧
      (∀ u ∈ twoBuilders.nestedTypes, u.qualifiedName ≠ "test.P.Second" →
        Holds model inner type u) ∧
      files.map (fun file => Text.hasPart "Second" file.contents) = [false] := by
  have hnames : ∀ round ∈ [{ elements := [twoBuilders] : Round }], ∀ t ∈ round.types,
      Text.beginsWith "." t.qualifiedName = false := by decide +kernel
  have hprocess := runOn_processAll
    (show ((processAll [{ elements := [twoBuilders] }]).runOn
      { options := { srcDir := "out" } }).1 = .ok () by decide +kernel)
  obtain ⟨files, g, hgenerate, hcontents⟩ := runOn_generate_ok
    (show (generateBounded.runOn (after { srcDir := "out" } [{ elements := [twoBuilders] }])).1.map
      (·.map fun file => Text.hasPart "Second" file.contents) = .ok [false] by decide +kernel)
  have hend : (generate.runOn (after { srcDir := "out" } [{ elements := [twoBuilders] }])).2.log = [] ∧
      (generate.runOn (after { srcDir := "out" }
        [{ elements := [twoBuilders] }])).2.registry.state? "test.P" = some .composed := by
    rw [generate_eq_bounded]
    decide +kernel
  rw [hgenerate] at hend
  obtain ⟨hlog, hcomposed⟩ := hend
  obtain ⟨forest, hfiles, hstand⟩ := nested_types_stand_or_are_reported hnames hprocess hgenerate
  obtain ⟨e, hdeclared, model, inner, type, hstands, hname, -, hnested⟩ := hstand _ hcomposed
  have hdeclaration : declaration? { srcDir := "out" } [{ elements := [twoBuilders] }] "test.P" =
      some twoBuilders := rfl
  obtain rfl := Option.some.inj (hdeclaration.symm.trans hdeclared)
  refine ⟨hnames, _, files, g, forest, model, inner, type, hprocess, hgenerate, hlog, hcomposed,
    hfiles, hstands, hname, fun u hu hsecond => ?_, hcontents⟩
  rcases hnested u hu with hholds | ⟨d, hd, -⟩ | ⟨hbuilder, -, -, hfirst⟩
  · exact hholds
  · rw [hlog] at hd
    cases hd
  · have hall : ∀ u ∈ twoBuilders.nestedTypes, u.isBuilder = true →
        u.qualifiedName ≠ "test.P.Second" →
          twoBuilders.nestedTypes.find? (·.isBuilder) = some u := by
      exact List.forall_mem_cons.mpr ⟨fun _ _ => rfl, List.forall_mem_cons.mpr
        ⟨fun _ hne => absurd rfl hne, fun _ h => nomatch h⟩⟩
    exact absurd (hall u hu hbuilder hsecond) hfirst

end Session

end DataClassGen
