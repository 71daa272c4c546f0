import DataClassGen.Proofs.Run.CompleteRounds

/-!
# Where generating stops

In a run over complete rounds generating can fail in two ways only: a default is wanted for a type
without values, or a class is stranded, that is, it is nested in a class that stands in a file
and is itself none of those to convert. The class around it lists it all the same, so that it
is missed when the file is composed. This takes a class that is converted in a type that is none, so
that it never happens unless nested classes are ignored.
-/

namespace DataClassGen

namespace TypeElement

/-! ### Placement -/

theorem of_placement {options : Options} {e : TypeElement} {place : Placement}
    (h : (e.placement options).1 = place) (hsomewhere : place ≠ .nowhere) :
    (e.outerPlacement options).1 = place := by
  rw [placement] at h
  split at h
  · exact absurd h.symm hsomewhere
  · next outerPlace log _ hplace =>
    rw [hplace]
    simp only at h
    split at h
    · exact h
    · exact absurd h.symm hsomewhere

/-- A class has a file of its own if it is at the top, or if it is in a type that is no value
class and nested classes are ignored. -/
theorem of_placement_ownFile {options : Options} {e : TypeElement}
    (h : (e.placement options).1 = .ownFile) : e.enclosing = none ∨
      options.ignoreNested = true ∧ ∃ p, e.enclosing = some p ∧ p.isValueClass = false := by
  have houter := of_placement h (by decide)
  cases henclosing : e.enclosing with
  | none => exact Or.inl rfl
  | some p =>
    right
    rw [outerPlacement] at houter
    split at houter
    · cases houter
    · rw [henclosing, Option.all_some, isTopLevel, henclosing] at houter
      split at houter
      · cases houter
      · next hclass =>
        split at houter
        · next hignore => exact ⟨hignore, p, rfl, by simpa using hclass⟩
        · cases houter

/-- Unless nested classes are ignored, a class with a file of its own is nested in nothing. -/
theorem enclosing_of_placement_ownFile {options : Options} {e : TypeElement}
    (h : (e.placement options).1 = .ownFile) (hignore : options.ignoreNested = false) :
    e.enclosing = none := by
  rcases of_placement_ownFile h with hnone | ⟨hignored, -⟩
  · exact hnone
  · rw [hignore] at hignored
    cases hignored

/-- A class goes into the class around it if that is a value class to convert. -/
theorem of_placement_insideEnclosing {options : Options} {e : TypeElement}
    (h : (e.placement options).1 = .insideEnclosing) :
    ∃ p, e.enclosing = some p ∧ p.isValueClass = true ∧
      options.isTargeted p.simpleName e.outermostSimpleName = true := by
  have houter := of_placement h (by decide)
  rw [outerPlacement] at houter
  split at houter
  · cases houter
  · next hcut =>
    cases henclosing : e.enclosing with
    | none =>
      rw [henclosing, Option.all_none, if_pos rfl, isTopLevel, henclosing] at houter
      cases houter
    | some p =>
      rw [henclosing, Option.all_some] at houter
      split at houter
      · next hclass =>
        refine ⟨p, rfl, hclass, ?_⟩
        simpa [isCutOff, henclosing, hclass] using hcut
      · split at houter <;> cases houter

end TypeElement

/-- A class that goes into the class around it is nested in a value class of the rounds that is to be
converted. -/
theorem TreeRounds.exists_outer {options : Options} {rounds : List Round} (h : TreeRounds rounds)
    (named : TopsNamed rounds) {e : TypeElement} (he : e ∈ rounds.flatMap Round.types)
    (hplace : (e.placement options).1 = .insideEnclosing) :
    ∃ p ∈ rounds.flatMap Round.types, p.isValueClass = true ∧ p.isWanted options = true ∧
      e.enclosing = some p.asEnclosing ∧
      (∃ u ∈ p.nestedTypes, e = u.declaredIn (some p.asEnclosing)) ∧
      p.qualifiedName < e.qualifiedName := by
  obtain ⟨p', hp', hclass, htargeted⟩ := TypeElement.of_placement_insideEnclosing hplace
  rcases h.cases named he with ⟨hnone, -⟩ | ⟨p, hp, henclosing, hnested, hlt, houtermost⟩
  · rw [hnone] at hp'
    cases hp'
  · obtain rfl : p' = p.asEnclosing := Option.some.inj (hp'.symm.trans henclosing)
    refine ⟨p, hp, hclass, ?_, henclosing, hnested, hlt⟩
    rw [TypeElement.isWanted, ← houtermost]
    exact htargeted

namespace Registry

open TypeElement

/-! ### The registry of a run over complete rounds -/

/-- The registry is that of a run over complete rounds. -/
structure IsOfComplete (r : Registry) (options : Options) (rounds : List Round) : Prop where
  complete : CompleteRounds rounds
  accounts : r.Accounts options (rounds.flatMap Round.valueClasses)
  enumsNamed : r.EnumsNamed

/-- How many models are registered under the name. -/
def supply (r : Registry) (name : String) : Nat :=
  (if (r.enums.lookup name).isSome then 1 else 0) +
    (if (r.classes.lookup name).isSome then 1 else 0)

/-- The class goes into a file: it has one of its own, or a class that goes into a file lists it. -/
inductive InFile (r : Registry) : String → Prop
  | root {name : String} (root : name ∈ r.roots) : InFile r name
  | nested {outer name : String} (inFile : InFile r outer) (lists : r.Lists outer name)
      (registered : r.classes.lookup name ≠ none) : InFile r name

/-- The child is a value class that is not to be converted, nested in one that goes into a file. -/
structure Stranded (r : Registry) (options : Options) (rounds : List Round)
    (outer child : String) : Prop where
  inFile : r.InFile outer
  nested : ∃ e ∈ rounds.flatMap Round.valueClasses, e.qualifiedName = outer ∧
    ∃ u ∈ e.nestedTypes, u.qualifiedName = child ∧ u.isValueClass = true ∧
      u.isWanted options = false

namespace IsOfComplete

variable {r : Registry} {options : Options} {rounds : List Round}

theorem mem_types {e : TypeElement} (he : e ∈ rounds.flatMap Round.valueClasses) :
    e ∈ rounds.flatMap Round.types ∧ e.isValueClass = true := by
  rw [Round.flatMap_valueClasses_eq_filter] at he
  exact List.mem_filter.mp he

theorem mem_valueClasses {e : TypeElement} (he : e ∈ rounds.flatMap Round.types)
    (hclass : e.isValueClass = true) : e ∈ rounds.flatMap Round.valueClasses := by
  rw [Round.flatMap_valueClasses_eq_filter]
  exact List.mem_filter.mpr ⟨he, hclass⟩

theorem keeps (h : r.IsOfComplete options rounds) :
    ∀ e ∈ rounds.flatMap Round.valueClasses, e.KeepsName := fun _ he =>
  h.complete.keepsName (mem_types he).1

theorem named (h : r.IsOfComplete options rounds) : r.Named where
  classes := h.accounts.classesNamed h.keeps
  enums := h.enumsNamed

theorem lists_unique (h : r.IsOfComplete options rounds) {outer other child : String}
    (hlists : r.Lists outer child) (hlists' : r.Lists other child) : outer = other :=
  h.accounts.lists_unique (fun _ ht => h.complete.keepsName ht) h.complete.distinctNames hlists
    hlists'

/-- A nested value class is one of the rounds', declared in the class it is nested in. -/
theorem nested_class (h : r.IsOfComplete options rounds) {e u : TypeElement}
    (he : e ∈ rounds.flatMap Round.valueClasses) (hu : u ∈ e.nestedTypes)
    (hclass : u.isValueClass = true) :
    u.declaredIn (some e.asEnclosing) ∈ rounds.flatMap Round.valueClasses :=
  mem_valueClasses (h.complete.nested (mem_types he).1 hu).1 hclass

/-- An enum that has the name of a type nested in a class came along with that class. -/
theorem enum_origin (h : r.IsOfComplete options rounds) {e u : TypeElement}
    (he : e ∈ rounds.flatMap Round.valueClasses) (hu : u ∈ e.nestedTypes)
    (hregistered : r.enums.lookup u.qualifiedName ≠ none) :
    u.qualifiedName ∈ e.enumModels.map (·.qualifiedName) := by
  obtain ⟨enum, henum⟩ := Option.ne_none_iff_exists'.mp hregistered
  obtain ⟨e', he', hmem⟩ := h.accounts.enum _ _ henum
  have hname := h.enumsNamed _ _ henum
  have keeps : ∀ u' ∈ e'.nestedTypes, u'.KeepsName := fun u' hu' =>
    h.complete.keepsName_nested (mem_types he').1 hu'
  obtain ⟨u', hu', -, -, hname'⟩ := exists_nested_of_mem_enumModels keeps hmem
  obtain rfl : e = e' := h.complete.eq_of_nested_name (mem_types he).1 (mem_types he').1 hu hu'
    (hname.symm.trans hname')
  exact List.mem_map.mpr ⟨enum, hmem, hname⟩

/-- A value class nested in another one is listed once more than there are enums of its name. -/
theorem lt_count (h : r.IsOfComplete options rounds) {e u : TypeElement} {model : ClassModel}
    (he : e ∈ rounds.flatMap Round.valueClasses) (hmodel : e.IsModeledBy options model)
    (hu : u ∈ e.nestedTypes) (hclass : u.isValueClass = true) :
    (if (r.enums.lookup u.qualifiedName).isSome then 1 else 0) <
      model.children.count u.qualifiedName := by
  have hlisted : u.qualifiedName ∈ (e.nestedTypes.filter (·.isValueClass)).map (·.qualifiedName) :=
    List.mem_map_of_mem (List.mem_filter.mpr ⟨hu, hclass⟩)
  have hfirst := List.count_pos_iff.mpr hlisted
  rw [hmodel.children, List.count_append]
  split
  · next hregistered =>
    have hsecond := List.count_pos_iff.mpr
      (h.enum_origin he hu (Option.isSome_iff_ne_none.mp hregistered))
    omega
  · omega

/-- A listed child is skipped or stranded, or listed no more often than models are registered under
its name. -/
theorem count_le_supply (h : r.IsOfComplete options rounds) {outer child : String}
    {model : ClassModel} (hinFile : r.InFile outer)
    (hmodel : r.classes.lookup outer = some model) :
    r.state? child = some .skipped ∨ r.Stranded options rounds outer child ∨
      model.children.count child ≤ r.supply child := by
  obtain ⟨e, he, -, hname, hmodeled, henums⟩ := h.accounts.model _ _ hmodel
  have hnodup := h.complete.nodup_nested (mem_types he).1
  have keeps : ∀ u ∈ e.nestedTypes, u.KeepsName := fun u hu =>
    h.complete.keepsName_nested (mem_types he).1 hu
  by_cases hskipped : r.state? child = some .skipped
  · exact Or.inl hskipped
  by_cases hstranded : r.Stranded options rounds outer child
  · exact Or.inr (Or.inl hstranded)
  -- What is listed as a class is registered as one, and what is listed as an enum as one.
  have hclasses : ((e.nestedTypes.filter (·.isValueClass)).map (·.qualifiedName)).count child ≤
      if (r.classes.lookup child).isSome then 1 else 0 := by
    by_cases hlisted : child ∈ (e.nestedTypes.filter (·.isValueClass)).map (·.qualifiedName)
    · obtain ⟨u, hu, rfl⟩ := List.mem_map.mp hlisted
      obtain ⟨hu, hclass⟩ := List.mem_filter.mp hu
      have hwanted : u.isWanted options = true := by
        by_contra hunwanted
        exact hstranded ⟨hinFile, e, he, hname, u, hu, rfl, hclass, by simpa using hunwanted⟩
      rcases h.accounts.registered_or_skipped (h.nested_class he hu hclass) hwanted with
        hregistered | hskipped'
      · have hregistered : r.classes.lookup u.qualifiedName ≠ none := hregistered
        rw [if_pos (Option.isSome_iff_ne_none.mpr hregistered)]
        exact List.nodup_iff_count_le_one.mp (hnodup.sublist (List.filter_sublist.map _)) _
      · exact absurd hskipped' hskipped
    · rw [List.count_eq_zero_of_not_mem hlisted]
      exact Nat.zero_le _
  have henums' : (e.enumModels.map (·.qualifiedName)).count child ≤
      if (r.enums.lookup child).isSome then 1 else 0 := by
    by_cases hlisted : child ∈ e.enumModels.map (·.qualifiedName)
    · obtain ⟨enum, henum, rfl⟩ := List.mem_map.mp hlisted
      rw [if_pos (Option.isSome_iff_ne_none.mpr (henums enum henum))]
      exact List.nodup_iff_count_le_one.mp (hnodup.sublist (enumModels_names_sublist keeps)) _
    · rw [List.count_eq_zero_of_not_mem hlisted]
      exact Nat.zero_le _
  refine Or.inr (Or.inr ?_)
  rw [hmodeled.children, List.count_append, supply]
  omega

/-- No class lists one that has a file of its own. -/
theorem not_lists_root (h : r.IsOfComplete options rounds) {outer name : String}
    (hroot : name ∈ r.roots) : ¬r.Lists outer name := by
  intro hlists
  obtain ⟨model, hmodel, htop⟩ := (h.accounts.mem_roots name).mp hroot
  obtain ⟨e, he, -, hname, hmodeled, -⟩ := h.accounts.model _ _ hmodel
  obtain ⟨listing, hlisting, hchild⟩ := hlists
  obtain ⟨p, hp, -, -, hmodeled', -⟩ := h.accounts.model _ _ hlisting
  have keeps : ∀ u ∈ p.nestedTypes, u.KeepsName := fun u hu =>
    h.complete.keepsName_nested (mem_types hp).1 hu
  obtain ⟨u, hu, hname'⟩ := hmodeled'.exists_nested keeps hchild
  obtain ⟨hmem, henclosing⟩ := h.complete.nested (mem_types hp).1 hu
  obtain rfl : u.declaredIn (some p.asEnclosing) = e :=
    h.complete.eq_of_name hmem (mem_types he).1 (hname'.trans hname.symm)
  have hplace := hmodeled.place
  rw [htop, if_pos rfl] at hplace
  rcases of_placement_ownFile hplace with hnone | ⟨-, p', hp', hclass⟩
  · rw [henclosing] at hnone
    cases hnone
  · rw [henclosing] at hp'
    obtain rfl := Option.some.inj hp'
    have hclass' : p.asEnclosing.isValueClass = true := (mem_types hp).2
    rw [hclass'] at hclass
    cases hclass

/-! ### What is composed -/

variable {forest : List Outline} {r₁ : Registry}

/-- A value class stands in a file if the value class that it is nested in does, unless it is
skipped. It is listed once more than enums could take its place. -/
theorem placed_of_nested (h : r.IsOfComplete options rounds)
    (hcomposes : Composes none r r.roots forest r₁) {e u : TypeElement}
    (he : e ∈ rounds.flatMap Round.valueClasses) (hu : u ∈ e.nestedTypes)
    (hclass : u.isValueClass = true)
    (hplaced : e.qualifiedName ∈ Place.classNames (Outline.placesAll none forest))
    (hskipped : r.state? u.qualifiedName ≠ some .skipped) :
    u.qualifiedName ∈ Place.classNames (Outline.placesAll none forest) := by
  have heffect := hcomposes.effect h.named
  obtain ⟨model, hmodel⟩ := Option.ne_none_iff_exists'.mp (heffect.registered _ hplaced)
  obtain ⟨e', he', -, hname, hmodeled, -⟩ := h.accounts.model _ _ hmodel
  obtain rfl : e' = e := h.complete.eq_of_name (mem_types he').1 (mem_types he).1 hname
  have hlisted := h.lt_count he hmodeled hu hclass
  have hplaces := hcomposes.count_listed_le h.named hskipped hplaced hmodel
  rw [Place.countP_name] at hplaces
  have henums : (Place.enumNames (Outline.placesAll none forest)).count u.qualifiedName ≤
      if (r.enums.lookup u.qualifiedName).isSome then 1 else 0 := by
    by_cases hmem : u.qualifiedName ∈ Place.enumNames (Outline.placesAll none forest)
    · rw [if_pos (Option.isSome_iff_ne_none.mpr (heffect.registered_enums _ hmem))]
      exact List.nodup_iff_count_le_one.mp heffect.nodup_enums _
    · rw [List.count_eq_zero_of_not_mem hmem]
      exact Nat.zero_le _
  refine List.count_pos_iff.mp ?_
  omega

/-- A class that goes into a file stands in one. -/
theorem placed_of_inFile (h : r.IsOfComplete options rounds)
    (hcomposes : Composes none r r.roots forest r₁) {name : String} (hinFile : r.InFile name) :
    name ∈ Place.classNames (Outline.placesAll none forest) := by
  induction hinFile with
  | @root name hroot =>
    obtain ⟨-, hroots⟩ := hcomposes.roots rfl h.named
    exact Place.mem_classNames.mpr ⟨none, hroots name hroot⟩
  | @nested outer name hinFile hlists hregistered ih =>
    obtain ⟨listing, hlisting, hchild⟩ := hlists
    obtain ⟨e, he, -, rfl, hmodeled, -⟩ := h.accounts.model _ _ hlisting
    obtain ⟨u, hu, rfl⟩ := hmodeled.exists_nested
      (fun u hu => h.complete.keepsName_nested (mem_types he).1 hu) hchild
    -- The registered class of the child's name is the child itself.
    obtain ⟨model, hmodel⟩ := Option.ne_none_iff_exists'.mp hregistered
    obtain ⟨e', he', -, hname, -, -⟩ := h.accounts.model _ _ hmodel
    obtain rfl : e' = u.declaredIn (some e.asEnclosing) :=
      h.complete.eq_of_name (mem_types he').1 (h.complete.nested (mem_types he).1 hu).1 hname
    have hclass : u.isValueClass = true := (mem_types he').2
    refine h.placed_of_nested hcomposes he hu hclass ih ?_
    rw [(h.accounts.modeled _).mpr hregistered]
    decide

/-- Nothing is stranded where composing succeeds. -/
theorem not_stranded_of_composes (h : r.IsOfComplete options rounds)
    (hcomposes : Composes none r r.roots forest r₁) (outer child : String) :
    ¬r.Stranded options rounds outer child := by
  rintro ⟨hinFile, e, he, rfl, u, hu, rfl, hclass, hunwanted⟩
  have hunknown : r.state? u.qualifiedName = none := by
    by_contra hknown
    obtain ⟨e', he', hwanted, hname⟩ := (h.accounts.known _).mp hknown
    obtain rfl : e' = u.declaredIn (some e.asEnclosing) :=
      h.complete.eq_of_name (mem_types he').1 (h.complete.nested (mem_types he).1 hu).1 hname
    have hwanted : u.isWanted options = true := hwanted
    rw [hunwanted] at hwanted
    cases hwanted
  have hplaced := h.placed_of_nested hcomposes he hu hclass (h.placed_of_inFile hcomposes hinFile)
    (by rw [hunknown]; decide)
  have heffect := hcomposes.effect h.named
  rw [(h.accounts.modeled _).mpr (heffect.registered _ hplaced)] at hunknown
  cases hunknown

/-- A registered class without a place is nested in one that has none either, that comes before it,
and that is registered or skipped. -/
theorem parent_of_not_placed (h : r.IsOfComplete options rounds)
    (hcomposes : Composes none r r.roots forest r₁) {name : String} {model : ClassModel}
    (hmodel : r.classes.lookup name = some model)
    (hnot : name ∉ Place.classNames (Outline.placesAll none forest)) :
    ∃ p, model.parent = some p ∧ p < name ∧
      p ∉ Place.classNames (Outline.placesAll none forest) ∧
        (r.classes.lookup p ≠ none ∨ r.state? p = some .skipped) := by
  obtain ⟨-, hroots⟩ := hcomposes.roots rfl h.named
  obtain ⟨e, he, -, rfl, hmodeled, -⟩ := h.accounts.model _ _ hmodel
  have hnested : model.isTopLevel = false := by
    by_contra htop
    have hroot := (h.accounts.mem_roots _).mpr ⟨model, hmodel, by simpa using htop⟩
    exact hnot (Place.mem_classNames.mpr ⟨none, hroots _ hroot⟩)
  have hplace := hmodeled.place
  rw [hnested, if_neg Bool.false_ne_true] at hplace
  obtain ⟨p, hp, hclass, hwanted, henclosing, ⟨u, hu, rfl⟩, hlt⟩ :=
    h.complete.trees.exists_outer h.complete.topsNamed (mem_types he).1 hplace
  have hpClass : p ∈ rounds.flatMap Round.valueClasses := mem_valueClasses hp hclass
  have huClass : u.isValueClass = true := (mem_types he).2
  have hparent : model.parent = some p.qualifiedName := by
    rw [hmodeled.parent, henclosing]
    rfl
  have hmodeledState : r.state? u.qualifiedName ≠ some .skipped := by
    have hstate := (h.accounts.modeled u.qualifiedName).mpr
      (hmodel ▸ Option.some_ne_none model)
    rw [hstate]
    decide
  -- If that class had a place, this one would have one in it.
  have hpPlaced : p.qualifiedName ∉ Place.classNames (Outline.placesAll none forest) := by
    intro hplaced
    have hself := h.placed_of_nested hcomposes hpClass hu huClass hplaced hmodeledState
    exact hnot hself
  exact ⟨p.qualifiedName, hparent, hlt, hpPlaced, h.accounts.registered_or_skipped hpClass hwanted⟩

/-- Draining succeeds: a class that is left over is nested in one that is skipped or left over
too, and that one comes before it. -/
theorem drain_ok (h : r.IsOfComplete options rounds)
    (hcomposes : Composes none r r.roots forest r₁) : ∃ r₂, r₁.drain = (.ok (), r₂) := by
  have heffect := hcomposes.effect h.named
  refine h.accounts.drain_ok heffect fun name model hmodel => ?_
  obtain ⟨hnot, hmodel⟩ := heffect.class_kept hmodel
  obtain ⟨p, hparent, hlt, hpPlaced, hcase⟩ := h.parent_of_not_placed hcomposes hmodel hnot
  refine ⟨p, hparent, hlt, ?_⟩
  rw [heffect.state?, heffect.lookup_classes, if_neg hpPlaced, if_neg hpPlaced]
  exact hcase.symm

end IsOfComplete

end Registry

/-- A run over complete rounds leaves such a registry. -/
theorem Session.isOfComplete_of_processAll {options : Options} {rounds : List Round} {s : Session}
    (complete : CompleteRounds rounds)
    (hprocess : (processAll rounds).runOn { options } = (.ok (), s)) :
    s.registry.IsOfComplete options rounds := by
  obtain ⟨haccounts, henums, -, -⟩ := accounts_of_processAll
    (fun e he => complete.keepsName (Registry.IsOfComplete.mem_types he).1) hprocess
  exact ⟨complete, haccounts, henums⟩

end DataClassGen
