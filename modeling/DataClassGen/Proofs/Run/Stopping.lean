import DataClassGen.Proofs.Run.Evaluation
import DataClassGen.Proofs.Run.Stranded

/-!
# Where generating stops

In a run over complete rounds, composing stops at stranded classes and at classes without a
declaration, and nowhere else (`Stops.cause`). What carries this through composing is `Pending`: each
child that is still to be composed is skipped or stranded, or there are models enough under its name,
and whatever a registered class lists has not been touched yet. The second part holds since no two
classes list the same child.
-/

namespace DataClassGen

namespace Registry

open TypeElement

variable {r₀ r r' : Registry} {options : Options} {rounds : List Round} {outer : Option String}
  {child : String} {children rest : List String} {outlines : List Outline}

/-- Giving places takes as many models away as there are places. -/
theorem Effect.supply_eq {ps : List Place} (h : Effect r ps r') (name : String) :
    r'.supply name + ps.countP (·.name == name) = r.supply name := by
  have hclasses : (if (r'.classes.lookup name).isSome then 1 else 0) +
      (Place.classNames ps).count name = if (r.classes.lookup name).isSome then 1 else 0 := by
    rw [h.lookup_classes]
    by_cases hmem : name ∈ Place.classNames ps
    · rw [if_pos hmem, List.count_eq_one_of_mem h.nodup_classes hmem,
        if_pos (Option.isSome_iff_ne_none.mpr (h.registered name hmem))]
      rfl
    · rw [if_neg hmem, List.count_eq_zero_of_not_mem hmem, Nat.add_zero]
  have henums : (if (r'.enums.lookup name).isSome then 1 else 0) +
      (Place.enumNames ps).count name = if (r.enums.lookup name).isSome then 1 else 0 := by
    rw [h.lookup_enums]
    by_cases hmem : name ∈ Place.enumNames ps
    · rw [if_pos hmem, List.count_eq_one_of_mem h.nodup_enums hmem,
        if_pos (Option.isSome_iff_ne_none.mpr (h.registered_enums name hmem))]
      rfl
    · rw [if_neg hmem, List.count_eq_zero_of_not_mem hmem, Nat.add_zero]
  rw [Place.countP_name, supply, supply]
  omega

/-- The registry `r` is what composing has left of the registry `r₀` of a run when it has come to
these children of `outer`. -/
structure Pending (r₀ r : Registry) (options : Options) (rounds : List Round)
    (outer : Option String) (children : List String) : Prop where
  named : r.Named
  registered : ∀ name model, r.classes.lookup name = some model →
    r₀.classes.lookup name = some model
  modeled : ∀ name, r.classes.lookup name ≠ none → r.state? name = some .modeled
  skipped : ∀ name, r₀.state? name = some .skipped → r.state? name = some .skipped
  /-- What a registered class lists has not been composed. -/
  untouched : ∀ o c, r.Lists o c →
    r.enums.lookup c = r₀.enums.lookup c ∧ r.classes.lookup c = r₀.classes.lookup c
  /-- The class that the children are nested in is being composed, and listed them. -/
  within : ∀ o, outer = some o →
    r.classes.lookup o = none ∧ r₀.InFile o ∧ ∀ c ∈ children, r₀.Lists o c
  /-- There are models enough for children that are nested in a class. -/
  supplied : ∀ o, outer = some o → ∀ c ∈ children, r₀.state? c = some .skipped ∨
    r₀.Stranded options rounds o c ∨ children.count c ≤ r.supply c
  /-- Classes with files of their own are there until their files are composed. -/
  roots : outer = none →
    children.Nodup ∧ ∀ c ∈ children, c ∈ r₀.roots ∧ r.classes.lookup c ≠ none

namespace Pending

theorem lists (h : Pending r₀ r options rounds outer children) {o c : String}
    (hlists : r.Lists o c) : r₀.Lists o c := by
  obtain ⟨model, hmodel, hchild⟩ := hlists
  exact ⟨model, h.registered o model hmodel, hchild⟩

/-- No registered class lists a child that is still to be composed. -/
theorem not_lists (h : Pending r₀ r options rounds outer children)
    (hrun : r₀.IsOfComplete options rounds) {c : String} (hc : c ∈ children) (o : String) :
    ¬r.Lists o c := by
  intro hlists
  cases houter : outer with
  | none => exact hrun.not_lists_root ((h.roots houter).2 c hc).1 (h.lists hlists)
  | some o' =>
    obtain ⟨hgone, -, hlisted⟩ := h.within o' houter
    obtain rfl : o = o' := hrun.lists_unique (h.lists hlists) (hlisted c hc)
    obtain ⟨model, hmodel, -⟩ := hlists
    rw [hgone] at hmodel
    cases hmodel

theorem inFile (h : Pending r₀ r options rounds outer (child :: rest))
    (hchild : r₀.classes.lookup child ≠ none) : r₀.InFile child := by
  cases houter : outer with
  | none => exact InFile.root ((h.roots houter).2 child List.mem_cons_self).1
  | some o =>
    obtain ⟨-, hinFile, hlisted⟩ := h.within o houter
    exact InFile.nested hinFile (hlisted child List.mem_cons_self) hchild

/-- A child that must be a class and is missing is stranded. -/
theorem stranded_of_missing (h : Pending r₀ r options rounds outer (child :: rest))
    (must : r.MustBeClass outer child) (missing : r.classes.lookup child = none) :
    ∃ o, outer = some o ∧ r₀.Stranded options rounds o child := by
  cases houter : outer with
  | none => exact absurd missing ((h.roots houter).2 child List.mem_cons_self).2
  | some o =>
    obtain ⟨hnoEnum, hnotSkipped⟩ := must (by rw [houter]; exact Option.some_ne_none o)
    rcases h.supplied o houter child List.mem_cons_self with hskipped | hstranded | hcount
    · exact absurd (h.skipped child hskipped) hnotSkipped
    · exact ⟨o, rfl, hstranded⟩
    · rw [supply, hnoEnum, missing, List.count_cons_self] at hcount
      exact absurd hcount (by simp)

/-- A child that is taken out can be composed in the end, as it is modeled then. -/
theorem entered_of_composes (h : Pending r₀ r options rounds outer children) {r₁ : Registry}
    {model : ClassModel} {inner : List Outline} (found : r.classes.lookup child = some model)
    (inside : Composes (some model.qualifiedName) (r.withoutClass child) model.children inner r₁) :
    ∃ r₂, r₁.transition model.qualifiedName .composed = .ok r₂ := by
  obtain rfl : model.qualifiedName = child := h.named.classes _ _ found
  have heffect := inside.effect (h.named.withoutClass _)
  have hnot := heffect.not_mem_classNames (lookup_eraseKey_self model.qualifiedName r.classes)
  have hstate : r₁.state? model.qualifiedName = some .modeled := by
    rw [heffect.state?, if_neg hnot]
    exact h.modeled _ (by rw [found]; exact Option.some_ne_none model)
  exact ⟨_, transition_of_allows hstate rfl⟩

/-- The children of a child that is taken out are to be composed next. -/
theorem inside (h : Pending r₀ r options rounds outer (child :: rest))
    (hrun : r₀.IsOfComplete options rounds) {model : ClassModel}
    (found : r.classes.lookup child = some model) :
    Pending r₀ (r.withoutClass child) options rounds (some model.qualifiedName) model.children := by
  obtain rfl : model.qualifiedName = child := h.named.classes _ _ found
  have hfound := h.registered _ _ found
  have hinFile := h.inFile (by rw [hfound]; exact Option.some_ne_none model)
  have hlists : ∀ c ∈ model.children, r.Lists model.qualifiedName c := fun c hc =>
    ⟨model, found, hc⟩
  have hself := h.not_lists hrun List.mem_cons_self
  have hkept : ∀ o c, r.Lists o c →
      (r.withoutClass model.qualifiedName).enums.lookup c = r₀.enums.lookup c ∧
        (r.withoutClass model.qualifiedName).classes.lookup c = r₀.classes.lookup c := by
    intro o c hlisted
    have hne : c ≠ model.qualifiedName := by
      rintro rfl
      exact hself o hlisted
    obtain ⟨henums, hclasses⟩ := h.untouched o c hlisted
    exact ⟨henums, (lookup_eraseKey_of_ne hne r.classes).trans hclasses⟩
  exact {
    named := h.named.withoutClass _
    registered := fun name found hname => h.registered name found (lookup_of_eraseKey hname)
    modeled := fun name hname => by
      obtain ⟨found, hname⟩ := Option.ne_none_iff_exists'.mp hname
      have hregistered := lookup_of_eraseKey hname
      have hstate := h.modeled name (by rw [hregistered]; exact Option.some_ne_none found)
      exact hstate
    skipped := h.skipped
    untouched := fun o c hlisted => hkept o c (lists_of_withoutClass hlisted)
    within := fun o ho => by
      obtain rfl := Option.some.inj ho
      exact ⟨lookup_eraseKey_self _ r.classes, hinFile, fun c hc => h.lists (hlists c hc)⟩
    supplied := fun o ho c hc => by
      obtain rfl := Option.some.inj ho
      have hsupply : (r.withoutClass model.qualifiedName).supply c = r₀.supply c := by
        obtain ⟨henums, hclasses⟩ := hkept _ c (hlists c hc)
        rw [supply, supply, henums, hclasses]
      rw [hsupply]
      exact hrun.count_le_supply hinFile hfound
    roots := fun hnone => nomatch hnone }

/-- A child that is composed has one place, and the other children have none yet. -/
theorem countP_le (h : Pending r₀ r options rounds outer (child :: rest))
    (hrun : r₀.IsOfComplete options rounds) (hcomposes : Composes outer r [child] outlines r')
    {c : String} (hc : c ∈ child :: rest) :
    (Outline.placesAll outer outlines).countP (·.name == c) ≤ [child].count c := by
  have hlisted := h.not_lists hrun hc
  cases hcomposes with
  | @enum o _ _ _ _ model outlines found after =>
    cases after
    obtain rfl : model.qualifiedName = child := h.named.enums _ _ found
    rw [Outline.placesAll, Outline.placesAll, List.append_nil, Outline.places,
      List.countP_singleton, List.count_singleton]
  | skipped noEnum isSkipped after =>
    cases after
    rw [Outline.placesAll, List.countP_nil]
    exact Nat.zero_le _
  | @cls _ _ r₁ r₂ _ _ _ model inner outlines must found inside entered after =>
    cases after
    obtain rfl : model.qualifiedName = child := h.named.classes _ _ found
    have hinner : (Outline.placesAll (some model.qualifiedName) inner).countP (·.name == c) = 0 := by
      rw [List.countP_eq_zero]
      intro p hp hname
      obtain rfl : p.name = c := by simpa using hname
      rcases inside.place_cases (h.named.withoutClass _) hp with
        ⟨-, hchild, -⟩ | ⟨o, -, -, hlists⟩
      · exact hlisted _ ⟨model, found, hchild⟩
      · exact hlisted o (lists_of_withoutClass hlists)
    rw [Outline.placesAll, Outline.placesAll, List.append_nil, Outline.places, List.countP_cons,
      hinner, List.count_singleton, Nat.zero_add]

/-- When a child is composed, nothing has a place that a class lists that is registered then. What
has a place is the child itself or listed by a class that is gone as well. -/
theorem not_placed (h : Pending r₀ r options rounds outer (child :: rest))
    (hrun : r₀.IsOfComplete options rounds) (hcomposes : Composes outer r [child] outlines r')
    {o c : String} (hlists : r'.Lists o c) :
    ∀ p ∈ Outline.placesAll outer outlines, p.name ≠ c := by
  have heffect := hcomposes.effect h.named
  rintro p hp rfl
  rcases hcomposes.place_cases h.named hp with ⟨-, hchild, -⟩ | ⟨o', -, ho', hlists'⟩
  · rw [List.mem_singleton.mp hchild] at hlists
    exact h.not_lists hrun List.mem_cons_self o (heffect.lists hlists)
  · obtain rfl : o = o' := hrun.lists_unique (h.lists (heffect.lists hlists)) (h.lists hlists')
    obtain ⟨model, hmodel, -⟩ := hlists
    exact (heffect.class_kept hmodel).1 ho'

/-- When a child is composed, the others are left. -/
theorem after (h : Pending r₀ r options rounds outer (child :: rest))
    (hrun : r₀.IsOfComplete options rounds) (hcomposes : Composes outer r [child] outlines r') :
    Pending r₀ r' options rounds outer rest := by
  have heffect := hcomposes.effect h.named
  have hplaces : ∀ {c : String}, c ∈ child :: rest →
      (Outline.placesAll outer outlines).countP (·.name == c) ≤ [child].count c :=
    fun hc => h.countP_le hrun hcomposes hc
  exact {
    named := heffect.named h.named
    registered := fun name found hname => h.registered name found (heffect.class_kept hname).2
    modeled := fun name hname => by
      obtain ⟨found, hname⟩ := Option.ne_none_iff_exists'.mp hname
      obtain ⟨hnot, hname⟩ := heffect.class_kept hname
      rw [heffect.state?, if_neg hnot]
      exact h.modeled name (by rw [hname]; exact Option.some_ne_none found)
    skipped := fun name hskipped => by
      have hstate := h.skipped name hskipped
      have hnot : name ∉ Place.classNames (Outline.placesAll outer outlines) := by
        intro hmem
        rw [h.modeled name (heffect.registered name hmem)] at hstate
        cases hstate
      rw [heffect.state?, if_neg hnot, hstate]
    untouched := fun o c hlists => by
      have hnone := h.not_placed hrun hcomposes hlists
      have hclass : c ∉ Place.classNames (Outline.placesAll outer outlines) := fun hmem => by
        obtain ⟨o', hp⟩ := Place.mem_classNames.mp hmem
        exact hnone _ hp rfl
      have henum : c ∉ Place.enumNames (Outline.placesAll outer outlines) := fun hmem => by
        obtain ⟨o', hp⟩ := Place.mem_enumNames.mp hmem
        exact hnone _ hp rfl
      rw [heffect.lookup_enums, heffect.lookup_classes, if_neg hclass, if_neg henum]
      exact h.untouched o c (heffect.lists hlists)
    within := fun o ho => by
      obtain ⟨hgone, hinFile, hlisted⟩ := h.within o ho
      refine ⟨?_, hinFile, fun c hc => hlisted c (List.mem_cons_of_mem _ hc)⟩
      rw [heffect.lookup_classes, hgone, ite_self]
    supplied := fun o ho c hc => by
      rcases h.supplied o ho c (List.mem_cons_of_mem _ hc) with hskipped | hstranded | hcount
      · exact Or.inl hskipped
      · exact Or.inr (Or.inl hstranded)
      · have hsupply := heffect.supply_eq c
        have hplace := hplaces (List.mem_cons_of_mem _ hc)
        rw [List.count_cons] at hcount
        rw [List.count_singleton] at hplace
        exact Or.inr (Or.inr (by omega))
    roots := fun hnone => by
      obtain ⟨hnodup, hroots⟩ := h.roots hnone
      obtain ⟨hchild, hnodup⟩ := List.nodup_cons.mp hnodup
      refine ⟨hnodup, fun c hc => ?_⟩
      obtain ⟨hroot, hregistered⟩ := hroots c (List.mem_cons_of_mem _ hc)
      refine ⟨hroot, ?_⟩
      have hne : child ≠ c := fun heq => hchild (heq ▸ hc)
      have hplace := hplaces (List.mem_cons_of_mem _ hc)
      rw [Place.countP_name, List.count_singleton, if_neg (by simpa using hne)] at hplace
      have hnot : c ∉ Place.classNames (Outline.placesAll outer outlines) := by
        intro hmem
        have := List.count_pos_iff.mpr hmem
        omega
      rw [heffect.lookup_classes, if_neg hnot]
      exact hregistered }

/-- At first the classes with files of their own are to be composed. -/
theorem start (hrun : r₀.IsOfComplete options rounds) :
    Pending r₀ r₀ options rounds none r₀.roots where
  named := hrun.named
  registered := fun _ _ hname => hname
  modeled := fun name hname => (hrun.accounts.modeled name).mpr hname
  skipped := fun _ hname => hname
  untouched := fun _ _ _ => ⟨rfl, rfl⟩
  within := fun _ ho => nomatch ho
  supplied := fun _ ho => nomatch ho
  roots := fun _ => by
    refine ⟨hrun.accounts.nodup_roots, fun c hc => ⟨hc, ?_⟩⟩
    obtain ⟨model, hmodel, -⟩ := (hrun.accounts.mem_roots c).mp hc
    rw [hmodel]
    exact Option.some_ne_none model

end Pending

/-- Composing stops at a class that goes into a file and has no declaration, or at one that is
stranded. -/
theorem Stops.origin {failure : Failure} (h : Stops outer r children failure)
    (hrun : r₀.IsOfComplete options rounds) (pending : Pending r₀ r options rounds outer children) :
    (∃ name model, r₀.InFile name ∧ r₀.classes.lookup name = some model ∧
      model.toDeclaration = .error failure) ∨
      ∃ o c, r₀.Stranded options rounds o c ∧ failure = .missingChild c o := by
  induction h with
  | @missing outer r child rest must missing =>
    obtain ⟨o, rfl, hstranded⟩ := pending.stranded_of_missing must missing
    exact Or.inr ⟨o, child, hstranded, rfl⟩
  | undeclared rest must found undeclared =>
    have hfound := pending.registered _ _ found
    have hinFile := pending.inFile (by rw [hfound]; exact Option.some_ne_none _)
    exact Or.inl ⟨_, _, hinFile, hfound, undeclared⟩
  | inside rest must found inside ih => exact ih (pending.inside hrun found)
  | closing rest must found inside notEntered =>
    obtain ⟨r₂, hentered⟩ := pending.entered_of_composes found inside
    rw [notEntered] at hentered
    cases hentered
  | afterEnum found after ih =>
    exact ih (pending.after hrun (Composes.enum found (Composes.done _ _)))
  | afterSkipped noEnum isSkipped after ih =>
    exact ih (pending.after hrun (Composes.skipped noEnum isSkipped (Composes.done _ _)))
  | afterClass must found inside entered after ih =>
    exact ih (pending.after hrun (Composes.cls must found inside entered (Composes.done _ _)))

/-- Composing stops at a class without a declaration, or at one that is stranded. -/
theorem Stops.cause {failure : Failure} (h : Stops outer r children failure)
    (hrun : r₀.IsOfComplete options rounds) (pending : Pending r₀ r options rounds outer children) :
    failure.IsIllegalDefault ∨ ∃ o c, r₀.Stranded options rounds o c ∧
      failure = .missingChild c o := by
  rcases h.origin hrun pending with ⟨name, model, -, -, hundeclared⟩ | hstranded
  · exact Or.inl (ClassModel.failsAs_toDeclaration model failure hundeclared)
  · exact Or.inr hstranded

/-! ### Where something is stranded -/

/-- A class that goes into a file, though the outermost type around it is not to be converted, is
somewhere in a type that is no value class, so that nested classes are ignored. -/
theorem InFile.ignoreNested {name : String} (h : r.InFile name)
    (hrun : r.IsOfComplete options rounds) {e : TypeElement}
    (he : e ∈ rounds.flatMap Round.types) (hname : e.qualifiedName = name)
    (htargets : options.targets.isEmpty = false)
    (houtermost : options.targets.contains e.outermostSimpleName = false) :
    options.ignoreNested = true := by
  induction h generalizing e with
  | @root name hroot =>
    obtain ⟨model, hmodel, htop⟩ := (hrun.accounts.mem_roots name).mp hroot
    obtain ⟨e', he', hwanted, hname', hmodeled, -⟩ := hrun.accounts.model _ _ hmodel
    obtain rfl : e' = e := hrun.complete.eq_of_name (IsOfComplete.mem_types he').1 he
      (hname'.trans hname.symm)
    have hplace := hmodeled.place
    rw [htop, if_pos rfl] at hplace
    rcases of_placement_ownFile hplace with hnone | ⟨hignore, -⟩
    · -- At the top the class is itself the outermost type.
      have hsame : e'.outermostSimpleName = e'.simpleName :=
        hrun.complete.trees.outermostSimpleName_of_top hrun.complete.topsNamed he hnone
      rw [isWanted, Options.isTargeted, ← hsame, htargets, houtermost] at hwanted
      cases hwanted
    · exact hignore
  | @nested outer name hinFile hlists hregistered ih =>
    obtain ⟨listing, hlisting, hchild⟩ := hlists
    obtain ⟨p, hp, -, hpName, hmodeled, -⟩ := hrun.accounts.model _ _ hlisting
    have hpTypes := (IsOfComplete.mem_types hp).1
    obtain ⟨u, hu, hname'⟩ := hmodeled.exists_nested
      (fun u hu => hrun.complete.keepsName_nested hpTypes hu) hchild
    obtain rfl : u.declaredIn (some p.asEnclosing) = e :=
      hrun.complete.eq_of_name (hrun.complete.nested hpTypes hu).1 he (hname'.trans hname.symm)
    refine ih hpTypes hpName ?_
    rw [← hrun.complete.outermostSimpleName_nested hpTypes hu]
    exact houtermost

/-- Something is stranded only if not all classes are to be converted and nested classes are
ignored. -/
theorem Stranded.ignoreNested {child o : String} (h : r.Stranded options rounds o child)
    (hrun : r.IsOfComplete options rounds) :
    options.targets.isEmpty = false ∧ options.ignoreNested = true := by
  obtain ⟨hinFile, e, he, hname, u, hu, -, -, hunwanted⟩ := h
  have heTypes := (IsOfComplete.mem_types he).1
  rw [isWanted, Options.isTargeted, Bool.or_eq_false_iff, Bool.or_eq_false_iff] at hunwanted
  obtain ⟨⟨htargets, -⟩, houtermost⟩ := hunwanted
  refine ⟨htargets, hinFile.ignoreNested hrun heTypes hname htargets ?_⟩
  rw [← hrun.complete.outermostSimpleName_nested heTypes hu]
  exact houtermost

end Registry

namespace Session

/-- In a run over complete rounds generating fails where a default is wanted for a type without
values or a class is stranded, and in no other way; and where a class is stranded, which takes
targets and ignored nested classes, it does fail. -/
theorem generate_fails_iff_stranded {options : Options} {rounds : List Round} {s : Session}
    (complete : CompleteRounds rounds)
    (hprocess : (processAll rounds).runOn { options } = (.ok (), s)) :
    (∀ failure g, generate.runOn s = (.error failure, g) → failure.IsIllegalDefault ∨
      ∃ outer child, s.registry.Stranded options rounds outer child ∧
        failure = .missingChild child outer) ∧
    ∀ outer child, s.registry.Stranded options rounds outer child →
      options.targets.isEmpty = false ∧ options.ignoreNested = true ∧
        ∃ failure g, generate.runOn s = (.error failure, g) := by
  have keeps : ∀ e ∈ rounds.flatMap Round.valueClasses, e.KeepsName := fun e he =>
    complete.keepsName (Registry.IsOfComplete.mem_types he).1
  obtain ⟨haccounts, henums, -, -⟩ := accounts_of_processAll keeps hprocess
  have hrun : s.registry.IsOfComplete options rounds := ⟨complete, haccounts, henums⟩
  refine ⟨fun failure g hgenerate => ?_, fun outer child hstranded => ?_⟩
  · have hcandidate : s.candidates ≠ 0 := by
      intro hempty
      rw [runOn_generate_of_no_candidates hempty] at hgenerate
      cases hgenerate
    rcases generate_spec hcandidate with
      ⟨files, forest, r₁, r₂, hok, -⟩ | ⟨failure', g', herror, hcause⟩
    · rw [hok] at hgenerate
      cases hgenerate
    · rw [herror] at hgenerate
      obtain rfl := Except.error.inj (Prod.mk.inj hgenerate).1
      rcases hcause with hstops | ⟨forest, r₁, r₂, hcomposes, hdrain⟩
      · exact hstops.cause hrun (Registry.Pending.start hrun)
      · obtain ⟨r₂', hdrained⟩ := hrun.drain_ok hcomposes
        rw [hdrained] at hdrain
        cases hdrain
  · obtain ⟨htargets, hignore⟩ := hstranded.ignoreNested hrun
    refine ⟨htargets, hignore, ?_⟩
    rcases hresult : generate.runOn s with ⟨failure | files, g⟩
    · exact ⟨failure, g, rfl⟩
    · obtain ⟨forest, r, hcomposes, -⟩ := of_generate hprocess hresult
      exact absurd hstranded (hrun.not_stranded_of_composes hcomposes outer child)

/-- A value class in a type that is none, with another value class in it. -/
def leafRound : Round := { elements := [
  .bare "test.Outer" [.bareValueClass "test.Outer.Inner"
    [.bareValueClass "test.Outer.Inner.Leaf" []]]] }

/-- Only the middle one is to be converted, and nested classes are ignored. -/
def leafOptions : Options := { srcDir := "out", targets := ["Inner"], ignoreNested := true }

theorem leafRound_complete : CompleteRounds [leafRound] where
  complete := by
    intro round hround e he
    obtain rfl := List.mem_singleton.mp hround
    obtain rfl := List.mem_singleton.mp he
    refine .intro "Outer" rfl rfl ⟨by decide, by decide⟩ rfl fun t ht => ?_
    obtain rfl := List.mem_singleton.mp ht
    refine .intro "Inner" rfl rfl ⟨by decide, by decide⟩ rfl fun t ht => ?_
    obtain rfl := List.mem_singleton.mp ht
    exact .intro "Leaf" rfl rfl ⟨by decide, by decide⟩ rfl fun t ht => nomatch ht
  distinct := by decide

/-- The innermost class is stranded there: the middle one has a file and lists it, and it is not to
be converted. -/
theorem leaf_is_stranded :
    CompleteRounds [leafRound] ∧ ∃ s g,
      (processAll [leafRound]).runOn { options := leafOptions } = (.ok (), s) ∧
      s.registry.Stranded leafOptions [leafRound] "test.Outer.Inner" "test.Outer.Inner.Leaf" ∧
      generate.runOn s = (.error (.missingChild "test.Outer.Inner.Leaf" "test.Outer.Inner"), g) := by
  have hprocess := runOn_processAll
    (show ((processAll [leafRound]).runOn { options := leafOptions }).1 = .ok () by decide +kernel)
  have hstranded : (after leafOptions [leafRound]).registry.Stranded leafOptions [leafRound]
      "test.Outer.Inner" "test.Outer.Inner.Leaf" := by
    refine ⟨Registry.InFile.root (by decide +kernel), ?_⟩
    refine ⟨(leafRound.valueClasses).head (by decide), by simp [List.head_mem], rfl, ?_⟩
    exact ⟨.bareValueClass "test.Outer.Inner.Leaf" [], List.mem_cons_self, rfl, rfl,
      by decide +kernel⟩
  have hfails := (generate_fails_iff_stranded leafRound_complete hprocess).2 _ _ hstranded
  obtain ⟨-, -, failure, g, hfailure⟩ := hfails
  have hresult : (generate.runOn (after leafOptions [leafRound])).1 =
      .error (.missingChild "test.Outer.Inner.Leaf" "test.Outer.Inner") := by
    rw [generate_eq_bounded]
    decide +kernel
  rw [hfailure] at hresult
  obtain rfl := Except.error.inj hresult
  exact ⟨leafRound_complete, _, g, hprocess, hstranded, hfailure⟩

end Session

end DataClassGen
