import DataClassGen.Proofs.Run.Stranded
import DataClassGen.Proofs.Run.Trees
import DataClassGen.Proofs.Run.Union

/-!
# Targets filter

A run with targets gives the files that a run without targets gives for them, and no others
(`targets_only_filter`). The two runs do not take in the same classes: with targets the classes in a
type at the top that is none of them are left out, unless one has the name of a target itself. So
the names are divided by whether the type at the top that they are in is a target. Under the names
where it is, both runs have the same registered at any time. Under all others the run with targets
composes nothing; what it has registered there is nested in a class that it has skipped or has
registered as well, and is skipped with it when what is left over is drained.
-/

namespace DataClassGen

/-- The options without targets, which means that all classes are to be converted. -/
def Options.withoutTargets (options : Options) : Options := { options with targets := [] }

/-- The name is that of a type of the rounds, and the type at the top that this one is in is a
target. -/
def Options.covers (options : Options) (rounds : List Round) (name : String) : Bool :=
  (rounds.flatMap Round.types).any fun t =>
    t.qualifiedName == name && options.targets.contains t.outermostSimpleName

namespace TypeElement

variable {options : Options} {e : TypeElement}

theorem isWanted_of_outermost (h : options.targets.contains e.outermostSimpleName = true) :
    e.isWanted options = true := by
  rw [isWanted, Options.isTargeted, h, Bool.or_true]

/-- Nothing is cut off in a type at the top that is a target. -/
theorem not_isCutOff_of_outermost (h : options.targets.contains e.outermostSimpleName = true) :
    e.isCutOff options = false := by
  rw [isCutOff]
  cases e.enclosing with
  | none => rfl
  | some p => simp only [Options.isTargeted, h, Bool.or_true, Bool.not_true, Bool.and_false]

theorem isCutOff_withoutTargets (options : Options) (e : TypeElement) :
    e.isCutOff options.withoutTargets = false := by
  rw [isCutOff]
  cases e.enclosing with
  | none => rfl
  | some p => exact Bool.and_false _

/-- A class that is not cut off has the place that it has without targets. -/
theorem placement_withoutTargets (h : e.isCutOff options = false) :
    e.placement options.withoutTargets = e.placement options := by
  have houter : e.outerPlacement options.withoutTargets = e.outerPlacement options := by
    rw [outerPlacement, outerPlacement, h, isCutOff_withoutTargets]
    rfl
  rw [placement, placement, houter]

theorem verdict_withoutTargets (h : e.isCutOff options = false) :
    e.verdict options.withoutTargets = e.verdict options := by
  rw [verdict, verdict, placement_withoutTargets h]

/-- Where modelling does not fail without targets, it does not fail with them. -/
theorem exists_verdict {v : Verdict} (h : e.verdict options.withoutTargets = .ok v) :
    ∃ v', e.verdict options = .ok v' := by
  cases hcut : e.isCutOff options with
  | false => exact ⟨v, verdict_withoutTargets hcut ▸ h⟩
  | true =>
    rw [verdict, placement, outerPlacement, hcut]
    exact ⟨_, rfl⟩

end TypeElement

/-! ### Names in targeted types -/

namespace TreeRounds

variable {options : Options} {rounds : List Round} {t u : TypeElement}

theorem covers_eq (h : TreeRounds rounds) (options : Options)
    (ht : t ∈ rounds.flatMap Round.types) :
    options.covers rounds t.qualifiedName = options.targets.contains t.outermostSimpleName := by
  rw [Bool.eq_iff_iff, Options.covers, List.any_eq_true]
  simp only [Bool.and_eq_true, beq_iff_eq]
  constructor
  · rintro ⟨t', ht', hname, htarget⟩
    rwa [← h.eq_of_name ht' ht hname]
  · exact fun htarget => ⟨t, ht, rfl, htarget⟩

theorem covers_nested (h : TreeRounds rounds) (named : TopsNamed rounds)
    (ht : t ∈ rounds.flatMap Round.types) (hu : u ∈ t.nestedTypes) :
    options.covers rounds u.qualifiedName = options.covers rounds t.qualifiedName := by
  have hnested := h.covers_eq options (h.nested named ht hu).1
  rw [h.covers_eq options ht, ← h.outermostSimpleName_nested named ht hu]
  exact hnested

/-- A type at the top is covered if it is a target itself. -/
theorem covers_top (h : TreeRounds rounds) (named : TopsNamed rounds)
    (ht : t ∈ rounds.flatMap Round.types) (htop : t.enclosing = none) :
    options.covers rounds t.qualifiedName = options.targets.contains t.simpleName := by
  rw [h.covers_eq options ht, h.outermostSimpleName_of_top named ht htop]

/-- A type stays on its side. -/
theorem staysIn (h : TreeRounds rounds) (named : TopsNamed rounds) {S : String → Bool}
    (ht : t ∈ rounds.flatMap Round.types) (hname : S t.qualifiedName = true)
    (hnested : ∀ u ∈ t.nestedTypes, S u.qualifiedName = S t.qualifiedName) : t.StaysIn S where
  name := hname
  keeps := h.keepsName named ht
  nested := fun u hu => (hnested u hu).trans hname
  keeps_nested := fun _ hu => h.keepsName_nested named ht hu

end TreeRounds

/-! ### Taking value classes in -/

namespace Session

open Registry TypeElement

variable {options : Options} {rounds : List Round}

/-- The first session is that of a run without targets, and the second that of a run with them: both
have the same registered under the names that the targets cover. -/
structure Filters (options : Options) (rounds : List Round) (s t : Session) : Prop where
  whole : s.options = options.withoutTargets
  filtered : t.options = options
  agree : s.registry.AgreeOn (options.covers rounds) t.registry
  named : s.registry.EnumsNamed
  named' : t.registry.EnumsNamed

theorem Filters.start (options : Options) (rounds : List Round) :
    Filters options rounds { options := options.withoutTargets } { options } :=
  ⟨rfl, rfl, AgreeOn.refl _ _, enumsNamed_empty, enumsNamed_empty⟩

/-- A class that the run without targets takes in is taken in with targets as well, or left out. -/
theorem Filters.accept (trees : TreeRounds rounds) (named : TopsNamed rounds) {e : TypeElement}
    (he : e ∈ rounds.flatMap Round.types) {s s' t : Session} (h : Filters options rounds s t)
    (hnew : s.registry.state? e.qualifiedName = none)
    (haccept : (accept e).runOn s = (.ok (), s')) :
    ∃ t', (Session.accept e).runOn t = (.ok (), t') ∧ Filters options rounds s' t' ∧
      ∀ name, name ≠ e.qualifiedName →
        s'.registry.state? name = s.registry.state? name := by
  rw [accept_ok_iff h.named, h.whole, if_pos ⟨rfl, hnew⟩] at haccept
  obtain ⟨v, hv, rfl⟩ := haccept
  have hothers : ∀ name, name ≠ e.qualifiedName →
      (s.settling e.qualifiedName v).registry.state? name = s.registry.state? name :=
    fun name hname => (state?_settle _ _ _ v).trans (if_neg hname)
  cases hcovers : options.covers rounds e.qualifiedName with
  | true =>
    have htarget := (trees.covers_eq options he).symm.trans hcovers
    have hnew' := (h.agree.states _ hcovers).symm.trans hnew
    have hv' := verdict_withoutTargets (not_isCutOff_of_outermost htarget) ▸ hv
    refine ⟨t.settling e.qualifiedName v, ?_, ⟨h.whole, h.filtered, ?_, ?_, ?_⟩, hothers⟩
    · rw [accept_ok_iff h.named', h.filtered, if_pos ⟨isWanted_of_outermost htarget, hnew'⟩]
      exact ⟨v, hv', rfl⟩
    · exact h.agree.settle e.qualifiedName v
    · exact h.named.settle e.qualifiedName v
    · exact h.named'.settle e.qualifiedName v
  | false =>
    have stays : e.StaysIn fun name => !options.covers rounds name := by
      refine trees.staysIn named he (by rw [hcovers]; rfl) fun u hu => ?_
      rw [trees.covers_nested named he hu]
    have hagree : (s.settling e.qualifiedName v).registry.AgreeOn (options.covers rounds)
        t.registry := (AgreeOn.of_off (stays.settle_off hv s.registry)).symm.trans h.agree
    by_cases hwanted : e.isWanted options = true ∧ t.registry.state? e.qualifiedName = none
    · obtain ⟨v', hv'⟩ := exists_verdict hv
      refine ⟨t.settling e.qualifiedName v', ?_, ⟨h.whole, h.filtered, ?_, ?_, ?_⟩, hothers⟩
      · rw [accept_ok_iff h.named', h.filtered, if_pos hwanted]
        exact ⟨v', hv', rfl⟩
      · exact hagree.trans (AgreeOn.of_off (stays.settle_off hv' t.registry))
      · exact h.named.settle e.qualifiedName v
      · exact h.named'.settle e.qualifiedName v'
    · refine ⟨t.counting, ?_, ⟨h.whole, h.filtered, hagree, ?_, h.named'⟩, hothers⟩
      · rw [accept_ok_iff h.named', h.filtered, if_neg hwanted]
      · exact h.named.settle e.qualifiedName v

/-- No class was seen before when it is its turn, since no two have one name. -/
theorem Filters.forM_accept (trees : TreeRounds rounds) (named : TopsNamed rounds)
    {es : List TypeElement} (hes : ∀ e ∈ es, e ∈ rounds.flatMap Round.types)
    (hnodup : (es.map (·.qualifiedName)).Nodup) {s s' t : Session} (h : Filters options rounds s t)
    (hnew : ∀ e ∈ es, s.registry.state? e.qualifiedName = none)
    (haccept : (es.forM Session.accept).runOn s = (.ok (), s')) :
    ∃ t', (es.forM Session.accept).runOn t = (.ok (), t') ∧ Filters options rounds s' t' := by
  induction es generalizing s t with
  | nil =>
    obtain rfl : s = s' := by simpa [List.forM] using haccept
    exact ⟨t, rfl, h⟩
  | cons e es ih =>
    obtain ⟨_, s₁, he, hrest⟩ := Step.runOn_bind_ok.mp haccept
    obtain ⟨hfirst, hnodup⟩ := List.nodup_cons.mp hnodup
    obtain ⟨t₁, ht₁, hfilters, hothers⟩ :=
      h.accept trees named (hes e List.mem_cons_self) (hnew e List.mem_cons_self) he
    have hnew₁ : ∀ e' ∈ es, s₁.registry.state? e'.qualifiedName = none := by
      intro e' he'
      have hne : e'.qualifiedName ≠ e.qualifiedName := fun hname =>
        hfirst (List.mem_map.mpr ⟨e', he', hname⟩)
      rw [hothers _ hne]
      exact hnew e' (List.mem_cons_of_mem _ he')
    obtain ⟨t', ht', hfilters'⟩ :=
      ih (fun e' he' => hes e' (List.mem_cons_of_mem _ he')) hnodup hfilters hnew₁ hrest
    exact ⟨t', Step.runOn_bind_ok.mpr ⟨(), t₁, ht₁, ht'⟩, hfilters'⟩

/-- The rounds that a run without targets takes in are taken in with targets. -/
theorem filters_of_processAll (trees : TreeRounds rounds) (named : TopsNamed rounds) {s : Session}
    (h : (processAll rounds).runOn { options := options.withoutTargets } = (.ok (), s)) :
    ∃ t, (processAll rounds).runOn { options } = (.ok (), t) ∧ Filters options rounds s t := by
  rw [processAll_eq] at h ⊢
  have hsublist := Round.valueClasses_sublist_types rounds
  exact (Filters.start options rounds).forM_accept trees named (fun e he => hsublist.subset he)
    ((hsublist.map _).nodup trees.distinct) (fun _ _ => rfl) h

end Session

/-! ### Composing and draining -/

namespace Registry

variable {options : Options} {rounds : List Round} {S : String → Bool} {a a' r r' u : Registry}

/-- The classes of a run list children on their own side only. -/
theorem Accounts.listsClosed (options : Options) {opts : Options} (trees : TreeRounds rounds)
    (named : TopsNamed rounds) (h : r.Accounts opts (rounds.flatMap Round.valueClasses)) :
    r.ListsClosed (options.covers rounds) ∧
      r.ListsClosed fun name => !options.covers rounds name := by
  have hlists : ∀ name model, r.classes.lookup name = some model → ∀ child ∈ model.children,
      options.covers rounds child = options.covers rounds name := by
    intro name model hmodel child hchild
    obtain ⟨t, ht, rfl, u, hu, rfl⟩ :=
      h.exists_nested (fun _ ht => trees.keepsName named ht) ⟨model, hmodel, hchild⟩
    exact trees.covers_nested named ht hu
  exact ⟨fun name model hname hmodel child hchild =>
      (hlists name model hmodel child hchild).trans hname,
    fun name model hname hmodel child hchild =>
      (congrArg (!·) (hlists name model hmodel child hchild)).trans hname⟩

/-- What some classes compose to, those of them with names in `S` compose to by themselves, in a
registry that need agree on `S` only; and they give the same files. -/
theorem Composes.filter {roots : List String} {forest : List Outline} {files : List GeneratedFile}
    (h : Composes none a roots forest a') (named : a.Named) (closed : a.ListsClosed S)
    (closed' : a.ListsClosed fun name => !S name) (hagree : AgreeOn S a u)
    (hnames : files.map (·.qualifiedName) = roots)
    (hfiles : List.Forall₂ (IsFileOf options) files forest) :
    ∃ forest' u', Composes none u (roots.filter S) forest' u' ∧ AgreeOn S a' u' ∧
      AgreeOff S u u' ∧
      List.Forall₂ (IsFileOf options) (files.filter fun file => S file.qualifiedName) forest' := by
  induction roots generalizing a u forest files with
  | nil =>
    obtain rfl := List.map_eq_nil_iff.mp hnames
    cases h
    exact ⟨[], u, .done none u, hagree, AgreeOn.refl _ _, .nil⟩
  | cons root rest ih =>
    obtain ⟨outline, outlines, a₁, rfl, hfirst, hrest⟩ := h.uncons
    have heffect := hfirst.effect named
    cases hfiles with
    | @cons file _ files _ hfile hfiles =>
      obtain ⟨rfl, hrestNames⟩ := List.cons.inj hnames
      cases hroot : S file.qualifiedName with
      | true =>
        obtain ⟨u₁, hu₁, hagree₁, hoff₁⟩ :=
          hfirst.frame named closed (by simpa using hroot) hagree
        obtain ⟨forest', u', hforest, hagree', hoff', hkept⟩ :=
          ih hrest (heffect.named named) (heffect.listsClosed closed)
            (heffect.listsClosed closed') hagree₁ hrestNames hfiles
        simp only [List.filter_cons, hroot, if_true]
        exact ⟨outline :: forest', u', hu₁.append hforest, hagree', hoff₁.trans hoff',
          .cons hfile hkept⟩
      | false =>
        have hoff := AgreeOn.of_off (hfirst.agreeOff named closed' (by simpa using hroot))
        simp only [List.filter_cons, hroot, Bool.false_eq_true, if_false]
        exact ih hrest (heffect.named named) (heffect.listsClosed closed)
          (heffect.listsClosed closed') (hoff.symm.trans hagree) hrestNames hfiles

/-- Where classes were skipped one after the other, each is nested in one that was skipped before or
is one of them. -/
theorem exists_parent_of_skipAll {entries : List (String × ClassModel)}
    (h : r.skipAll entries = (.ok (), r')) {name : String} {model : ClassModel}
    (hentry : (name, model) ∈ entries) :
    ∃ parent, model.parent = some parent ∧
      (r.state? parent = some .skipped ∨ parent ∈ entries.map (·.1)) := by
  induction entries generalizing r with
  | nil => cases hentry
  | cons entry rest ih =>
    obtain ⟨first, firstModel⟩ := entry
    rw [skipAll] at h
    split at h
    · next hskipped =>
      split at h
      · cases h
      · next htransition =>
        obtain ⟨source, -, -, rfl⟩ := transition_ok_iff.mp htransition
        rcases List.mem_cons.mp hentry with hhere | hlater
        · obtain ⟨rfl, rfl⟩ := Prod.mk.inj hhere
          obtain ⟨parent, hparent, hstate⟩ := Option.bind_eq_some_iff.mp hskipped
          exact ⟨parent, hparent, Or.inl hstate⟩
        · obtain ⟨parent, hparent, hcase⟩ := ih h hlater
          refine ⟨parent, hparent, ?_⟩
          rw [state?_withState] at hcase
          rcases hcase with hstate | hmem
          · split at hstate
            · next heq => exact Or.inr (heq ▸ List.mem_cons_self)
            · exact Or.inl hstate
          · exact Or.inr (List.mem_cons_of_mem _ hmem)
    · cases h

end Registry

/-! ### The whole run -/

namespace TreeRounds

open Registry TypeElement

variable {options : Options} {rounds : List Round} {r : Registry}

/-- A type at the top that is to be converted is a target. -/
theorem covers_of_isWanted (h : TreeRounds rounds) (named : TopsNamed rounds)
    (htargets : options.targets ≠ []) {t : TypeElement} (ht : t ∈ rounds.flatMap Round.types)
    (htop : t.enclosing = none) (hwanted : t.isWanted options = true) :
    options.covers rounds t.qualifiedName = true := by
  have hsome : options.targets.isEmpty = false := by simpa using htargets
  rwa [isWanted, Options.isTargeted, h.outermostSimpleName_of_top named ht htop, hsome,
    Bool.false_or, Bool.or_self, ← h.covers_top named ht htop] at hwanted

/-- A class with a file of its own is at the top. -/
theorem exists_root (haccounts : r.Accounts options (rounds.flatMap Round.valueClasses))
    (hignore : options.ignoreNested = false) {name : String} (hroot : name ∈ r.roots) :
    ∃ e ∈ rounds.flatMap Round.types, e.qualifiedName = name ∧ e.enclosing = none ∧
      e.isWanted options = true := by
  obtain ⟨model, hmodel, htop⟩ := (haccounts.mem_roots name).mp hroot
  obtain ⟨e, he, hwanted, hname, hmodeled, -⟩ := haccounts.model name model hmodel
  have hplace := hmodeled.place
  rw [htop, if_pos rfl] at hplace
  exact ⟨e, (IsOfComplete.mem_types he).1, hname, enclosing_of_placement_ownFile hplace hignore,
    hwanted⟩

/-- A class that is recorded to be nested in another comes after it, on the same side. -/
theorem parent_before (h : TreeRounds rounds) (named : TopsNamed rounds) (options : Options)
    {opts : Options} (haccounts : r.Accounts opts (rounds.flatMap Round.valueClasses))
    {name parent : String} {model : ClassModel} (hmodel : r.classes.lookup name = some model)
    (hparent : model.parent = some parent) :
    parent < name ∧ options.covers rounds parent = options.covers rounds name := by
  obtain ⟨e, he, -, rfl, hmodeled, -⟩ := haccounts.model name model hmodel
  have heTypes := (IsOfComplete.mem_types he).1
  rw [hmodeled.parent] at hparent
  rcases h.cases named heTypes with ⟨hnone, -⟩ | ⟨p, hp, henclosing, -, hlt, houtermost⟩
  · rw [hnone] at hparent
    cases hparent
  · rw [henclosing] at hparent
    obtain rfl : p.qualifiedName = parent := Option.some.inj hparent
    exact ⟨hlt, by rw [h.covers_eq options hp, h.covers_eq options heTypes, houtermost]⟩

/-- A class that the targets do not cover, but that is registered, is nested in one that is skipped
or registered as well. -/
theorem exists_parent (h : TreeRounds rounds) (named : TopsNamed rounds)
    (htargets : options.targets ≠ []) (hignore : options.ignoreNested = false)
    (haccounts : r.Accounts options (rounds.flatMap Round.valueClasses)) {name : String}
    {model : ClassModel} (hmodel : r.classes.lookup name = some model)
    (hcovers : options.covers rounds name = false) :
    ∃ parent, model.parent = some parent ∧
      (r.state? parent = some .skipped ∨ r.classes.lookup parent ≠ none) := by
  cases htop : model.isTopLevel with
  | true =>
    obtain ⟨e, he, rfl, henclosing, hwanted⟩ :=
      exists_root haccounts hignore ((haccounts.mem_roots name).mpr ⟨model, hmodel, htop⟩)
    rw [h.covers_of_isWanted named htargets he henclosing hwanted] at hcovers
    cases hcovers
  | false =>
    obtain ⟨e, he, -, rfl, hmodeled, -⟩ := haccounts.model name model hmodel
    have hplace := hmodeled.place
    rw [htop, if_neg Bool.false_ne_true] at hplace
    obtain ⟨p, hp, hclass, hwanted, henclosing, -⟩ :=
      h.exists_outer named (IsOfComplete.mem_types he).1 hplace
    refine ⟨p.qualifiedName, by rw [hmodeled.parent, henclosing]; rfl, ?_⟩
    exact (haccounts.registered_or_skipped (IsOfComplete.mem_valueClasses hp hclass) hwanted).symm

/-- What is left over with targets is drained, where without targets it is. -/
theorem drains (h : TreeRounds rounds) (named : TopsNamed rounds) (htargets : options.targets ≠ [])
    (hignore : options.ignoreNested = false)
    (haccounts : r.Accounts options (rounds.flatMap Round.valueClasses)) {a g u : Registry}
    {ps : List Place} (heffect : r.Effect ps u) (ordered : Ordered a.classes)
    (hagree : a.AgreeOn (options.covers rounds) u)
    (hoff : r.AgreeOff (options.covers rounds) u) (hdrain : a.drain = (.ok (), g)) :
    ∃ u', u.drain = (.ok (), u') := by
  obtain ⟨a', hskips⟩ := skipAll_of_drain hdrain
  refine haccounts.drain_ok heffect fun name model hleft => ?_
  have hmodel := (heffect.class_kept hleft).2
  cases hcovers : options.covers rounds name with
  | true =>
    -- Without targets the class is left over as well, and what it is nested in is covered.
    have hentry := (ordered.lookup_eq_some_iff name model).mp
      ((hagree.classes name hcovers).trans hleft)
    obtain ⟨parent, hparent, hcase⟩ := exists_parent_of_skipAll hskips hentry
    obtain ⟨hlt, hside⟩ := h.parent_before named options haccounts hmodel hparent
    have hinside := hside.trans hcovers
    rw [mem_keys_iff, hagree.states parent hinside, hagree.classes parent hinside] at hcase
    exact ⟨parent, hparent, hlt, hcase⟩
  | false =>
    -- Composing has changed nothing there.
    obtain ⟨parent, hparent, hcase⟩ :=
      h.exists_parent named htargets hignore haccounts hmodel hcovers
    obtain ⟨hlt, hside⟩ := h.parent_before named options haccounts hmodel hparent
    have houtside : (!options.covers rounds parent) = true := by rw [hside, hcovers]; rfl
    rw [hoff.states parent houtside, hoff.classes parent houtside] at hcase
    exact ⟨parent, hparent, hlt, hcase⟩

end TreeRounds

namespace Session

open Registry

variable {options : Options} {rounds : List Round}

/-- The classes with files of their own are, with targets, those whose names the targets cover. -/
theorem Filters.roots {s t : Session} (h : Filters options rounds s t) (trees : TreeRounds rounds)
    (named : TopsNamed rounds) (htargets : options.targets ≠ [])
    (hignore : options.ignoreNested = false)
    (haccounts : s.registry.Registers (rounds.flatMap Round.valueClasses))
    (haccounts' : t.registry.Accounts options (rounds.flatMap Round.valueClasses)) :
    t.registry.roots = s.registry.roots.filter (options.covers rounds) := by
  refine haccounts'.pairwise_roots.eq_of_mem_iff (haccounts.pairwise_roots.filter _) fun name => ?_
  rw [List.mem_filter, haccounts.mem_roots]
  constructor
  · intro hroot
    obtain ⟨e, he, rfl, henclosing, hwanted⟩ := TreeRounds.exists_root haccounts' hignore hroot
    have hcovers := trees.covers_of_isWanted named htargets he henclosing hwanted
    rw [h.agree.classes _ hcovers, ← haccounts'.mem_roots]
    exact ⟨hroot, hcovers⟩
  · rintro ⟨hroot, hcovers⟩
    rwa [h.agree.classes _ hcovers, ← haccounts'.mem_roots] at hroot

/-- A run with targets gives those files of the run without targets whose classes are targets,
and fails nowhere if that does not. -/
theorem targets_only_filter {files : List GeneratedFile} (trees : TreeRounds rounds)
    (named : TopsNamed rounds) (htargets : options.targets ≠ [])
    (hignore : options.ignoreNested = false)
    (h : Gives { options with targets := [] } rounds files) :
    Gives options rounds (files.filter fun file =>
      options.targets.contains (Text.afterLast '.' file.qualifiedName)) := by
  obtain ⟨s, g, hprocess, hgenerate⟩ := h
  have keeps : ∀ e ∈ rounds.flatMap Round.valueClasses, e.KeepsName := fun e he =>
    trees.keepsName named (IsOfComplete.mem_types he).1
  obtain ⟨t, hprocess', hfilters⟩ := filters_of_processAll trees named hprocess
  obtain ⟨haccounts, henums, -, -⟩ := accounts_of_processAll keeps hprocess
  obtain ⟨haccounts', henums', hoptions', hcandidates'⟩ := accounts_of_processAll keeps hprocess'
  have hnamed : s.registry.Named := ⟨haccounts.classesNamed keeps, henums⟩
  have hnamed' : t.registry.Named := ⟨haccounts'.classesNamed keeps, henums'⟩
  obtain ⟨forest, a, hcomposes, hdrain, hnames, hfiles⟩ := of_generate hprocess hgenerate
  obtain ⟨closed, closed'⟩ := haccounts.listsClosed options trees named
  obtain ⟨forest', u, hcomposes', hagree, hoff, hkept⟩ :=
    hcomposes.filter hnamed closed closed' hfilters.agree hnames hfiles
  rw [← hfilters.roots trees named htargets hignore haccounts.toRegisters haccounts'] at hcomposes'
  have heffect := hcomposes.effect hnamed
  have heffect' := hcomposes'.effect hnamed'
  obtain ⟨v, hdrain'⟩ := trees.drains named htargets hignore haccounts' heffect'
    (heffect.ordered_classes haccounts.ordered_classes) hagree hoff hdrain
  have hcovers : files.filter (fun file => options.covers rounds file.qualifiedName) =
      files.filter fun file =>
        options.targets.contains (Text.afterLast '.' file.qualifiedName) := by
    refine List.filter_congr fun file hfile => ?_
    obtain ⟨e, he, hname, henclosing, -⟩ := TreeRounds.exists_root haccounts hignore
      (hnames ▸ List.mem_map_of_mem hfile : file.qualifiedName ∈ s.registry.roots)
    rw [← hname]
    exact trees.covers_top named he henclosing
  have hroots : (files.filter fun file => options.covers rounds file.qualifiedName).map
      (·.qualifiedName) = t.registry.roots := by
    rw [hfilters.roots trees named htargets hignore haccounts.toRegisters haccounts', ← hnames,
      List.filter_map]
    rfl
  have hkept : List.Forall₂ (IsFileOf options)
      (files.filter fun file => options.covers rounds file.qualifiedName) forest' :=
    hkept.imp fun file outline hfile => by
      cases hfile with
      | intro name declared => exact .intro name declared
  rw [← hcovers]
  by_cases hempty : t.candidates = 0
  · have hregistry : t.registry = {} :=
      haccounts'.empty (List.length_eq_zero_iff.mp (hcandidates'.symm.trans hempty))
    rw [hregistry] at hroots
    rw [List.map_eq_nil_iff.mp hroots]
    exact ⟨t, _, hprocess', runOn_generate_of_no_candidates hempty⟩
  · exact ⟨t, _, hprocess', runOn_generate_of_composes hempty hcomposes' hdrain' hroots
      (hoptions' ▸ hkept)⟩

/-- The mixed round and another class. -/
def mixedRounds : List Round := [Round.mixed, { elements := [.bareValueClass "test.C" []] }]

theorem mixedRounds_complete : CompleteRounds mixedRounds where
  complete := by
    intro round hround e he
    rcases List.mem_pair.mp hround with rfl | rfl
    · exact Round.mixed_isComplete e he
    · obtain rfl := List.mem_singleton.mp he
      exact .intro "C" rfl rfl ⟨by decide, by decide⟩ rfl fun t ht => nomatch ht
  distinct := by decide

/-- Of the two classes with files, the one that is a target has the same file, though there are
targets in a type that is no value class as well, one of them in the other. -/
theorem mixed_rounds_are_filtered :
    let options : Options := { srcDir := "out", targets := ["A", "Q", "R"] }
    TreeRounds mixedRounds ∧ TopsNamed mixedRounds ∧ options.targets ≠ [] ∧
      options.ignoreNested = false ∧
      ∃ files kept, Gives { options with targets := [] } mixedRounds files ∧
        files.map (·.qualifiedName) = ["test.A", "test.C"] ∧
        Gives options mixedRounds kept ∧ kept.map (·.qualifiedName) = ["test.A"] ∧
        kept.Sublist files := by
  intro options
  have trees := mixedRounds_complete.trees
  have named := mixedRounds_complete.topsNamed
  obtain ⟨files, hfiles, hnames⟩ := gives_of_bounded { srcDir := "out" } mixedRounds
    (List.map (·.qualifiedName)) ["test.A", "test.C"] (by decide +kernel) (by decide +kernel)
  refine ⟨trees, named, by decide, rfl, files, _, hfiles, hnames,
    targets_only_filter trees named (by decide) rfl hfiles, ?_, List.filter_sublist⟩
  have hfilter := congrArg (List.filter fun name => options.targets.contains
    (Text.afterLast '.' name)) hnames
  rw [List.filter_map] at hfilter
  exact hfilter.trans (by decide +kernel)

/-- A value class with an empty name at the top, and another one in it. -/
def namelessRound : Round := { elements := [.bareValueClass "test." [.bareValueClass "test..B" []]] }

/-- The name at the top must not be empty. The class in one without a name is taken for one at the
top, so that it is converted as a target though what it is nested in is none; it is missed there
and has no place. -/
theorem nameless_top_is_passed_over :
    TreeRounds [namelessRound] ∧
      (∃ files, Gives { srcDir := "out" } [namelessRound] files) ∧
      ∀ files, ¬Gives { srcDir := "out", targets := ["B"] } [namelessRound] files := by
  refine ⟨⟨fun round hround e he => ?_, fun round hround e he => ?_, by decide +kernel⟩, ?_, ?_⟩
  · obtain rfl := List.mem_singleton.mp hround
    obtain rfl := List.mem_singleton.mp he
    refine .intro rfl rfl (fun t ht => ?_) fun t ht => ?_
    · obtain rfl := List.mem_singleton.mp ht
      exact ⟨"B", by decide, rfl⟩
    · obtain rfl := List.mem_singleton.mp ht
      exact .intro rfl rfl (fun u hu => nomatch hu) fun u hu => nomatch hu
  · obtain rfl := List.mem_singleton.mp hround
    obtain rfl := List.mem_singleton.mp he
    exact ⟨"", by decide, rfl⟩
  · obtain ⟨files, hfiles, -⟩ := gives_of_bounded { srcDir := "out" } [namelessRound]
      List.length 1 (by decide +kernel) (by decide +kernel)
    exact ⟨files, hfiles⟩
  · rintro files ⟨s, g, hprocess, hgenerate⟩
    have hfails : (generateBounded.runOn
        (after { srcDir := "out", targets := ["B"] } [namelessRound])).1.map (fun _ => ()) =
          .error (.orphanedChild "test..B") := by decide +kernel
    have hsession : after { srcDir := "out", targets := ["B"] } [namelessRound] = s :=
      congrArg Prod.snd hprocess
    rw [hsession, ← generate_eq_bounded, hgenerate] at hfails
    cases hfails

end Session

end DataClassGen
