import DataClassGen.Proofs.Run.Accounts
import DataClassGen.Proofs.Run.Evaluation
import DataClassGen.Proofs.Run.Places

/-!
# How declarations end

A run leaves every declaration that it knows modeled or skipped, and the registry has a model for
the modeled ones. Generating composes some of these, and draining skips the others, so that nothing
is left in the registry. When the files are written, what was composed is emitted, so that nothing
is left unfinished: a run whose files are generated ends with them, or with the failure of a write.
-/

namespace DataClassGen

namespace Registry

/-! ### Draining -/

/-- Skipping classes takes them out of the registry and changes nothing but their states. -/
structure Skips (r : Registry) (names : List String) (r' : Registry) : Prop where
  classes : r'.classes = r.classes.filter fun e => decide (e.1 ∉ names)
  enums : r'.enums = r.enums
  state? : ∀ name, r'.state? name = if name ∈ names then some .skipped else r.state? name
  ordered : Ordered r.states → Ordered r'.states

theorem Skips.refl (r : Registry) : Skips r [] r where
  classes := by simp
  enums := rfl
  state? := by simp
  ordered := id

theorem Skips.cons {r r' : Registry} {name : String} {names : List String}
    (h : Skips ((r.withoutClass name).withState name .skipped) names r') :
    Skips r (name :: names) r' where
  classes := by
    rw [h.classes, classes_withState, withoutClass, eraseKey, List.filter_filter]
    refine List.filter_congr fun e _ => ?_
    by_cases he : e.1 = name <;> simp [he]
  enums := h.enums
  state? := fun other => by
    rw [h.state?, state?_withState]
    simp only [List.mem_cons]
    by_cases hother : other = name
    · rw [if_pos hother, if_pos (Or.inl hother), ite_self]
    · simp only [hother, if_false, false_or]
      rfl
  ordered := fun hr => h.ordered (hr.insert name .skipped)

theorem skips_of_skipAll {entries : List (String × ClassModel)} {r r' : Registry}
    (h : r.skipAll entries = (.ok (), r')) : Skips r (entries.map (·.1)) r' := by
  induction entries generalizing r with
  | nil =>
    obtain rfl : r = r' := (Prod.mk.inj h).2
    exact Skips.refl r
  | cons entry rest ih =>
    obtain ⟨name, model⟩ := entry
    rw [skipAll] at h
    split at h
    · split at h
      · cases h
      · next htransition =>
        obtain ⟨source, -, -, rfl⟩ := transition_ok_iff.mp htransition
        exact Skips.cons (ih h)
    · cases h

/-- Draining skips all classes that are registered, and leaves none. -/
theorem of_drain {r r' : Registry} (h : r.drain = (.ok (), r')) :
    r'.classes = [] ∧ r'.enums = [] ∧ (Ordered r.states → Ordered r'.states) ∧
      ∀ name, r'.state? name =
        if name ∈ r.classes.map (·.1) then some .skipped else r.state? name := by
  rw [drain] at h
  split at h
  · next r₁ hskip =>
    obtain rfl := (Prod.mk.inj h).2
    have hskips := skips_of_skipAll hskip
    refine ⟨?_, rfl, hskips.ordered, hskips.state?⟩
    show r₁.classes = []
    rw [hskips.classes, List.filter_eq_nil_iff]
    intro e he
    simpa using ⟨e.2, he⟩
  · cases h

/-- Skipping classes succeeds if they come in order and each has a parent before it that is skipped
or among them. -/
theorem skipAll_ok {rest done : List (String × ClassModel)} {r : Registry}
    (ordered : Ordered (done ++ rest))
    (hdone : ∀ entry ∈ done, r.state? entry.1 = some .skipped)
    (hrest : ∀ entry ∈ rest, r.state? entry.1 = some .modeled)
    (hparent : ∀ entry ∈ rest, ∃ p, entry.2.parent = some p ∧ p < entry.1 ∧
      (r.state? p = some .skipped ∨ ∃ other ∈ done ++ rest, other.1 = p)) :
    ∃ r', r.skipAll rest = (.ok (), r') := by
  induction rest generalizing done r with
  | nil => exact ⟨r, rfl⟩
  | cons entry rest ih =>
    obtain ⟨name, model⟩ := entry
    obtain ⟨p, hp, hlt, hskipped⟩ := hparent (name, model) List.mem_cons_self
    have hafter : ∀ entry ∈ rest, name < entry.1 :=
      (List.pairwise_cons.mp (List.pairwise_append.mp ordered).2.1).1
    have hskipped : r.state? p = some .skipped := by
      rcases hskipped with hskipped | ⟨other, hother, rfl⟩
      · exact hskipped
      · rcases List.mem_append.mp hother with hother | hother
        · exact hdone other hother
        · rcases List.mem_cons.mp hother with rfl | hother
          · exact absurd hlt (String.lt_irrefl _)
          · exact absurd (String.lt_trans hlt (hafter other hother)) (String.lt_irrefl _)
    have hmodeled : (r.withoutClass name).state? name = some .modeled :=
      hrest (name, model) List.mem_cons_self
    rw [skipAll, hp, Option.bind_some, if_pos hskipped, transition_of_allows hmodeled rfl]
    have hstate : ∀ other, ((r.withoutClass name).withState name .skipped).state? other =
        if other = name then some .skipped else r.state? other := fun other =>
      state?_withState _ name other .skipped
    have hordered : Ordered ((done ++ [(name, model)]) ++ rest) := by simpa using ordered
    refine ih hordered (fun entry hentry => ?_) (fun entry hentry => ?_) fun entry hentry => ?_
    · rw [hstate]
      split
      · rfl
      · next hne =>
        rcases List.mem_append.mp hentry with hentry | hentry
        · exact hdone entry hentry
        · rw [List.mem_singleton.mp hentry] at hne
          exact absurd rfl hne
    · rw [hstate, if_neg (ne_of_gt (hafter entry hentry))]
      exact hrest entry (List.mem_cons_of_mem _ hentry)
    · obtain ⟨p, hp, hlt, hcase⟩ := hparent entry (List.mem_cons_of_mem _ hentry)
      refine ⟨p, hp, hlt, ?_⟩
      rcases hcase with hskipped | ⟨other, hother, rfl⟩
      · left
        rw [hstate]
        split
        · rfl
        · exact hskipped
      · exact Or.inr ⟨other, by simpa using hother, rfl⟩

/-! ### After generating -/

variable {options : Options} {done : List TypeElement} {r r₁ r₂ : Registry}

/-- What becomes of the registry of a run by composing its files and draining the rest: it has no
models any more, and what is known in it is composed or skipped. -/
theorem Accounts.after_generate (h : r.Accounts options done) (named : r.Named)
    {forest : List Outline} (hcomposes : Composes none r r.roots forest r₁)
    (hdrain : r₁.drain = (.ok (), r₂)) :
    r₂.classes = [] ∧ r₂.enums = [] ∧ Ordered r₂.states ∧ ∀ name, r₂.state? name =
      if name ∈ Place.classNames (Outline.placesAll none forest) then some .composed
      else if r.state? name = none then none else some .skipped := by
  have heffect := hcomposes.effect named
  obtain ⟨hclasses, henums, hordered, hstate⟩ := of_drain hdrain
  refine ⟨hclasses, henums, hordered (heffect.ordered h.ordered_states), fun name => ?_⟩
  rw [hstate, heffect.state?]
  simp only [mem_keys_iff, heffect.lookup_classes]
  by_cases hplace : name ∈ Place.classNames (Outline.placesAll none forest)
  · simp [hplace]
  · simp only [hplace, if_false]
    by_cases hregistered : r.classes.lookup name ≠ none
    · rw [if_pos hregistered, if_neg]
      rw [(h.modeled name).mpr hregistered]
      exact Option.some_ne_none _
    · rw [if_neg hregistered]
      cases hknown : r.state? name with
      | none => rfl
      | some state =>
        rw [if_neg (Option.some_ne_none state)]
        rcases h.modeled_or_skipped name state hknown with rfl | rfl
        · exact absurd ((h.modeled name).mp hknown) hregistered
        · rfl

theorem Effect.ordered_classes {ps : List Place} (h : Effect r ps r₁) (hr : Ordered r.classes) :
    Ordered r₁.classes := by
  rw [h.classes]
  exact hr.filter _

/-- What composing leaves over is drained if each class of it comes after one that it is nested in,
which is skipped or left over as well. -/
theorem Accounts.drain_ok (h : r.Accounts options done) {ps : List Place} (heffect : Effect r ps r₁)
    (hparent : ∀ name model, r₁.classes.lookup name = some model →
      ∃ parent, model.parent = some parent ∧ parent < name ∧
        (r₁.state? parent = some .skipped ∨ r₁.classes.lookup parent ≠ none)) :
    ∃ r₂, r₁.drain = (.ok (), r₂) := by
  have hordered := heffect.ordered_classes h.ordered_classes
  have hskips : ∃ r₂, r₁.skipAll r₁.classes = (.ok (), r₂) := by
    have hfirst : Ordered ([] ++ r₁.classes) := hordered
    refine skipAll_ok hfirst (fun entry hentry => absurd hentry List.not_mem_nil) ?_ ?_
    · rintro ⟨name, model⟩ hentry
      obtain ⟨hnot, hmodel⟩ :=
        heffect.class_kept ((hordered.lookup_eq_some_iff name model).mpr hentry)
      rw [heffect.state?, if_neg hnot, h.modeled, hmodel]
      exact Option.some_ne_none model
    · rintro ⟨name, model⟩ hentry
      obtain ⟨parent, hmodel, hlt, hcase⟩ :=
        hparent name model ((hordered.lookup_eq_some_iff name model).mpr hentry)
      refine ⟨parent, hmodel, hlt, hcase.imp_right fun hregistered => ?_⟩
      exact List.mem_map.mp (mem_keys_iff.mpr hregistered)
  obtain ⟨r₂, hskips⟩ := hskips
  rw [drain, hskips]
  exact ⟨_, rfl⟩

end Registry

namespace Session

/-! ### After writing -/

/-- Declarations that are in the same state all enter one that may follow on it. -/
theorem runOn_enter_all {source target : Lifecycle} (hallows : source.allows target = true)
    {names : List String} (hnodup : names.Nodup) {s : Session}
    (hnames : ∀ name ∈ names, s.registry.state? name = some source) :
    ∃ r, (names.forM fun name => enter name target).runOn s = (.ok (), { s with registry := r }) ∧
      (Ordered s.registry.states → Ordered r.states) ∧
      ∀ name, r.state? name = if name ∈ names then some target else s.registry.state? name := by
  induction names generalizing s with
  | nil => exact ⟨s.registry, rfl, id, fun name => by simp⟩
  | cons first rest ih =>
    obtain ⟨hfirst, hrest⟩ := List.nodup_cons.mp hnodup
    have hsource : ∀ name ∈ rest,
        (s.registry.withState first target).state? name = some source := by
      intro name hname
      have hne : name ≠ first := fun heq => hfirst (heq ▸ hname)
      rw [Registry.state?_withState, if_neg hne]
      exact hnames name (List.mem_cons_of_mem _ hname)
    obtain ⟨r, hrun, hordered, hstate⟩ :=
      ih hrest (s := { s with registry := s.registry.withState first target }) hsource
    refine ⟨r, ?_, fun hr => hordered (hr.insert first target), fun name => ?_⟩
    · show ((enter first target >>= fun _ => rest.forM fun name => enter name target).runOn s) = _
      rw [Step.runOn_bind_of_ok (runOn_enter (hnames first List.mem_cons_self) hallows)]
      exact hrun
    · rw [hstate, Registry.state?_withState]
      simp only [List.mem_cons]
      by_cases hname : name = first
      · simp [hname]
      · simp [hname]

/-- Where every declaration is composed or skipped, settling emits the composed ones and leaves
none unfinished. -/
theorem runOn_settle {s : Session} (hordered : Ordered s.registry.states)
    (hstates : ∀ name state, s.registry.state? name = some state →
      state = .composed ∨ state = .skipped) :
    ∃ r, settle.runOn s = (.ok (), { s with registry := r }) ∧ ∀ name, r.state? name =
      if s.registry.state? name = some .composed then some .emitted
      else s.registry.state? name := by
  have hmem : ∀ name, name ∈ s.registry.inState .composed ↔
      s.registry.state? name = some .composed := by
    intro name
    rw [Registry.state?, hordered.lookup_eq_some_iff]
    simp [Registry.inState]
  have hnodup : (s.registry.inState .composed).Nodup :=
    (hordered.filter fun entry => entry.2 == .composed).nodup_keys
  have hallows : Lifecycle.allows .composed .emitted = true := rfl
  obtain ⟨r, hrun, hordered', hstate⟩ :=
    runOn_enter_all hallows hnodup fun name hname => (hmem name).mp hname
  simp only [hmem] at hstate
  have hfinished : r.unfinished = [] := by
    rw [Registry.unfinished, List.map_eq_nil_iff, List.filter_eq_nil_iff]
    rintro ⟨name, state⟩ hentry
    have hlookup : r.state? name = some state :=
      ((hordered' hordered).lookup_eq_some_iff name state).mpr hentry
    rw [hstate] at hlookup
    split at hlookup
    · rw [← Option.some.inj hlookup]
      simp [Lifecycle.isFinal]
    · next hnot =>
      rcases hstates name state hlookup with rfl | rfl
      · exact absurd hlookup hnot
      · simp [Lifecycle.isFinal]
  refine ⟨r, ?_, hstate⟩
  rw [List.forM_eq_forM] at hrun
  rw [settle, Step.runOn_get_bind, List.forM_eq_forM, Step.runOn_bind_of_ok hrun,
    Step.runOn_get_bind]
  simp only [hfinished]
  rfl

/-- Where settling does not fail, nothing can fail behind generating but a write. -/
theorem run_finish {m : Type → Type} [Monad m] [LawfulMonad m] (access : FileAccess m)
    {s g finished : Session} {files : List GeneratedFile} (hgenerate : generate.runOn s = (.ok files, g))
    (hsettle : settle.runOn g = (.ok (), finished)) :
    (finish access).run.run s = do
      match ← (writeAll access files).run with
      | .ok () => return (.ok files, finished)
      | .error failure => return (.error failure, g) := by
  have hfirst : StateT.run (ExceptT.run (generate.withFiles (m := m))) s = pure (.ok files, g) := by
    show pure (generate.runOn s) = pure (.ok files, g)
    rw [hgenerate]
  have hlast : StateT.run (ExceptT.run (settle.withFiles (m := m))) g = pure (.ok (), finished) := by
    show pure (settle.runOn g) = pure (.ok (), finished)
    rw [hsettle]
  rw [finish]
  simp only [ExceptT.run_bind, StateT.run_bind, hfirst, pure_bind, ExceptT.run_mk, StateT.run_lift,
    bind_assoc]
  refine bind_congr fun written => ?_
  cases written with
  | error failure => rfl
  | ok written =>
    simp only [StateT.run_bind, hlast, pure_bind]
    rfl

/-! ### The whole run -/

/-- Where generating succeeds after a run, the files are those of a forest that the registry composes
to, and what is left is drained. A run without value classes has no files and nothing to drain. -/
theorem of_generate {options : Options} {rounds : List Round} {s g : Session}
    {files : List GeneratedFile} (hprocess : (processAll rounds).runOn { options } = (.ok (), s))
    (hgenerate : generate.runOn s = (.ok files, g)) :
    ∃ forest r, Registry.Composes none s.registry s.registry.roots forest r ∧
      r.drain = (.ok (), g.registry) ∧ files.map (·.qualifiedName) = s.registry.roots ∧
      List.Forall₂ (IsFileOf options) files forest := by
  obtain ⟨hregisters, hoptions, hcandidates⟩ := registers_of_processAll hprocess
  by_cases hempty : s.candidates = 0
  · rw [runOn_generate_of_no_candidates hempty] at hgenerate
    obtain ⟨hfiles, rfl⟩ := Prod.mk.inj hgenerate
    obtain rfl := Except.ok.inj hfiles
    have hregistry : s.registry = {} :=
      hregisters.empty (List.length_eq_zero_iff.mp (hcandidates.symm.trans hempty))
    rw [hregistry]
    exact ⟨[], {}, Registry.Composes.done none {}, rfl, rfl, .nil⟩
  · rcases generate_spec hempty with
      ⟨files', forest, r₁, r₂, hrun, hcomposes, hdrain, hnames, hisFile⟩ | ⟨failure, s', hrun, -⟩
    · obtain ⟨hfiles, rfl⟩ := Prod.mk.inj (hrun.symm.trans hgenerate)
      obtain rfl := Except.ok.inj hfiles
      exact ⟨forest, r₁, hcomposes, hdrain, hnames, hoptions ▸ hisFile⟩
    · rw [hrun] at hgenerate
      cases hgenerate

/-- Generating takes all models out of the registry of a run, and every declaration that is known is
composed or skipped. -/
theorem after_generate {options : Options} {rounds : List Round} {s g : Session}
    {files : List GeneratedFile} (keeps : ∀ e ∈ rounds.flatMap Round.valueClasses, e.KeepsName)
    (hprocess : (processAll rounds).runOn { options } = (.ok (), s))
    (hgenerate : generate.runOn s = (.ok files, g)) :
    g.registry.classes = [] ∧ g.registry.enums = [] ∧ Ordered g.registry.states ∧
      (∀ name state, g.registry.state? name = some state → state = .composed ∨ state = .skipped) ∧
      ∀ name, g.registry.state? name = none ↔ s.registry.state? name = none := by
  obtain ⟨haccounts, henums, -, -⟩ := accounts_of_processAll keeps hprocess
  have hnamed : s.registry.Named := ⟨haccounts.classesNamed keeps, henums⟩
  obtain ⟨forest, r, hcomposes, hdrain, -, -⟩ := of_generate hprocess hgenerate
  have heffect := hcomposes.effect hnamed
  obtain ⟨hnone, hnone', hordered, hstate⟩ :=
    haccounts.after_generate hnamed hcomposes hdrain
  refine ⟨hnone, hnone', hordered, fun name state hname => ?_, fun name => ?_⟩
  · rw [hstate] at hname
    split at hname
    · exact Or.inl (Option.some.inj hname).symm
    · split at hname
      · cases hname
      · exact Or.inr (Option.some.inj hname).symm
  · rw [hstate]
    split
    · next hplace =>
      rw [(haccounts.modeled name).mpr (heffect.registered name hplace)]
      exact ⟨fun h => (nomatch h), fun h => (nomatch h)⟩
    · split
      · next hunknown => exact ⟨fun _ => hunknown, fun _ => rfl⟩
      · next hknown => exact ⟨fun h => (nomatch h), fun h => absurd h hknown⟩

/-- After a run every declaration that is known is modeled or skipped, and it is modeled just when
a model is registered under its name, which is then the model's own name. If generating succeeds, no
models are left and every declaration that is known is composed or skipped; from then on a run can
only fail as a write fails, and otherwise ends with every declaration emitted or skipped. -/
theorem every_declaration_finishes {options : Options} {rounds : List Round} {s : Session}
    (names : ∀ round ∈ rounds, ∀ e ∈ round.valueClasses,
      Text.beginsWith "." e.qualifiedName = false)
    (hprocess : (processAll rounds).runOn { options } = (.ok (), s)) :
    (∀ name state, s.registry.state? name = some state → state = .modeled ∨ state = .skipped) ∧
      (∀ name, s.registry.state? name = some .modeled ↔
        ∃ model, s.registry.classes.lookup name = some model) ∧
      (∀ name model, s.registry.classes.lookup name = some model → model.qualifiedName = name) ∧
      ∀ files g, generate.runOn s = (.ok files, g) →
        g.registry.classes = [] ∧ g.registry.enums = [] ∧
        (∀ name, g.registry.state? name = none ↔ s.registry.state? name = none) ∧
        (∀ name state, g.registry.state? name = some state →
          state = .composed ∨ state = .skipped) ∧
        ∃ finished : Session,
          (∀ name, finished.registry.state? name = none ↔ s.registry.state? name = none) ∧
          (∀ name state, finished.registry.state? name = some state →
            state = .emitted ∨ state = .skipped) ∧
          ∀ {m : Type → Type} [Monad m] [LawfulMonad m] (access : FileAccess m),
            (finish access).run.run s = do
              match ← (writeAll access files).run with
              | .ok () => return (.ok files, finished)
              | .error failure => return (.error failure, g) := by
  have keeps : ∀ e ∈ rounds.flatMap Round.valueClasses, e.KeepsName := by
    intro e he
    obtain ⟨round, hround, he⟩ := List.mem_flatMap.mp he
    exact TypeElement.keepsName_of_not_beginsWith (names round hround e he)
  obtain ⟨haccounts, -, -, -⟩ := accounts_of_processAll keeps hprocess
  refine ⟨haccounts.modeled_or_skipped,
    fun name => (haccounts.modeled name).trans Option.ne_none_iff_exists',
    haccounts.classesNamed keeps, fun files g hgenerate => ?_⟩
  obtain ⟨hclasses, henums, hordered, hstates, hknown⟩ := after_generate keeps hprocess hgenerate
  obtain ⟨r, hsettle, hsettled⟩ := runOn_settle hordered hstates
  refine ⟨hclasses, henums, hknown, hstates, { g with registry := r }, fun name => ?_,
    fun name state hstate => ?_, fun access => run_finish access hgenerate hsettle⟩
  · rw [← hknown name, hsettled]
    split
    · next hcomposed =>
      rw [hcomposed]
      exact ⟨fun h => (nomatch h), fun h => (nomatch h)⟩
    · exact Iff.rfl
  · rw [hsettled] at hstate
    split at hstate
    · exact Or.inl (Option.some.inj hstate).symm
    · next hnot =>
      rcases hstates name state hstate with rfl | rfl
      · exact absurd hstate hnot
      · exact Or.inr rfl

/-- A run that sees the same round twice has one file. -/
theorem runOn_mixed_rounds : ∃ s files g,
    (processAll [Round.mixed, Round.mixed]).runOn { options := { srcDir := "out" } } = (.ok (), s) ∧
      generate.runOn s = (.ok files, g) ∧ files.map (·.qualifiedName) = ["test.A"] := by
  have hprocess := runOn_processAll
    (show ((processAll [Round.mixed, Round.mixed]).runOn { options := { srcDir := "out" } }).1 =
      .ok () by decide +kernel)
  obtain ⟨files, g, hgenerate, hnames⟩ := runOn_generate_ok
    (show (generateBounded.runOn (after { srcDir := "out" } [Round.mixed, Round.mixed])).1.map
      (·.map (·.qualifiedName)) = .ok ["test.A"] by decide +kernel)
  exact ⟨_, files, g, hprocess, hgenerate, hnames⟩

/-- That run ends with its classes emitted or skipped. -/
theorem mixed_round_finishes :
    (∀ round ∈ [Round.mixed, Round.mixed], ∀ e ∈ round.valueClasses,
      Text.beginsWith "." e.qualifiedName = false) ∧
    ∃ s files g finished,
      (processAll [Round.mixed, Round.mixed]).runOn { options := { srcDir := "out" } } =
        (.ok (), s) ∧
      generate.runOn s = (.ok files, g) ∧ files.map (·.qualifiedName) = ["test.A"] ∧
      g.registry.classes = [] ∧
      (∀ name state, finished.registry.state? name = some state →
        state = .emitted ∨ state = .skipped) ∧
      ∀ access : FileAccess Id, (∀ path contents, access.write path contents = pure ()) →
        (finish access).run.run s = (.ok files, finished) := by
  have hnames : ∀ round ∈ [Round.mixed, Round.mixed], ∀ e ∈ round.valueClasses,
      Text.beginsWith "." e.qualifiedName = false := by decide +kernel
  obtain ⟨s, files, g, hprocess, hgenerate, hfiles⟩ := runOn_mixed_rounds
  obtain ⟨-, -, -, hgenerated⟩ := every_declaration_finishes hnames hprocess
  obtain ⟨hclasses, -, -, -, finished, -, hstates, hfinish⟩ := hgenerated files g hgenerate
  refine ⟨hnames, s, files, g, finished, hprocess, hgenerate, hfiles, hclasses, hstates,
    fun access hwrite => ?_⟩
  have hwritten : ∀ files, writeAll access files = pure () := by
    intro files
    induction files with
    | nil => rfl
    | cons file files ih => rw [writeAll, hwrite, ih]; rfl
  rw [hfinish access, hwritten]
  rfl

end Session

end DataClassGen
