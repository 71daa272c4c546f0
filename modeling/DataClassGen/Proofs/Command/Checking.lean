import DataClassGen.Command.Program
import DataClassGen.Proofs.Run.Skipping
import DataClassGen.Proofs.Run.Stopping

/-!
# What a check foretells

A check takes rounds in as generating does, and lists what that leaves: the value classes with a model
are listed as convertible. It does not compose them. So generating starts from where the check ends,
with another directory for the sources (`processAll_inDir`), and may still skip a class that is listed
as convertible, or fail (`check_promises_too_much`).

What remains true is `check_foretells`. Generating and settling take a state no other way than from
modeled over composed to emitted, or to skipped for what is left over, and draining skips a class only
with the class that is recorded around it. Over complete rounds more can be said, as the classes that
stand in the files are known from what the check leaves: they are those that are convertible with all
the classes recorded around them (`ConvertibleThroughout.iff_placed`).
-/

namespace DataClassGen

/-! ### Two sessions that take the same in -/

namespace Session

/-- The session with another directory for the sources. -/
def inDir (s : Session) (srcDir : String) : Session :=
  { s with options := { s.options with srcDir } }

/-- Where the sources go makes no difference to what is taken in. -/
theorem accept_inDir {e : TypeElement} {s s' : Session} (hnamed : s.registry.EnumsNamed)
    (h : (accept e).runOn s = (.ok (), s')) (srcDir : String) :
    (accept e).runOn (s.inDir srcDir) = (.ok (), s'.inDir srcDir) ∧ s'.registry.EnumsNamed := by
  have hnamed' : (s.inDir srcDir).registry.EnumsNamed := hnamed
  rw [accept_ok_iff hnamed] at h
  rw [accept_ok_iff hnamed']
  split at h
  · next hnew =>
    obtain ⟨v, hv, rfl⟩ := h
    have hnew' : e.isWanted (s.inDir srcDir).options = true ∧
        (s.inDir srcDir).registry.state? e.qualifiedName = none := hnew
    rw [if_pos hnew']
    exact ⟨⟨v, hv, rfl⟩, hnamed.settle e.qualifiedName v⟩
  · next hold =>
    subst h
    have hold' : ¬(e.isWanted (s.inDir srcDir).options = true ∧
        (s.inDir srcDir).registry.state? e.qualifiedName = none) := hold
    rw [if_neg hold']
    exact ⟨rfl, hnamed⟩

theorem processAll_inDir {options : Options} {rounds : List Round} {s : Session}
    (h : (processAll rounds).runOn { options } = (.ok (), s)) (srcDir : String) :
    (processAll rounds).runOn { options := { options with srcDir } } =
      (.ok (), s.inDir srcDir) := by
  suffices hclasses : ∀ (es : List TypeElement) (s s' : Session), s.registry.EnumsNamed →
      (es.forM accept).runOn s = (.ok (), s') →
        (es.forM accept).runOn (s.inDir srcDir) = (.ok (), s'.inDir srcDir) by
    rw [processAll_eq] at h ⊢
    exact hclasses _ { options } s Registry.enumsNamed_empty h
  intro es
  induction es with
  | nil =>
    intro s s' _ h
    obtain rfl : s = s' := by simpa [List.forM] using h
    rfl
  | cons e es ih =>
    intro s s' hnamed h
    obtain ⟨_, s₁, he, hes⟩ := Step.runOn_bind_ok.mp h
    obtain ⟨haccept, hnamed₁⟩ := accept_inDir hnamed he srcDir
    exact Step.runOn_bind_ok.mpr ⟨(), _, haccept, ih s₁ s' hnamed₁ hes⟩

end Session

section Commands

variable {m : Type → Type} [Monad m] [LawfulMonad m] {access : FileAccess m}

theorem run_takeInAll {paths : List String} {rounds : List Round}
    (holds : List.Forall₂ (fun path round => (loadRound access path).run = pure (.ok round)) paths
      rounds) {s s' : Session} (h : (Session.processAll rounds).runOn s = (.ok (), s')) :
    (takeInAll access paths).run.run s = pure (.ok (), s') := by
  induction holds generalizing s with
  | nil =>
    obtain rfl : s = s' := by simpa [Session.processAll] using h
    rfl
  | @cons path round paths rounds hload hrest ih =>
    obtain ⟨_, s₁, hround, hrounds⟩ := Session.Step.runOn_bind_ok.mp h
    have hfirst : (takeIn access path).run.run s = pure (.ok (), s₁) := by
      have hload : loadRound access path = (pure (Except.ok round) : m (Except Fatal Round)) := hload
      have hprocess : StateT.run (ExceptT.run (whileDoing ("Failed to process round: " ++ path)
          ((Session.process round).withFiles (m := m)))) s = pure (.ok (), s₁) := by
        show StateT.run (Except.mapError _ <$> ((Session.process round).withFiles (m := m)).run) s = _
        rw [StateT.run_map]
        show _ <$> (pure ((Session.process round).runOn s) : m _) = _
        rw [hround, map_pure]
        rfl
      rw [takeIn]
      simp only [ExceptT.run_bind, ExceptT.run_mk, StateT.run_bind, StateT.run_lift, hload, pure_bind]
      exact hprocess
    rw [takeInAll]
    simp only [ExceptT.run_bind, StateT.run_bind, hfirst, pure_bind]
    exact ih hrounds

/-- Checking files that hold rounds lists what is known after the rounds. -/
theorem run_summarize {paths : List String} {rounds : List Round}
    (holds : List.Forall₂ (fun path round => (loadRound access path).run = pure (.ok round)) paths
      rounds) {s c : Session} (h : (Session.processAll rounds).runOn s = (.ok (), c)) :
    (summarize access paths).run.run s = pure (.ok c.findings, c) := by
  have hget : StateT.run (ExceptT.run (getThe Session : Task m Session)) c = pure (.ok c, c) := by
    show (do let p ← (pure (c, c) : m (Session × Session)); pure (Except.ok p.1, p.2)) = _
    rw [pure_bind]
  rw [summarize]
  simp only [ExceptT.run_bind, StateT.run_bind, run_takeInAll holds h, hget, pure_bind]
  rfl

end Commands

/-! ### Finishing -/

namespace Lifecycle

theorem allows_composed {source : Lifecycle} (h : source.allows .composed = true) :
    source = .modeled := by
  cases source <;> first | rfl | cases h

theorem allows_emitted {source : Lifecycle} (h : source.allows .emitted = true) :
    source = .composed := by
  cases source <;> first | rfl | cases h

end Lifecycle

namespace Session

/-- The files of the classes that are registered are generated, and every write succeeds. -/
def finishing : Step (List GeneratedFile) := do
  let files ← generate
  settle
  return files

theorem runOn_finishing_ok {s t : Session} {files : List GeneratedFile} :
    finishing.runOn s = (.ok files, t) ↔
      ∃ g, generate.runOn s = (.ok files, g) ∧ settle.runOn g = (.ok (), t) := by
  rw [finishing, Step.runOn_bind_ok]
  constructor
  · rintro ⟨files', g, hgenerate, hrest⟩
    obtain ⟨_, t', hsettle, hreturn⟩ := Step.runOn_bind_ok.mp hrest
    obtain ⟨hfiles, rfl⟩ := Prod.mk.inj hreturn
    obtain rfl := Except.ok.inj hfiles
    exact ⟨g, hgenerate, hsettle⟩
  · rintro ⟨g, hgenerate, hsettle⟩
    exact ⟨files, g, hgenerate, Step.runOn_bind_ok.mpr ⟨(), t, hsettle, rfl⟩⟩

/-- Finishing is that if every write succeeds. -/
theorem run_finish_of_written {m : Type → Type} [Monad m] [LawfulMonad m] {access : FileAccess m}
    (written : ∀ path contents, access.write path contents = pure ()) (s : Session) :
    (finish access).run.run s = pure (finishing.runOn s) := by
  have hwrites : ∀ files,
      writeAll access files = (pure (Except.ok ()) : m (Except Failure Unit)) := by
    intro files
    induction files with
    | nil => rfl
    | cons file files ih =>
      rw [writeAll, written]
      exact (pure_bind _ _).trans ih
  have runs : ∀ {α : Type} (step : Step α) (s : Session),
      StateT.run (ExceptT.run (step.withFiles (m := m))) s = pure (step.runOn s) := fun _ _ => rfl
  rw [finishing, Step.runOn_bind, finish]
  simp only [ExceptT.run_bind, StateT.run_bind, runs, pure_bind, ExceptT.run_mk]
  rcases generate.runOn s with ⟨failure | files, g⟩
  · rfl
  · simp only [hwrites, StateT.run_bind, StateT.run_lift, pure_bind, runs, Step.runOn_bind]
    rcases settle.runOn g with ⟨failure | _, t⟩
    · rfl
    · rfl

/-- The failure of finishing, as the program has it. -/
def finishingFatal (failure : Failure) : Fatal :=
  { failure, context := some "Failed to generate Kotlin sources" }

/-- Generating from files that hold rounds takes the rounds in and finishes. -/
theorem run_writeSources {m : Type → Type} [Monad m] [LawfulMonad m] {access : FileAccess m}
    (written : ∀ path contents, access.write path contents = pure ()) {paths : List String}
    {rounds : List Round}
    (holds : List.Forall₂ (fun path round => (loadRound access path).run = pure (.ok round)) paths
      rounds) {s c : Session} (h : (processAll rounds).runOn s = (.ok (), c)) :
    (writeSources access paths).run.run s =
      pure ((finishing.runOn c).1.mapError finishingFatal, (finishing.runOn c).2) := by
  have hfinish : StateT.run (ExceptT.run (whileDoing "Failed to generate Kotlin sources"
      (finish access))) c =
        pure ((finishing.runOn c).1.mapError finishingFatal, (finishing.runOn c).2) := by
    show StateT.run (Except.mapError finishingFatal <$> (finish access).run) c = _
    rw [StateT.run_map, run_finish_of_written written, map_pure]
  rw [writeSources]
  simp only [ExceptT.run_bind, StateT.run_bind, run_takeInAll holds h, pure_bind]
  exact hfinish

/-- Emitting composed declarations changes the states of no others. -/
theorem of_emitting {names : List String} {g u : Session}
    (h : (names.forM fun name => enter name .emitted).runOn g = (.ok (), u)) (name : String) :
    u.registry.state? name = g.registry.state? name ∨
      g.registry.state? name = some .composed ∧ u.registry.state? name = some .emitted := by
  refine Step.forM_ok (P := fun _ u => u.registry.state? name = g.registry.state? name ∨
    g.registry.state? name = some .composed ∧ u.registry.state? name = some .emitted) ?_
    (Or.inl rfl) h
  intro done entered rest v v' _ hv henter
  obtain ⟨source, hsource, hallows, rfl⟩ := of_runOn_enter henter
  obtain rfl := Lifecycle.allows_emitted hallows
  rw [Registry.state?_withState]
  split
  · next heq =>
    subst heq
    rcases hv with hsame | ⟨-, hemitted⟩
    · exact Or.inr ⟨hsame ▸ hsource, rfl⟩
    · rw [hsource] at hemitted
      cases hemitted
  · exact hv

/-- Settling emits what is composed, changes nothing else, and leaves nothing unfinished. -/
theorem of_settle {g t : Session} (h : settle.runOn g = (.ok (), t)) :
    (∀ name, t.registry.state? name = g.registry.state? name ∨
      g.registry.state? name = some .composed ∧ t.registry.state? name = some .emitted) ∧
    ∀ name state, t.registry.state? name = some state → state = .emitted ∨ state = .skipped := by
  rw [settle, Step.runOn_get_bind] at h
  obtain ⟨_, u, hemit, h⟩ := Step.runOn_bind_ok.mp h
  rw [Step.runOn_get_bind] at h
  split at h
  · next hfinished =>
    obtain rfl : u = t := (Prod.mk.inj h).2
    refine ⟨of_emitting hemit, fun name state hstate => ?_⟩
    have hmem := List.filter_eq_nil_iff.mp (List.map_eq_nil_iff.mp hfinished) _
      (mem_of_lookup hstate)
    cases state <;> first | exact Or.inl rfl | exact Or.inr rfl | exact absurd rfl hmem
  · cases h

end Session

/-! ### How declarations end -/

namespace Registry

/-- Composing composes modeled classes, and changes no other states. -/
theorem Composes.states {outer : Option String} {r r' : Registry} {children : List String}
    {outlines : List Outline} (h : Composes outer r children outlines r') (name : String) :
    r'.state? name = r.state? name ∨
      r.state? name = some .modeled ∧ r'.state? name = some .composed := by
  have follow : ∀ {a b c : Option Lifecycle}, (b = a ∨ a = some .modeled ∧ b = some .composed) →
      (c = b ∨ b = some .modeled ∧ c = some .composed) →
        c = a ∨ a = some .modeled ∧ c = some .composed := by
    rintro a b c (rfl | ⟨ha, rfl⟩) (rfl | ⟨hb, rfl⟩)
    · exact Or.inl rfl
    · exact Or.inr ⟨hb, rfl⟩
    · exact Or.inr ⟨ha, rfl⟩
    · cases hb
  induction h with
  | done outer r => exact Or.inl rfl
  | enum found after ih => exact ih
  | skipped noEnum isSkipped after ih => exact ih
  | cls must found inside entered after ihInside ihAfter =>
    obtain ⟨source, hsource, hallows, rfl⟩ := transition_ok_iff.mp entered
    obtain rfl := Lifecycle.allows_composed hallows
    refine follow (follow ihInside ?_) ihAfter
    rw [state?_withState]
    split
    · next heq => exact Or.inr ⟨heq ▸ hsource, rfl⟩
    · exact Or.inl rfl

theorem Composes.sublist_classes {outer : Option String} {r r' : Registry} {children : List String}
    {outlines : List Outline} (h : Composes outer r children outlines r') :
    r'.classes.Sublist r.classes := by
  induction h with
  | done outer r => exact List.Sublist.refl _
  | enum found after ih => exact ih
  | skipped noEnum isSkipped after ih => exact ih
  | cls must found inside entered after ihInside ihAfter =>
    rw [classes_of_transition entered] at ihAfter
    exact (ihAfter.trans ihInside).trans List.filter_sublist

end Registry

namespace Session

/-- The declaration is listed as one that can be converted. -/
def MarksConvertible (c : Session) (name : String) : Prop :=
  ∃ state, (name, state) ∈ c.findings ∧ state.hasModel = true

theorem marksConvertible_iff {c : Session} {done : List TypeElement}
    (h : c.registry.Registers done) {name : String} :
    c.MarksConvertible name ↔ c.registry.state? name = some .modeled := by
  rw [Registry.state?, h.ordered_states.lookup_eq_some_iff]
  constructor
  · rintro ⟨state, hmem, hmodel⟩
    obtain ⟨hmem, hstate⟩ := List.mem_filter.mp hmem
    rw [Bool.or_eq_true, beq_iff_eq, beq_iff_eq] at hstate
    rcases hstate with rfl | rfl
    · exact hmem
    · cases hmodel
  · intro hmem
    exact ⟨.modeled, List.mem_filter.mpr ⟨hmem, rfl⟩, rfl⟩

/-- Generating leaves a declaration in its state, or composes it, or skips it with the class that is
recorded around it. -/
theorem states_of_generate {options : Options} {rounds : List Round} {s g : Session}
    {files : List GeneratedFile} (hprocess : (processAll rounds).runOn { options } = (.ok (), s))
    (hgenerate : generate.runOn s = (.ok files, g)) (name : String) :
    (g.registry.state? name = s.registry.state? name ∨
      s.registry.state? name = some .modeled ∧ g.registry.state? name = some .composed) ∨
    g.registry.state? name = some .skipped ∧ ∃ model outer,
      s.registry.classes.lookup name = some model ∧ model.parent = some outer ∧
        g.registry.state? outer = some .skipped := by
  obtain ⟨hregisters, -, -⟩ := registers_of_processAll hprocess
  obtain ⟨forest, r, hcomposes, hdrain, -, -⟩ := of_generate hprocess hgenerate
  obtain ⟨-, -, -, hdrained⟩ := Registry.of_drain hdrain
  by_cases hskipped : g.registry.state? name = some .skipped
  · suffices hcases : g.registry.state? name = some .skipped ∧
        (r.state? name = some .skipped ∨ ∃ model outer,
          s.registry.classes.lookup name = some model ∧ model.parent = some outer ∧
            g.registry.state? outer = some .skipped) by
      obtain ⟨-, hbefore | hparent⟩ := hcases
      · left; left
        rcases hcomposes.states name with hsame | ⟨-, hcomposed⟩
        · rw [hskipped, ← hsame, hbefore]
        · rw [hbefore] at hcomposed
          cases hcomposed
      · exact Or.inr ⟨hskipped, hparent⟩
    revert name
    refine Registry.drain_induction hdrain (fun name hname => ?_)
      fun name model outer hmem hparent houter => ?_
    · exact ⟨by rw [hdrained, hname, ite_self], Or.inl hname⟩
    · have hmodel := (hregisters.ordered_classes.lookup_eq_some_iff name model).mpr
        (hcomposes.sublist_classes.subset hmem)
      have hkey := List.mem_map_of_mem (f := (·.1)) hmem
      exact ⟨by rw [hdrained, if_pos hkey], Or.inr ⟨model, outer, hmodel, hparent, houter.1⟩⟩
  · left
    have hleft : name ∉ r.classes.map (·.1) := by
      intro hmem
      rw [hdrained, if_pos hmem] at hskipped
      exact hskipped rfl
    rw [hdrained, if_neg hleft]
    exact hcomposes.states name

/-- Whatever is emitted was modeled, and what was modeled is emitted, or skipped with the class that
is recorded around it. -/
theorem states_of_finishing {options : Options} {rounds : List Round} {s t : Session}
    {files : List GeneratedFile} (hprocess : (processAll rounds).runOn { options } = (.ok (), s))
    (hfinish : finishing.runOn s = (.ok files, t)) :
    (∀ name, t.registry.state? name = some .emitted → s.registry.state? name = some .modeled) ∧
    ∀ name, s.registry.state? name = some .modeled → t.registry.state? name = some .emitted ∨
      t.registry.state? name = some .skipped ∧ ∃ model outer,
        s.registry.classes.lookup name = some model ∧ model.parent = some outer ∧
          t.registry.state? outer = some .skipped := by
  obtain ⟨g, hgenerate, hsettle⟩ := runOn_finishing_ok.mp hfinish
  obtain ⟨hsettled, hfinal⟩ := of_settle hsettle
  have hgenerated := states_of_generate hprocess hgenerate
  have hskipped : ∀ name, g.registry.state? name = some .skipped →
      t.registry.state? name = some .skipped := by
    intro name hname
    rcases hsettled name with hsame | ⟨hcomposed, -⟩
    · rw [hsame, hname]
    · rw [hname] at hcomposed
      cases hcomposed
  refine ⟨fun name hemitted => ?_, fun name hmodeled => ?_⟩
  · have hknown := (registers_of_processAll hprocess).1.modeled_or_skipped name
    -- Nothing is composed or emitted before generating, and nothing is emitted before settling.
    rcases hgenerated name with (hsame | ⟨hmodeled, -⟩) | ⟨hg, -⟩
    · rcases hsettled name with hsame' | ⟨hcomposed, -⟩
      · rcases hknown .emitted (by rw [← hsame, ← hsame', hemitted]) with h | h <;> cases h
      · rcases hknown .composed (by rw [← hsame, hcomposed]) with h | h <;> cases h
    · exact hmodeled
    · rw [hskipped name hg] at hemitted
      cases hemitted
  · rcases hgenerated name with hkept | ⟨hg, model, outer, hmodel, hparent, houter⟩
    · left
      rcases hsettled name with hsame | ⟨-, hemitted⟩
      · rcases hkept with hkept | ⟨-, hcomposed⟩
        · rcases hfinal name .modeled (by rw [hsame, hkept, hmodeled]) with h | h <;> cases h
        · rcases hfinal name .composed (by rw [hsame, hcomposed]) with h | h <;> cases h
      · exact hemitted
    · exact Or.inr ⟨hskipped name hg, model, outer, hmodel, hparent, hskipped outer houter⟩

/-! ### Complete rounds -/

/-- The declaration is listed as convertible, and so is every class that is recorded around it, the
outermost included. -/
inductive ConvertibleThroughout (c : Session) : String → Prop
  | outermost {name : String} {model : ClassModel} (marked : c.MarksConvertible name)
      (registered : c.registry.classes.lookup name = some model) (top : model.parent = none) :
      ConvertibleThroughout c name
  | nested {name outer : String} {model : ClassModel} (marked : c.MarksConvertible name)
      (registered : c.registry.classes.lookup name = some model)
      (inside : model.parent = some outer) (around : ConvertibleThroughout c outer) :
      ConvertibleThroughout c name

namespace ConvertibleThroughout

variable {c : Session} {options : Options} {rounds : List Round}

theorem marks_of_registered (hrun : c.registry.IsOfComplete options rounds) {name : String}
    (hregistered : c.registry.classes.lookup name ≠ none) : c.MarksConvertible name :=
  (marksConvertible_iff hrun.accounts.toRegisters).mpr ((hrun.accounts.modeled name).mpr hregistered)

/-- A class with a file of its own has no class around it, unless nested classes are ignored. -/
theorem of_root (hrun : c.registry.IsOfComplete options rounds)
    (hignore : options.ignoreNested = false) {name : String} (hroot : name ∈ c.registry.roots) :
    c.ConvertibleThroughout name := by
  obtain ⟨model, hmodel, htop⟩ := (hrun.accounts.mem_roots name).mp hroot
  obtain ⟨e, -, -, -, hmodeled, -⟩ := hrun.accounts.model name model hmodel
  have hplace := hmodeled.place
  rw [htop, if_pos rfl] at hplace
  have henclosing := TypeElement.enclosing_of_placement_ownFile hplace hignore
  refine .outermost (marks_of_registered hrun ?_) hmodel ?_
  · rw [hmodel]
    exact Option.some_ne_none model
  · rw [hmodeled.parent, henclosing]
    rfl

/-- The class that lists a class is the one that is recorded around it. -/
theorem of_listed (hrun : c.registry.IsOfComplete options rounds) {outer name : String}
    (hlists : c.registry.Lists outer name) (houter : c.ConvertibleThroughout outer)
    (hregistered : c.registry.classes.lookup name ≠ none) : c.ConvertibleThroughout name := by
  obtain ⟨listing, hlisting, hchild⟩ := hlists
  obtain ⟨model, hmodel⟩ := Option.ne_none_iff_exists'.mp hregistered
  obtain ⟨p, hp, -, rfl, hmodeled, -⟩ := hrun.accounts.model _ _ hlisting
  obtain ⟨e, he, -, rfl, hmodeled', -⟩ := hrun.accounts.model _ _ hmodel
  have hpTypes := (Registry.IsOfComplete.mem_types hp).1
  obtain ⟨u, hu, hname⟩ := hmodeled.exists_nested
    (fun u hu => hrun.complete.keepsName_nested hpTypes hu) hchild
  obtain ⟨hmem, henclosing⟩ := hrun.complete.nested hpTypes hu
  obtain rfl : u.declaredIn (some p.asEnclosing) = e :=
    hrun.complete.eq_of_name hmem (Registry.IsOfComplete.mem_types he).1 hname
  refine .nested (marks_of_registered hrun hregistered) hmodel ?_ houter
  rw [hmodeled'.parent, henclosing]
  rfl

theorem of_inFile (hrun : c.registry.IsOfComplete options rounds)
    (hignore : options.ignoreNested = false) {name : String} (h : c.registry.InFile name) :
    c.ConvertibleThroughout name := by
  induction h with
  | root hroot => exact of_root hrun hignore hroot
  | nested _ hlists hregistered ih => exact of_listed hrun hlists ih hregistered

/-- What stands in the files is what is convertible throughout. -/
theorem iff_placed (hrun : c.registry.IsOfComplete options rounds)
    (hignore : options.ignoreNested = false) {forest : List Outline} {r : Registry}
    (hcomposes : Registry.Composes none c.registry c.registry.roots forest r) {name : String} :
    c.ConvertibleThroughout name ↔ name ∈ Place.classNames (Outline.placesAll none forest) := by
  constructor
  · intro h
    induction h with
    | outermost marked registered top =>
      by_contra hnot
      obtain ⟨p, hparent, -⟩ := hrun.parent_of_not_placed hcomposes registered hnot
      rw [top] at hparent
      cases hparent
    | nested marked registered inside around ih =>
      by_contra hnot
      obtain ⟨p, hparent, -, hp, -⟩ := hrun.parent_of_not_placed hcomposes registered hnot
      rw [inside] at hparent
      rw [Option.some.inj hparent] at ih
      exact hp ih
  · exact hcomposes.place_induction hrun.named (fun root hroot _ => of_root hrun hignore hroot)
      (fun o child hlists ho hregistered => of_listed hrun hlists ho hregistered) name

end ConvertibleThroughout

end Session

/-! ### Where declarations are wanted -/

namespace Registry

/-- What stands among outlines that have declarations has one itself. -/
theorem Composes.declared {outer : Option String} {r r' : Registry} {children : List String}
    {outlines : List Outline} (h : Composes outer r children outlines r') (named : r.Named)
    {types : List Source.TypeDecl} (htypes : Outline.declarations outlines = .ok types)
    {name : String} {model : ClassModel}
    (hname : name ∈ Place.classNames (Outline.placesAll outer outlines))
    (hmodel : r.classes.lookup name = some model) :
    ∃ declaration, model.toDeclaration = .ok declaration := by
  induction h generalizing types with
  | done outer r => cases hname
  | @enum outer r r' child rest enum outlines found after ih =>
    obtain rfl : enum.qualifiedName = child := named.enums _ _ found
    rw [Outline.declarations] at htypes
    obtain ⟨_, -, htypes⟩ := bind_ok_iff.mp htypes
    obtain ⟨others, hothers, -⟩ := bind_ok_iff.mp htypes
    exact ih (named.withoutEnum _) hothers hname hmodel
  | skipped noEnum isSkipped after ih => exact ih named htypes hname hmodel
  | @cls outer r r₁ r₂ r' child rest listing inner outlines must found inside entered after ihInside
      ihAfter =>
    obtain rfl : listing.qualifiedName = child := named.classes _ _ found
    have hinside := inside.effect (named.withoutClass _)
    have here := Effect.cls outer found hinside entered
    have hafter := after.effect (here.named named)
    rw [Outline.declarations] at htypes
    obtain ⟨type, htype, htypes⟩ := bind_ok_iff.mp htypes
    obtain ⟨others, hothers, -⟩ := bind_ok_iff.mp htypes
    rw [Outline.declaration] at htype
    obtain ⟨declaration, hdeclared, htype⟩ := bind_ok_iff.mp htype
    obtain ⟨nested, hnested, -⟩ := bind_ok_iff.mp htype
    rw [Outline.placesAll, Place.classNames_append, List.mem_append, Outline.places,
      Place.classNames_cons_class, List.mem_cons] at hname
    rcases hname with (rfl | hname) | hname
    · obtain rfl : listing = model := Option.some.inj (found.symm.trans hmodel)
      exact ⟨declaration, hdeclared⟩
    · obtain ⟨found', hfound'⟩ := Option.ne_none_iff_exists'.mp (hinside.registered name hname)
      obtain rfl : found' = model :=
        Option.some.inj ((lookup_of_eraseKey hfound').symm.trans hmodel)
      exact ihInside (named.withoutClass _) hnested hname hfound'
    · obtain ⟨found', hfound'⟩ := Option.ne_none_iff_exists'.mp (hafter.registered name hname)
      obtain rfl : found' = model :=
        Option.some.inj ((here.class_kept hfound').2.symm.trans hmodel)
      exact ihAfter (here.named named) hothers hname hfound'

end Registry

theorem IsFileOf.declarations {options : Options} {files : List GeneratedFile}
    {forest : List Outline} (h : List.Forall₂ (IsFileOf options) files forest) :
    ∃ types, Outline.declarations forest = .ok types := by
  induction h with
  | nil => exact ⟨[], rfl⟩
  | cons hfile hrest ih =>
    obtain ⟨types, htypes⟩ := ih
    cases hfile with
    | intro name declared =>
      exact ⟨_, bind_ok_iff.mpr ⟨_, declared, bind_ok_iff.mpr ⟨types, htypes, rfl⟩⟩⟩

namespace Session

/-- Where generating succeeds after a run over complete rounds, settling does: it emits what stands
in the files, and nothing else. -/
theorem settle_of_generate {options : Options} {rounds : List Round} {s g : Session}
    {files : List GeneratedFile} (hrun : s.registry.IsOfComplete options rounds)
    (hprocess : (processAll rounds).runOn { options } = (.ok (), s))
    (hgenerate : generate.runOn s = (.ok files, g)) {forest : List Outline} {r : Registry}
    (hcomposes : Registry.Composes none s.registry s.registry.roots forest r)
    (hdrain : r.drain = (.ok (), g.registry)) :
    ∃ t, settle.runOn g = (.ok (), t) ∧ ∀ name, t.registry.state? name = some .emitted ↔
      name ∈ Place.classNames (Outline.placesAll none forest) := by
  obtain ⟨-, -, hordered, hstates, -⟩ := after_generate hrun.keeps hprocess hgenerate
  obtain ⟨-, -, -, hstate⟩ := hrun.accounts.after_generate hrun.named hcomposes hdrain
  obtain ⟨r', hsettle, hsettled⟩ := runOn_settle hordered hstates
  refine ⟨_, hsettle, fun name => ?_⟩
  rw [hsettled, hstate]
  by_cases hplace : name ∈ Place.classNames (Outline.placesAll none forest)
  · simp [hplace]
  · cases hknown : s.registry.state? name <;> simp [hplace]

/-- In a run over complete rounds that ignores no nested class and converts all, generating fails
only at a class that is convertible throughout and has no declaration. -/
theorem undeclared_of_generate {options : Options} {rounds : List Round} {s g : Session}
    {failure : Failure} (hrun : s.registry.IsOfComplete options rounds)
    (htargets : options.targets = []) (hignore : options.ignoreNested = false)
    (hgenerate : generate.runOn s = (.error failure, g)) :
    ∃ name model, s.ConvertibleThroughout name ∧ s.registry.classes.lookup name = some model ∧
      model.toDeclaration = .error failure := by
  have hcandidates : s.candidates ≠ 0 := by
    intro hempty
    rw [runOn_generate_of_no_candidates hempty] at hgenerate
    cases hgenerate
  rcases generate_spec hcandidates with
    ⟨files, forest, r₁, r₂, hok, -⟩ | ⟨failure', g', herror, hcause⟩
  · rw [hok] at hgenerate
    cases hgenerate
  · rw [herror] at hgenerate
    obtain rfl := Except.error.inj (Prod.mk.inj hgenerate).1
    rcases hcause with hstops | ⟨forest, r₁, r₂, hcomposes, hdrain⟩
    · rcases hstops.origin hrun (Registry.Pending.start hrun) with
        ⟨name, model, hinFile, hmodel, hundeclared⟩ | ⟨outer, child, hstranded, -⟩
      · exact ⟨name, model, .of_inFile hrun hignore hinFile, hmodel, hundeclared⟩
      · have htargeted := (hstranded.ignoreNested hrun).1
        rw [htargets] at htargeted
        cases htargeted
    · obtain ⟨r₂', hdrained⟩ := hrun.drain_ok hcomposes
      rw [hdrained] at hdrain
      cases hdrain

/-- In a run over complete rounds that ignores no nested class and converts all, finishing fails
only at a class that is convertible throughout and has no declaration. Otherwise those classes are
emitted, and no others, and they all have declarations. -/
theorem finishing_of_complete {options : Options} {rounds : List Round} {s : Session}
    (complete : CompleteRounds rounds) (htargets : options.targets = [])
    (hignore : options.ignoreNested = false)
    (hprocess : (processAll rounds).runOn { options } = (.ok (), s)) :
    (∀ failure t, finishing.runOn s = (.error failure, t) → failure.IsIllegalDefault ∧
      ∃ name model, s.ConvertibleThroughout name ∧ s.registry.classes.lookup name = some model ∧
        model.toDeclaration = .error failure) ∧
    ∀ files t, finishing.runOn s = (.ok files, t) → ∀ name,
      (t.registry.state? name = some .emitted ↔ s.ConvertibleThroughout name) ∧
      (s.ConvertibleThroughout name → ∀ model, s.registry.classes.lookup name = some model →
        ∃ declaration, model.toDeclaration = .ok declaration) := by
  have hrun := isOfComplete_of_processAll complete hprocess
  rcases hgenerate : generate.runOn s with ⟨failure | files, g⟩
  · have hfails : finishing.runOn s = (.error failure, g) := by
      rw [finishing, Step.runOn_bind, hgenerate]
    obtain ⟨name, model, hthroughout, hmodel, hundeclared⟩ :=
      undeclared_of_generate hrun htargets hignore hgenerate
    refine ⟨fun failure' t hfinish => ?_, fun files t hfinish => ?_⟩
    · obtain rfl := Except.error.inj (Prod.mk.inj (hfails.symm.trans hfinish)).1
      exact ⟨model.failsAs_toDeclaration failure hundeclared, name, model, hthroughout, hmodel,
        hundeclared⟩
    · rw [hfails] at hfinish
      cases hfinish
  · obtain ⟨forest, r, hcomposes, hdrain, -, hfiles⟩ := of_generate hprocess hgenerate
    obtain ⟨t, hsettle, hemitted⟩ := settle_of_generate hrun hprocess hgenerate hcomposes hdrain
    have hfinishes := runOn_finishing_ok.mpr ⟨g, hgenerate, hsettle⟩
    refine ⟨fun failure t' hfinish => ?_, fun files' t' hfinish name => ?_⟩
    · rw [hfinishes] at hfinish
      cases hfinish
    · obtain rfl := (Prod.mk.inj (hfinishes.symm.trans hfinish)).2
      have hplaced : s.ConvertibleThroughout name ↔ _ :=
        ConvertibleThroughout.iff_placed hrun hignore hcomposes
      refine ⟨(hemitted name).trans hplaced.symm, fun hthroughout model hmodel => ?_⟩
      obtain ⟨types, htypes⟩ := IsFileOf.declarations hfiles
      exact hcomposes.declared hrun.named htypes (hplaced.mp hthroughout) hmodel

/-- The directory for the sources says nothing of what can be converted. -/
theorem ConvertibleThroughout.inDir {c : Session} {name : String}
    (h : c.ConvertibleThroughout name) (srcDir : String) :
    (c.inDir srcDir).ConvertibleThroughout name := by
  induction h with
  | outermost marked registered top => exact .outermost marked registered top
  | nested marked registered inside _ ih => exact .nested marked registered inside ih

/-- What a check of some rounds says of generating from them. The check lists what taking the rounds
in leaves, and generating into any directory finishes from there. What is emitted then was listed as
convertible; what was listed so is emitted, or is skipped with the class that is recorded around it.
Over complete rounds, generating fails only where a default is wanted for a type without values, in a
class that is convertible throughout; otherwise the classes that are convertible throughout are
emitted, and no others. -/
theorem check_foretells {rounds : List Round} {c : Session}
    (hcheck : (processAll rounds).runOn { options := { srcDir := "" } } = (.ok (), c))
    (srcDir : String) :
    (∀ {m : Type → Type} [Monad m] [LawfulMonad m] (access : FileAccess m) (paths : List String),
      List.Forall₂ (fun path round => (loadRound access path).run = pure (.ok round)) paths rounds →
        (summarize access paths).run.run { options := { srcDir := "" } } =
          pure (.ok c.findings, c) ∧
        ((∀ path contents, access.write path contents = pure ()) →
          (writeSources access paths).run.run { options := { srcDir } } =
            pure ((finishing.runOn (c.inDir srcDir)).1.mapError finishingFatal,
              (finishing.runOn (c.inDir srcDir)).2))) ∧
    (∀ files t, finishing.runOn (c.inDir srcDir) = (.ok files, t) →
      (∀ name, t.registry.state? name = some .emitted → c.MarksConvertible name) ∧
      ∀ name, c.MarksConvertible name → t.registry.state? name = some .emitted ∨
        t.registry.state? name = some .skipped ∧ ∃ model outer,
          c.registry.classes.lookup name = some model ∧ model.parent = some outer ∧
            t.registry.state? outer = some .skipped) ∧
    (CompleteRounds rounds →
      (∀ failure t, finishing.runOn (c.inDir srcDir) = (.error failure, t) →
        failure.IsIllegalDefault ∧ ∃ name model, c.ConvertibleThroughout name ∧
          c.registry.classes.lookup name = some model ∧ model.toDeclaration = .error failure) ∧
      ∀ files t, finishing.runOn (c.inDir srcDir) = (.ok files, t) → ∀ name,
        (t.registry.state? name = some .emitted ↔ c.ConvertibleThroughout name) ∧
        (c.ConvertibleThroughout name → ∀ model, c.registry.classes.lookup name = some model →
          ∃ declaration, model.toDeclaration = .ok declaration)) := by
  have hprocess := processAll_inDir hcheck srcDir
  obtain ⟨hregisters, -, -⟩ := registers_of_processAll hcheck
  have hthroughout : ∀ name,
      (c.inDir srcDir).ConvertibleThroughout name ↔ c.ConvertibleThroughout name := fun name =>
    ⟨fun h => h.inDir c.options.srcDir, fun h => h.inDir srcDir⟩
  refine ⟨fun access paths holds => ?_, fun files t hfinish => ?_, fun complete => ?_⟩
  · exact ⟨run_summarize holds hcheck, fun written => run_writeSources written holds hprocess⟩
  · obtain ⟨hemitted, hmodeled⟩ := states_of_finishing hprocess hfinish
    refine ⟨fun name hname => (marksConvertible_iff hregisters).mpr (hemitted name hname),
      fun name hmarked => hmodeled name ((marksConvertible_iff hregisters).mp hmarked)⟩
  · obtain ⟨hfails, hfinishes⟩ := finishing_of_complete complete rfl rfl hprocess
    simp only [hthroughout] at hfails hfinishes
    exact ⟨hfails, hfinishes⟩

theorem mixed_complete : CompleteRounds [Round.mixed] where
  complete := by
    intro round hround
    obtain rfl := List.mem_singleton.mp hround
    exact Round.mixed_isComplete
  distinct := by decide

/-- What finishing gives is what it gives within the bound. -/
theorem finishing_eq_bounded : finishing = do
    let files ← generateBounded
    settle
    return files := by
  rw [finishing, generate_eq_bounded]

theorem runOn_finishing {s : Session} (h : (finishing.runOn s).1.isOk = true) :
    ∃ files, finishing.runOn s = (.ok files, (finishing.runOn s).2) := by
  rcases hresult : finishing.runOn s with ⟨failure | files, t⟩
  · rw [hresult] at h
    cases h
  · exact ⟨files, rfl⟩

/-- A check of the round lists a class as convertible that generating skips. -/
theorem runOn_mixed_finishing : ∃ c files t,
    (processAll [Round.mixed]).runOn { options := { srcDir := "" } } = (.ok (), c) ∧
      finishing.runOn (c.inDir "out") = (.ok files, t) ∧ c.MarksConvertible "test.P.Q.R" ∧
      t.registry.state? "test.P.Q.R" = some .skipped ∧
      t.registry.state? "test.A.B" = some .emitted := by
  have hcheck := runOn_processAll
    (show ((processAll [Round.mixed]).runOn { options := { srcDir := "" } }).1 = .ok () by
      decide +kernel)
  obtain ⟨files, hfinish⟩ := runOn_finishing
    (show (finishing.runOn ((after { srcDir := "" } [Round.mixed]).inDir "out")).1.isOk = true by
      rw [finishing_eq_bounded]
      decide +kernel)
  refine ⟨_, files, _, hcheck, hfinish, ⟨.modeled, by decide +kernel, rfl⟩, ?_⟩
  rw [finishing_eq_bounded]
  decide +kernel

/-- The check of a round with a class that is left over: the class is listed as convertible, though
not throughout, and generating skips it. -/
theorem mixed_check_foretells :
    CompleteRounds [Round.mixed] ∧ ∃ c files t,
      (processAll [Round.mixed]).runOn { options := { srcDir := "" } } = (.ok (), c) ∧
      finishing.runOn (c.inDir "out") = (.ok files, t) ∧
      (∀ name, t.registry.state? name = some .emitted ↔ c.ConvertibleThroughout name) ∧
      c.ConvertibleThroughout "test.A.B" ∧ c.MarksConvertible "test.P.Q.R" ∧
      ¬c.ConvertibleThroughout "test.P.Q.R" := by
  obtain ⟨c, files, t, hcheck, hfinish, hmarked, hskipped, hemitted⟩ := runOn_mixed_finishing
  have hforetold := ((check_foretells hcheck "out").2.2 mixed_complete).2 files t hfinish
  refine ⟨mixed_complete, c, files, t, hcheck, hfinish, fun name => (hforetold name).1,
    (hforetold _).1.mp hemitted, hmarked, fun hthroughout => ?_⟩
  have hboth := (hforetold _).1.mpr hthroughout
  rw [hskipped] at hboth
  cases hboth

/-- A value class with a property of a type without values. -/
def valuelessRound : Round := { elements := [
  { TypeElement.bareValueClass "test.V" [] with
    methods := [{
      name := "value"
      modifiers := [.abstract]
      returnType := .declared "java.lang.Void" [] }] }] }

/-- A value class that is said to be nested in one that no round has. -/
def orphanRound : Round := { elements := [
  { TypeElement.bareValueClass "test.O.V" [] with
    enclosing := some {
      qualifiedName := "test.O"
      annotations := [{ typeName := valueClassMarker }] } }] }

/-- A check does not foretell that generating succeeds, nor that what it lists as convertible is
emitted. -/
theorem check_promises_too_much :
    (∃ c files t,
      (processAll [Round.mixed]).runOn { options := { srcDir := "" } } = (.ok (), c) ∧
      c.MarksConvertible "test.P.Q.R" ∧ finishing.runOn (c.inDir "out") = (.ok files, t) ∧
      t.registry.state? "test.P.Q.R" = some .skipped) ∧
    (∃ c t, (processAll [valuelessRound]).runOn { options := { srcDir := "" } } = (.ok (), c) ∧
      finishing.runOn (c.inDir "out") = (.error (.illegalDefault "java.lang.Void"), t)) ∧
    ∃ c t, (processAll [orphanRound]).runOn { options := { srcDir := "" } } = (.ok (), c) ∧
      finishing.runOn (c.inDir "out") = (.error (.orphanedChild "test.O.V"), t) := by
  have fails : ∀ {round : Round} {failure : Failure},
      ((processAll [round]).runOn { options := { srcDir := "" } }).1 = .ok () →
      (finishing.runOn ((after { srcDir := "" } [round]).inDir "out")).1 = .error failure →
      ∃ c t, (processAll [round]).runOn { options := { srcDir := "" } } = (.ok (), c) ∧
        finishing.runOn (c.inDir "out") = (.error failure, t) := fun hcheck hfails =>
    ⟨_, _, runOn_processAll hcheck, Prod.ext hfails rfl⟩
  refine ⟨?_, fails (by decide +kernel) ?_, fails (by decide +kernel) ?_⟩
  · obtain ⟨c, files, t, hcheck, hfinish, hmarked, hskipped, -⟩ := runOn_mixed_finishing
    exact ⟨c, files, t, hcheck, hmarked, hfinish, hskipped⟩
  · rw [finishing_eq_bounded]
    decide +kernel
  · rw [finishing_eq_bounded]
    decide +kernel

end Session

end DataClassGen
