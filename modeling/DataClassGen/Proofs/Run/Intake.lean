import DataClassGen.Proofs.Entries
import DataClassGen.Proofs.Run.Steps

/-!
# Taking value classes in

A value class that is to be converted and was not seen before is settled at once: its verdict says
which enums it brings along, which model it has, if it has one, and what is reported. The verdict
depends on the class and the options alone, and not on what was taken in before. What a session
does with a class is therefore one of two things: it counts the class and keeps the rest
(`accept_ok_iff`, the class is not to be converted or was seen before), or it also enters the
verdict. A run over rounds does so for the value classes of the rounds, one after the other
(`run_induction`).
-/

namespace DataClassGen

open Session

/-! ### Changes of the registry -/

namespace Registry

/-- The registry with a declaration in a state, whatever state it was in. -/
def withState (r : Registry) (name : String) (state : Lifecycle) : Registry :=
  { r with states := insertByKey name state r.states }

@[simp] theorem classes_withState (r : Registry) (name : String) (state : Lifecycle) :
    (r.withState name state).classes = r.classes := rfl

@[simp] theorem enums_withState (r : Registry) (name : String) (state : Lifecycle) :
    (r.withState name state).enums = r.enums := rfl

@[simp] theorem withState_withState (r : Registry) (name : String) (state old : Lifecycle) :
    (r.withState name old).withState name state = r.withState name state := by
  simp [withState, insertByKey_insertByKey]

theorem state?_withState (r : Registry) (name other : String) (state : Lifecycle) :
    (r.withState name state).state? other = if other = name then some state else r.state? other := by
  by_cases h : other = name
  · subst h
    rw [if_pos rfl]
    exact lookup_insertByKey_self other state r.states
  · rw [if_neg h]
    exact lookup_insertByKey_of_ne h state r.states

theorem discover_of_unknown {r : Registry} {name : String} (h : r.state? name = none) :
    r.discover name = (true, r.withState name .discovered) := by
  simp only [discover, h, withState]

theorem discover_of_known {r : Registry} {name : String} (h : r.state? name ≠ none) :
    r.discover name = (false, r) := by
  obtain ⟨state, hstate⟩ := Option.ne_none_iff_exists'.mp h
  simp only [discover, hstate]

theorem transition_of_allows {r : Registry} {name : String} {source target : Lifecycle}
    (h : r.state? name = some source) (hallows : source.allows target = true) :
    r.transition name target = .ok (r.withState name target) := by
  simp only [transition, h, hallows, if_true, withState]

/-- A declaration enters a state just when that may follow on the state it is in. -/
theorem transition_ok_iff {r r' : Registry} {name : String} {target : Lifecycle} :
    r.transition name target = .ok r' ↔
      ∃ source, r.state? name = some source ∧ source.allows target = true ∧
        r' = r.withState name target := by
  constructor
  · intro h
    rw [transition] at h
    split at h
    · cases h
    · next source hsource =>
      split at h
      · next hallows => exact ⟨source, hsource, hallows, (Except.ok.inj h).symm⟩
      · cases h
  · rintro ⟨source, hsource, hallows, rfl⟩
    exact transition_of_allows hsource hallows

/-- The registry with the models of some enums whose names were free. -/
def withEnums (r : Registry) (models : List EnumModel) : Registry :=
  models.foldl (fun r model => (r.registerEnum model).2) r

theorem state?_registerClass (r : Registry) (model : ClassModel) (name : String) :
    (r.registerClass model).2.state? name = r.state? name := by
  rw [registerClass]; split <;> rfl

theorem registerEnum_withState (r : Registry) (name : String) (state : Lifecycle)
    (model : EnumModel) :
    ((r.withState name state).registerEnum model).2 =
      (r.registerEnum model).2.withState name state := by
  simp only [registerEnum, enums_withState]
  split <;> rfl

theorem withEnums_withState (r : Registry) (name : String) (state : Lifecycle)
    (models : List EnumModel) :
    (r.withState name state).withEnums models = (r.withEnums models).withState name state := by
  induction models generalizing r with
  | nil => rfl
  | cons model models ih =>
    have := ih (r.registerEnum model).2
    rw [← registerEnum_withState] at this
    exact this

theorem registerClass_withState (r : Registry) (name : String) (state : Lifecycle)
    (model : ClassModel) :
    ((r.withState name state).registerClass model).2 =
      (r.registerClass model).2.withState name state := by
  simp only [registerClass, classes_withState]
  split <;> rfl

/-- Each class is registered under its own name. -/
def ClassesNamed (r : Registry) : Prop :=
  ∀ name model, r.classes.lookup name = some model → model.qualifiedName = name

/-- Each enum is registered under its own name. -/
def EnumsNamed (r : Registry) : Prop :=
  ∀ name model, r.enums.lookup name = some model → model.qualifiedName = name

theorem enumsNamed_empty : EnumsNamed {} := fun _ _ h => (nomatch h)

theorem registerEnum_of_named {r : Registry} (h : r.EnumsNamed) (model : EnumModel) :
    (r.registerEnum model).1.qualifiedName = model.qualifiedName := by
  rw [registerEnum]
  split
  · next known hknown => exact h _ _ hknown
  · rfl

theorem EnumsNamed.registerEnum {r : Registry} (h : r.EnumsNamed) (model : EnumModel) :
    (r.registerEnum model).2.EnumsNamed := by
  intro name found hfound
  rw [Registry.registerEnum] at hfound
  split at hfound
  · exact h _ _ hfound
  · by_cases hname : name = model.qualifiedName
    · rw [hname, lookup_insertByKey_self] at hfound
      rw [hname, Option.some.inj hfound]
    · rw [lookup_insertByKey_of_ne hname] at hfound
      exact h _ _ hfound

@[simp] theorem registerEnum_states (r : Registry) (model : EnumModel) :
    (r.registerEnum model).2.states = r.states := by
  rw [registerEnum]; split <;> rfl

@[simp] theorem registerEnum_classes (r : Registry) (model : EnumModel) :
    (r.registerEnum model).2.classes = r.classes := by
  rw [registerEnum]; split <;> rfl

@[simp] theorem withEnums_states (r : Registry) (models : List EnumModel) :
    (r.withEnums models).states = r.states := by
  induction models generalizing r with
  | nil => rfl
  | cons model models ih => exact (ih _).trans (registerEnum_states r model)

@[simp] theorem withEnums_classes (r : Registry) (models : List EnumModel) :
    (r.withEnums models).classes = r.classes := by
  induction models generalizing r with
  | nil => rfl
  | cons model models ih => exact (ih _).trans (registerEnum_classes r model)

@[simp] theorem state?_withEnums (r : Registry) (models : List EnumModel) (name : String) :
    (r.withEnums models).state? name = r.state? name := by
  simp [state?]

theorem EnumsNamed.withEnums {r : Registry} (h : r.EnumsNamed) (models : List EnumModel) :
    (r.withEnums models).EnumsNamed := by
  induction models generalizing r with
  | nil => exact h
  | cons model models ih => exact ih (h.registerEnum model)

/-- The enums after some more are registered: a name that was taken keeps its enum. -/
theorem lookup_enums_withEnums (r : Registry) (models : List EnumModel) (name : String) :
    (r.withEnums models).enums.lookup name =
      (r.enums.lookup name).or (models.find? (·.qualifiedName == name)) := by
  induction models generalizing r with
  | nil => simp [withEnums]
  | cons model models ih =>
    refine (ih (r.registerEnum model).2).trans ?_
    rw [registerEnum]
    by_cases hname : model.qualifiedName = name
    · subst hname
      cases hknown : r.enums.lookup model.qualifiedName with
      | some known => simp [hknown]
      | none => simp [lookup_insertByKey_self]
    · have hne : (model.qualifiedName == name) = false := beq_false_of_ne hname
      rw [List.find?_cons, hne]
      cases r.enums.lookup model.qualifiedName with
      | some known => rfl
      | none => simp only [lookup_insertByKey_of_ne (Ne.symm hname)]

end Registry

/-! ### Verdicts -/

/-- What becomes of a value class that is to be converted. -/
structure Verdict where
  /-- The enums that are registered with it. -/
  enums : List EnumModel := []
  /-- Its model; none if the class is skipped. -/
  model : Option ClassModel := none
  log : Log

namespace TypeElement

/-- The models of the nested enums that are plain. -/
def enumModels (e : TypeElement) : List EnumModel :=
  (e.nestedTypes.filter (·.isEnum)).filterMap fun t => (EnumModel.ofElement? t).1

/-- What is reported of the nested enums. -/
def enumLog (e : TypeElement) : Log :=
  (e.nestedTypes.filter (·.isEnum)).flatMap fun t => (EnumModel.ofElement? t).2

/-- The verdict on a value class that may stay where it is, unless the conversion fails on it. -/
def modelVerdict (e : TypeElement) (isTopLevel : Bool) (log : Log) : Except Failure Verdict :=
  match (ClassModel.ofElement? e (e.enumModels.map (·.qualifiedName))).runOn [] with
  | (.error failure, _) => .error failure
  | (.ok model, modelLog) => .ok {
      enums := e.enumModels
      model := model.map fun m => { m with isTopLevel }
      log := log ++ e.enumLog ++ modelLog }

/-- The verdict on a value class, unless the conversion fails on it. -/
def verdict (options : Options) (e : TypeElement) : Except Failure Verdict :=
  match e.placement options with
  | (.nowhere, log) => .ok { log }
  | (.ownFile, log) => e.modelVerdict true log
  | (.insideEnclosing, log) => e.modelVerdict false log

/-- The class is one of those to convert. -/
def isWanted (options : Options) (e : TypeElement) : Bool :=
  options.isTargeted e.simpleName e.outermostSimpleName

end TypeElement

/-- The registry with the verdict on a class. -/
def Registry.settle (r : Registry) (name : String) (v : Verdict) : Registry :=
  match v.model with
  | none => (r.withEnums v.enums).withState name .skipped
  | some model => ((r.withEnums v.enums).registerClass model).2.withState name .modeled

namespace Session

/-- The session with one value class more. -/
def counting (s : Session) : Session := { s with candidates := s.candidates + 1 }

/-- The session with the verdict on one value class more. -/
def settling (s : Session) (name : String) (v : Verdict) : Session :=
  { s with
    candidates := s.candidates + 1
    registry := s.registry.settle name v
    log := s.log ++ v.log }

/-! ### The steps -/

theorem runOn_discover (name : String) (s : Session) :
    (discover name).runOn s =
      (.ok (s.registry.discover name).1, { s with registry := (s.registry.discover name).2 }) :=
  rfl

theorem runOn_enter {name : String} {source target : Lifecycle} {s : Session}
    (h : s.registry.state? name = some source) (hallows : source.allows target = true) :
    (enter name target).runOn s =
      (.ok (), { s with registry := s.registry.withState name target }) := by
  simp only [enter, Step.runOn_ofRegistry, Registry.transition_of_allows h hallows]

/-- A name enters a state from one that allows it, and nothing else changes. -/
theorem of_runOn_enter {name : String} {target : Lifecycle} {s s' : Session}
    (h : (enter name target).runOn s = (.ok (), s')) :
    ∃ source, s.registry.state? name = some source ∧ source.allows target = true ∧
      s' = { s with registry := s.registry.withState name target } := by
  rw [enter, Step.runOn_ofRegistry] at h
  split at h
  · next r hstep =>
    obtain ⟨source, hsource, hallows, rfl⟩ := Registry.transition_ok_iff.mp hstep
    exact ⟨source, hsource, hallows, (Prod.mk.inj h).2.symm⟩
  · cases h

theorem runOn_registerEnums (elements : List TypeElement) {s : Session}
    (h : s.registry.EnumsNamed) :
    (registerEnums elements).runOn s =
      let models := elements.filterMap fun t => (EnumModel.ofElement? t).1
      (.ok (models.map (·.qualifiedName)),
        { s with
          registry := s.registry.withEnums models
          log := s.log ++ elements.flatMap fun t => (EnumModel.ofElement? t).2 }) := by
  induction elements generalizing s with
  | nil => simp [registerEnums, Registry.withEnums]
  | cons element elements ih =>
    rw [registerEnums]
    cases hmodel : EnumModel.ofElement? element with
    | mk model log =>
      cases model with
      | none =>
        simp only [Step.runOn_bind, runOn_report]
        rw [ih (s := { s with log := s.log ++ log }) h]
        simp [hmodel]
      | some model =>
        simp only [Step.runOn_bind, runOn_report, Step.runOn_ofRegistry, Step.runOn_pure]
        rw [ih (s := { s with
          registry := (s.registry.registerEnum model).2
          log := s.log ++ log }) (h.registerEnum model)]
        simp [hmodel, Registry.registerEnum_of_named h, Registry.withEnums]

/-- Converting enters the model, or skips the class if it has none; it fails if modelling does. -/
theorem runOn_convert (e : TypeElement) (isTopLevel : Bool) {s : Session}
    (hknown : s.registry.state? e.qualifiedName = some .discovered) (h : s.registry.EnumsNamed) :
    (convert e isTopLevel).runOn s =
      let r := (s.registry.withState e.qualifiedName .validated).withEnums e.enumModels
      match (ClassModel.ofElement? e (e.enumModels.map (·.qualifiedName))).runOn [] with
      | (.error failure, log) =>
        (.error failure, { s with registry := r, log := s.log ++ e.enumLog ++ log })
      | (.ok none, log) =>
        (.ok (), { s with
          registry := r.withState e.qualifiedName .skipped
          log := s.log ++ e.enumLog ++ log })
      | (.ok (some model), log) =>
        (.ok (), { s with
          registry := (r.registerClass { model with isTopLevel }).2.withState e.qualifiedName .modeled
          log := s.log ++ e.enumLog ++ log }) := by
  have henums : (registerEnums (e.nestedTypes.filter (·.isEnum))).runOn
      { s with registry := s.registry.withState e.qualifiedName .validated } =
      (.ok (e.enumModels.map (·.qualifiedName)), { s with
        registry := (s.registry.withState e.qualifiedName .validated).withEnums e.enumModels
        log := s.log ++ e.enumLog }) := runOn_registerEnums _ h
  have hstate : ((s.registry.withState e.qualifiedName .validated).withEnums e.enumModels).state?
      e.qualifiedName = some .validated := by
    rw [Registry.state?_withEnums, Registry.state?_withState, if_pos rfl]
  rw [convert, Step.runOn_bind_of_ok (runOn_enter hknown rfl), Step.runOn_bind_of_ok henums,
    Step.runOn_bind, Step.runOn_ofReporting, ClassModel.appends_ofElement? e _ (s.log ++ _)]
  generalize (ClassModel.ofElement? e (e.enumModels.map (·.qualifiedName))).runOn [] = outcome
  obtain ⟨failure | model, log⟩ := outcome
  · rfl
  · cases model with
    | none => exact runOn_enter hstate rfl
    | some model =>
      simp only
      rw [Step.runOn_bind, Step.runOn_ofRegistry]
      simp only
      rw [runOn_enter (Registry.state?_registerClass _ _ _ ▸ hstate) rfl]

/-- Converting a class that is new enters the verdict on it. -/
theorem runOn_convert_ok_iff {e : TypeElement} {isTopLevel : Bool} {log : Log} {s s' : Session}
    (h : s.registry.EnumsNamed) :
    (convert e isTopLevel).runOn { s with
        candidates := s.candidates + 1
        registry := s.registry.withState e.qualifiedName .discovered
        log := s.log ++ log } = (.ok (), s') ↔
      ∃ v, e.modelVerdict isTopLevel log = .ok v ∧ s' = s.settling e.qualifiedName v := by
  have hconvert := runOn_convert e isTopLevel
    (s := { s with
      candidates := s.candidates + 1
      registry := s.registry.withState e.qualifiedName .discovered
      log := s.log ++ log })
    (by simp only [Registry.state?_withState, if_true]) h
  rw [hconvert, TypeElement.modelVerdict]
  generalize (ClassModel.ofElement? e (e.enumModels.map (·.qualifiedName))).runOn [] = outcome
  obtain ⟨failure | model, modelLog⟩ := outcome
  · simp
  · cases model with
    | none =>
      simp only [Registry.withState_withState, Registry.withEnums_withState, Prod.mk.injEq, true_and,
        Except.ok.injEq, exists_eq_left', settling, Registry.settle, Option.map_none,
        List.append_assoc]
      exact eq_comm
    | some model =>
      simp only [Registry.withState_withState, Registry.withEnums_withState,
        Registry.registerClass_withState, Prod.mk.injEq, true_and, Except.ok.injEq,
        exists_eq_left', settling, Registry.settle, Option.map_some, List.append_assoc]
      exact eq_comm

/-- A value class is entered if it is to be converted and was not seen before; otherwise it is
counted and nothing else. -/
theorem accept_ok_iff {e : TypeElement} {s s' : Session} (h : s.registry.EnumsNamed) :
    (accept e).runOn s = (.ok (), s') ↔
      if e.isWanted s.options = true ∧ s.registry.state? e.qualifiedName = none then
        ∃ v, e.verdict s.options = .ok v ∧ s' = s.settling e.qualifiedName v
      else s' = s.counting := by
  rw [accept, Step.runOn_bind_of_ok (runOn_count s), Step.runOn_get_bind]
  simp only [← TypeElement.isWanted.eq_1]
  by_cases hwanted : e.isWanted s.options = true
  · simp only [hwanted, if_true, true_and]
    rw [Step.runOn_bind, runOn_discover]
    by_cases hunknown : s.registry.state? e.qualifiedName = none
    · simp only [Registry.discover_of_unknown hunknown, hunknown, if_true]
      rcases hplace : e.placement s.options with ⟨place, log⟩
      rw [TypeElement.verdict, hplace, Step.runOn_bind, runOn_report]
      cases place with
      | nowhere =>
        simp only
        rw [runOn_enter (Registry.state?_withState _ _ _ _ |>.trans (if_pos rfl)) rfl]
        simp only [Registry.withState_withState, Prod.mk.injEq, true_and, Except.ok.injEq,
          exists_eq_left', settling, Registry.settle]
        exact eq_comm
      | ownFile => exact runOn_convert_ok_iff h
      | insideEnclosing => exact runOn_convert_ok_iff h
    · simp only [Registry.discover_of_known hunknown, hunknown, if_false]
      simp [counting, eq_comm]
  · simp [hwanted, counting, eq_comm]

/-! ### Runs -/

/-- The rounds of a run are taken in, one after the other. -/
def processAll (rounds : List Round) : Step Unit := rounds.forM process

/-- The session that a run leaves. -/
def after (options : Options) (rounds : List Round) : Session :=
  ((processAll rounds).runOn { options }).2

theorem runOn_processAll {options : Options} {rounds : List Round}
    (h : ((processAll rounds).runOn { options }).1 = .ok ()) :
    (processAll rounds).runOn { options } = (.ok (), after options rounds) := Prod.ext h rfl

/-- A run takes in the value classes of all its rounds. -/
theorem processAll_eq (rounds : List Round) :
    processAll rounds = (rounds.flatMap Round.valueClasses).forM accept := by
  induction rounds with
  | nil => rfl
  | cons round rounds ih =>
    rw [List.flatMap_cons]
    simp only [processAll, process, List.forM_eq_forM, List.forM_cons, List.forM_append] at ih ⊢
    rw [ih]

end Session

theorem Registry.EnumsNamed.settle {r : Registry} (h : r.EnumsNamed) (name : String)
    (v : Verdict) : (r.settle name v).EnumsNamed := by
  rw [Registry.settle]
  split
  · exact h.withEnums v.enums
  · next model _ =>
    have henums : ((r.withEnums v.enums).registerClass model).2.enums =
        (r.withEnums v.enums).enums := by
      rw [Registry.registerClass]; split <;> rfl
    intro name' found hfound
    rw [Registry.enums_withState, henums] at hfound
    exact h.withEnums v.enums _ _ hfound

/-- What holds at the start of a run and is kept by every verdict, and by every class that is passed
over, holds after the run. `P` is told which value classes are behind, and what was reported. -/
theorem Session.run_induction {options : Options} {P : List TypeElement → Registry → Log → Prop}
    {rounds : List Round} {s : Session} (start : P [] {} [])
    (pass : ∀ done e rest r log, rounds.flatMap Round.valueClasses = done ++ e :: rest →
      P done r log → (e.isWanted options = false ∨ r.state? e.qualifiedName ≠ none) →
      P (done ++ [e]) r log)
    (settle : ∀ done e rest r log v, rounds.flatMap Round.valueClasses = done ++ e :: rest →
      P done r log → r.EnumsNamed → e.isWanted options = true → r.state? e.qualifiedName = none →
      e.verdict options = .ok v → P (done ++ [e]) (r.settle e.qualifiedName v) (log ++ v.log))
    (h : (processAll rounds).runOn { options } = (.ok (), s)) :
    P (rounds.flatMap Round.valueClasses) s.registry s.log ∧ s.registry.EnumsNamed ∧
      s.options = options ∧ s.candidates = (rounds.flatMap Round.valueClasses).length := by
  rw [processAll_eq] at h
  refine Step.forM_ok (P := fun done s => P done s.registry s.log ∧ s.registry.EnumsNamed ∧
    s.options = options ∧ s.candidates = done.length) ?_
    ⟨start, Registry.enumsNamed_empty, rfl, rfl⟩ h
  rintro done e rest s s' hall ⟨hP, hnamed, rfl, hcount⟩ haccept
  rw [accept_ok_iff hnamed] at haccept
  split at haccept
  · next hnew =>
    obtain ⟨v, hv, rfl⟩ := haccept
    exact ⟨settle done e rest _ _ v hall hP hnamed hnew.1 hnew.2 hv,
      hnamed.settle e.qualifiedName v, rfl, by simp [settling, hcount]⟩
  · next hold =>
    subst haccept
    refine ⟨pass done e rest _ _ hall hP ?_, hnamed, rfl, by simp [counting, hcount]⟩
    by_cases hwanted : e.isWanted s.options = true
    · exact Or.inr fun hunknown => hold ⟨hwanted, hunknown⟩
    · exact Or.inl (by simpa using hwanted)

end DataClassGen
