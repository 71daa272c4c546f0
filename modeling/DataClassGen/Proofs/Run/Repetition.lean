import DataClassGen.Proofs.Run.Intake
import DataClassGen.Proofs.Run.Rounds

/-!
# Value classes that are seen again

A value class under a name that is known is counted and nothing else, whatever it looks like now:
the first declaration of a name holds (`runOn_accept_of_known`). No step of taking rounds in forgets
a name, even if the step fails (`Grows`), and a value class that is to be converted is known from
then on. So a round whose value classes are known changes nothing but the count, and so does every
round that was taken in before (`first_declaration_holds`).
-/

namespace DataClassGen

namespace Session

/-! ### What is known stays known -/

/-- The second session has the options of the first, and knows at least the same names. -/
structure Grows (s s' : Session) : Prop where
  options : s'.options = s.options
  known : ∀ name, s.registry.state? name ≠ none → s'.registry.state? name ≠ none

namespace Grows

variable {s s' s'' : Session}

theorem refl (s : Session) : Grows s s := ⟨rfl, fun _ h => h⟩

theorem trans (h : Grows s s') (h' : Grows s' s'') : Grows s s'' :=
  ⟨h'.options.trans h.options, fun name hname => h'.known name (h.known name hname)⟩

/-- Only the states of a registry say what is known. -/
theorem of_states (options : s'.options = s.options)
    (states : s'.registry.states = s.registry.states) : Grows s s' :=
  ⟨options, fun name hname => by rwa [Registry.state?, states]⟩

theorem withState (s : Session) (name : String) (state : Lifecycle) :
    Grows s { s with registry := s.registry.withState name state } := by
  refine ⟨rfl, fun other hother => ?_⟩
  rw [Registry.state?_withState]
  split
  · exact Option.some_ne_none state
  · exact hother

end Grows

namespace Step

variable {α β : Type}

/-- The step forgets nothing, whether it succeeds or fails. -/
def Growing (step : Step α) : Prop := ∀ s : Session, s.Grows (step.runOn s).2

theorem growing_pure (a : α) : Growing (pure a) := fun s => Grows.refl s

theorem Growing.bind {x : Step α} {f : α → Step β} (hx : Growing x) (hf : ∀ a, Growing (f a)) :
    Growing (x >>= f) := by
  intro s
  have hfirst := hx s
  rw [runOn_bind]
  rcases hrun : x.runOn s with ⟨failure | a, s₁⟩
  · rw [hrun] at hfirst
    exact hfirst
  · rw [hrun] at hfirst
    exact hfirst.trans (hf a s₁)

theorem growing_forM {ι : Type} {step : ι → Step Unit} (h : ∀ i, Growing (step i)) :
    ∀ is : List ι, Growing (is.forM step)
  | [] => growing_pure ()
  | i :: is => (h i).bind fun _ => growing_forM h is

end Step

open Step (Growing growing_pure growing_forM)

theorem growing_report (log : Log) : Growing (report log) := fun _ => Grows.of_states rfl rfl

theorem growing_enter (name : String) (state : Lifecycle) : Growing (enter name state) := by
  intro s
  rw [enter, Step.runOn_ofRegistry]
  cases htransition : s.registry.transition name state with
  | error failure => exact Grows.refl s
  | ok r =>
    obtain ⟨source, -, -, rfl⟩ := Registry.transition_ok_iff.mp htransition
    exact Grows.withState s name state

theorem growing_registerEnums (elements : List TypeElement) : Growing (registerEnums elements) := by
  induction elements with
  | nil => exact growing_pure []
  | cons element elements ih =>
    rw [registerEnums]
    rcases EnumModel.ofElement? element with ⟨none | model, log⟩
    · exact (growing_report log).bind fun _ => ih
    · refine (growing_report log).bind fun _ => Growing.bind (fun s => ?_) fun known =>
        ih.bind fun names => growing_pure (known.qualifiedName :: names)
      exact Grows.of_states rfl (Registry.registerEnum_states s.registry model)

theorem growing_convert (e : TypeElement) (isTopLevel : Bool) : Growing (convert e isTopLevel) := by
  refine (growing_enter _ _).bind fun _ => (growing_registerEnums _).bind fun enums =>
    Growing.bind (fun s => Grows.of_states rfl rfl) fun model => ?_
  cases model with
  | none => exact growing_enter _ _
  | some model =>
    refine Growing.bind (fun s => ⟨rfl, fun name hname => ?_⟩) fun _ => growing_enter _ _
    exact (Registry.state?_registerClass s.registry _ name).symm ▸ hname

/-! ### Taking in -/

/-- A value class that is not to be converted or was seen before is counted, and nothing else. -/
theorem runOn_accept_of_known {e : TypeElement} {s : Session}
    (h : e.isWanted s.options = true → s.registry.state? e.qualifiedName ≠ none) :
    (accept e).runOn s = (.ok (), s.counting) := by
  rw [accept, Step.runOn_bind_of_ok (runOn_count s), Step.runOn_get_bind]
  simp only [← TypeElement.isWanted.eq_1]
  by_cases hwanted : e.isWanted s.options = true
  · simp only [hwanted, if_true]
    rw [Step.runOn_bind, runOn_discover]
    simp only [Registry.discover_of_known (h hwanted)]
    rfl
  · simp only [hwanted]
    rfl

/-- What is left of taking a value class in once it is discovered: it goes to its place. -/
def putInPlace (options : Options) (e : TypeElement) : Step Unit := do
  report (e.placement options).2
  match (e.placement options).1 with
  | .nowhere => enter e.qualifiedName .skipped
  | .ownFile => convert e true
  | .insideEnclosing => convert e false

theorem growing_putInPlace (options : Options) (e : TypeElement) :
    Growing (putInPlace options e) := by
  refine (growing_report _).bind fun _ => ?_
  cases (e.placement options).1 with
  | nowhere => exact growing_enter _ _
  | ownFile => exact growing_convert e true
  | insideEnclosing => exact growing_convert e false

/-- A value class that is to be converted and was not seen before is discovered and put in its
place. -/
theorem runOn_accept_of_new {e : TypeElement} {s : Session}
    (hwanted : e.isWanted s.options = true) (hunknown : s.registry.state? e.qualifiedName = none) :
    (accept e).runOn s = (putInPlace s.options e).runOn
      { s.counting with registry := s.registry.withState e.qualifiedName .discovered } := by
  rw [accept, Step.runOn_bind_of_ok (runOn_count s), Step.runOn_get_bind]
  simp only [← TypeElement.isWanted.eq_1, hwanted, if_true]
  rw [Step.runOn_bind, runOn_discover]
  simp only [Registry.discover_of_unknown hunknown]
  rfl

/-- Taking a value class in forgets nothing, and if the class is to be converted, it is known from
then on. -/
theorem runOn_accept_known (e : TypeElement) (s : Session) :
    s.Grows ((accept e).runOn s).2 ∧
      (e.isWanted s.options = true →
        ((accept e).runOn s).2.registry.state? e.qualifiedName ≠ none) := by
  by_cases hnew : e.isWanted s.options = true ∧ s.registry.state? e.qualifiedName = none
  · obtain ⟨hwanted, hunknown⟩ := hnew
    have hgrowing := growing_putInPlace s.options e
    have hcounted : s.Grows s.counting := Grows.of_states rfl rfl
    have hdiscovered : s.Grows
        { s.counting with registry := s.registry.withState e.qualifiedName .discovered } :=
      hcounted.trans (Grows.withState s.counting e.qualifiedName .discovered)
    rw [runOn_accept_of_new hwanted hunknown]
    refine ⟨hdiscovered.trans (hgrowing _), fun _ => (hgrowing _).known _ ?_⟩
    rw [Registry.state?_withState, if_pos rfl]
    exact Option.some_ne_none _
  · have hknown : e.isWanted s.options = true → s.registry.state? e.qualifiedName ≠ none :=
      fun hwanted hunknown => hnew ⟨hwanted, hunknown⟩
    rw [runOn_accept_of_known hknown]
    exact ⟨Grows.of_states rfl rfl, hknown⟩

/-- Value classes that are not to be converted or were seen before are counted, and nothing else. -/
theorem runOn_forM_accept_of_known {es : List TypeElement} {s : Session}
    (h : ∀ e ∈ es, e.isWanted s.options = true → s.registry.state? e.qualifiedName ≠ none) :
    (es.forM accept).runOn s = (.ok (), { s with candidates := s.candidates + es.length }) := by
  induction es generalizing s with
  | nil => rfl
  | cons e es ih =>
    show (accept e >>= fun _ => es.forM accept).runOn s = _
    rw [Step.runOn_bind_of_ok (runOn_accept_of_known (h e List.mem_cons_self))]
    have hrest := ih (s := s.counting) fun e' he' => h e' (List.mem_cons_of_mem _ he')
    have hlength : s.counting.candidates + es.length = s.candidates + (e :: es).length := by
      simp only [counting, List.length_cons]
      omega
    rw [hlength] at hrest
    exact hrest

/-- After value classes were taken in, those to be converted are known. -/
theorem known_of_forM_accept {es : List TypeElement} {s s' : Session}
    (h : (es.forM accept).runOn s = (.ok (), s')) :
    s.Grows s' ∧ ∀ e ∈ es, e.isWanted s'.options = true →
      s'.registry.state? e.qualifiedName ≠ none := by
  refine Step.forM_ok (P := fun done s' => s.Grows s' ∧ ∀ e ∈ done,
    e.isWanted s'.options = true → s'.registry.state? e.qualifiedName ≠ none) ?_
    ⟨Grows.refl s, fun e he => absurd he List.not_mem_nil⟩ h
  rintro done e rest s₁ s₂ - ⟨hgrows, hdone⟩ haccept
  have hstep := runOn_accept_known e s₁
  rw [haccept] at hstep
  obtain ⟨hstep, hself⟩ := hstep
  refine ⟨hgrows.trans hstep, fun e' he' hwanted => ?_⟩
  rw [hstep.options] at hwanted
  rcases List.mem_append.mp he' with he' | he'
  · exact hstep.known _ (hdone e' he' hwanted)
  · obtain rfl := List.mem_singleton.mp he'
    exact hself hwanted

/-- A round changes nothing but the count of value classes, by as many as it has, if all those that
are to be converted have names that are known, whatever the classes are like. So a round that was
taken in, by itself or with others, changes nothing else when it comes again. -/
theorem first_declaration_holds (round : Round) (s : Session) :
    ((∀ e ∈ round.types, e.isValueClass = true → e.isWanted s.options = true →
        s.registry.state? e.qualifiedName ≠ none) →
      (process round).runOn s = (.ok (), { s with
        candidates := s.candidates + round.types.countP (·.isValueClass) })) ∧
    ∀ (rounds : List Round) (s' : Session), round ∈ rounds →
      (processAll rounds).runOn s = (.ok (), s') →
      (process round).runOn s' = (.ok (), { s' with
        candidates := s'.candidates + round.types.countP (·.isValueClass) }) := by
  have hcount : round.types.countP (·.isValueClass) = round.valueClasses.length := by
    rw [round.valueClasses_eq_filter, List.countP_eq_length_filter]
  rw [hcount]
  constructor
  · intro hknown
    refine runOn_forM_accept_of_known fun e he => ?_
    rw [round.valueClasses_eq_filter] at he
    exact hknown e (List.mem_filter.mp he).1 (List.mem_filter.mp he).2
  · intro rounds s' hround hrounds
    rw [processAll_eq] at hrounds
    obtain ⟨-, hknown⟩ := known_of_forM_accept hrounds
    exact runOn_forM_accept_of_known fun e he =>
      hknown e (List.mem_flatMap.mpr ⟨round, hround, he⟩)

/-- Classes of the mixed round with other contents: they have changed places, and one has a doc
comment. -/
def redeclaredRound : Round := { elements := [
  .bareValueClass "test.P.Q" [
    { TypeElement.bareValueClass "test.A" [] with doc := some "Now nested." }]] }

/-- Classes that come again with other contents, and the round that they first came in, change
nothing but the count. -/
theorem mixed_round_comes_again :
    let s := after { srcDir := "out" } [Round.mixed]
    (∀ e ∈ redeclaredRound.types, e.isValueClass = true → e.isWanted s.options = true →
      s.registry.state? e.qualifiedName ≠ none) ∧
    (process redeclaredRound).runOn s = (.ok (), { s with candidates := s.candidates + 2 }) ∧
    (process Round.mixed).runOn s = (.ok (), { s with candidates := s.candidates + 4 }) := by
  intro s
  have hknown : ∀ e ∈ redeclaredRound.types, e.isValueClass = true →
      e.isWanted s.options = true → s.registry.state? e.qualifiedName ≠ none := by
    decide +kernel
  have hprocess : (processAll [Round.mixed]).runOn { options := { srcDir := "out" } } =
      (.ok (), s) := runOn_processAll (by decide +kernel)
  exact ⟨hknown, (first_declaration_holds redeclaredRound s).1 hknown,
    (first_declaration_holds Round.mixed _).2 _ s List.mem_cons_self hprocess⟩

end Session

end DataClassGen
