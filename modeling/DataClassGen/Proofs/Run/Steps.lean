import DataClassGen.Run.Session

/-!
# What steps do

A step of a session is run on a session and gives a result and a session. This module says so for
each of the small steps, so that a longer step is taken apart without looking at the monad it is
written in. A computation that reports is taken apart the same way; it does not look at what was
reported before it, so that its result and its own reports are all there is to know of it.
-/

namespace DataClassGen

namespace Session.Step

variable {α β : Type}

@[simp] theorem runOn_pure (a : α) (s : Session) : runOn (pure a) s = (.ok a, s) := rfl

/-- A step followed by another: the second runs on the session that the first leaves, unless the
first fails. -/
theorem runOn_bind (x : Step α) (f : α → Step β) (s : Session) :
    (x >>= f).runOn s =
      match x.runOn s with
      | (.ok a, s') => (f a).runOn s'
      | (.error failure, s') => (.error failure, s') := by
  simp only [runOn, ExceptT.run_bind, StateT.run_bind]
  rcases hx : StateT.run (ExceptT.run x) s with ⟨result, s'⟩
  rcases result with failure | a <;> rfl

/-- Two steps succeed one after the other just when each does. -/
theorem runOn_bind_ok {x : Step α} {f : α → Step β} {b : β} {s s' : Session} :
    (x >>= f).runOn s = (.ok b, s') ↔
      ∃ a s₁, x.runOn s = (.ok a, s₁) ∧ (f a).runOn s₁ = (.ok b, s') := by
  rw [runOn_bind]
  rcases hx : x.runOn s with ⟨failure | a, s₁⟩
  · simp
  · constructor
    · intro h
      exact ⟨a, s₁, rfl, h⟩
    · rintro ⟨a', s₁', h, h'⟩
      obtain ⟨rfl, rfl⟩ : a = a' ∧ s₁ = s₁' := by simpa using h
      exact h'

/-- Behind a step that succeeds, the next one runs on the session that it leaves. -/
theorem runOn_bind_of_ok {x : Step α} {f : α → Step β} {a : α} {s s' : Session}
    (h : x.runOn s = (.ok a, s')) : (x >>= f).runOn s = (f a).runOn s' := by
  rw [runOn_bind, h]

@[simp] theorem runOn_get (s : Session) : runOn get s = (.ok s, s) := rfl

theorem runOn_get_bind (f : Session → Step β) (s : Session) :
    (get >>= f).runOn s = (f s).runOn s := runOn_bind_of_ok (runOn_get s)

@[simp] theorem runOn_ofRegistry (step : Registry → Except Failure α × Registry) (s : Session) :
    (ofRegistry step).runOn s =
      ((step s.registry).1, { s with registry := (step s.registry).2 }) := rfl

@[simp] theorem runOn_ofReporting (step : Reporting α) (s : Session) :
    (ofReporting step).runOn s = ((step.runOn s.log).1, { s with log := (step.runOn s.log).2 }) :=
  rfl

/-- The same step for one thing after another: a condition that the first step starts from and
every step keeps holds in the end. `P` is told which of the things are behind. -/
theorem forM_ok {ι : Type} {step : ι → Step Unit} {P : List ι → Session → Prop} {all : List ι}
    (next : ∀ done i rest s s', all = done ++ i :: rest → P done s →
      (step i).runOn s = (.ok (), s') → P (done ++ [i]) s')
    {s s' : Session} (start : P [] s) (h : (all.forM step).runOn s = (.ok (), s')) : P all s' := by
  suffices hsuffix : ∀ (is done : List ι) (s : Session), all = done ++ is → P done s →
      (is.forM step).runOn s = (.ok (), s') → P all s' from hsuffix all [] s rfl start h
  intro is
  induction is with
  | nil =>
    intro done s hall hP h
    obtain rfl : s = s' := by simpa [List.forM] using h
    simpa [hall] using hP
  | cons i is ih =>
    intro done s hall hP h
    obtain ⟨_, s₁, hi, his⟩ := runOn_bind_ok.mp h
    exact ih (done ++ [i]) s₁ (by simpa using hall) (next done i is s s₁ hall hP hi) his

end Session.Step

namespace Session

@[simp] theorem runOn_count (s : Session) :
    count.runOn s = (.ok (), { s with candidates := s.candidates + 1 }) := rfl

@[simp] theorem runOn_report (log : Log) (s : Session) :
    (report log).runOn s = (.ok (), { s with log := s.log ++ log }) := rfl

end Session

/-! ### Reporting -/

namespace Reporting

variable {α β : Type}

/-- The computation adds to the log, and what was in the log before makes no difference to it. -/
def Appends (c : Reporting α) : Prop :=
  ∀ log, c.runOn log = ((c.runOn []).1, log ++ (c.runOn []).2)

theorem appends_pure (a : α) : Appends (pure a) := fun log => by
  show (Except.ok a, log) = (Except.ok a, log ++ [])
  rw [List.append_nil]

theorem appends_report (severity : Severity) (message : String) (element : Option String) :
    Appends (report severity message element) := fun _ => rfl

theorem appends_ofExcept (result : Except Failure α) : Appends (ofExcept result) := fun log => by
  show (result, log) = (result, log ++ [])
  rw [List.append_nil]

theorem runOn_bind (x : Reporting α) (f : α → Reporting β) (log : Log) :
    (x >>= f).runOn log =
      match x.runOn log with
      | (.ok a, log') => (f a).runOn log'
      | (.error failure, log') => (.error failure, log') := by
  simp only [runOn, ExceptT.run_bind, StateT.run_bind]
  rcases hx : StateT.run (ExceptT.run x) log with ⟨result, log'⟩
  rcases result with failure | a <;> rfl

theorem runOn_bind_ok {x : Reporting α} {f : α → Reporting β} {b : β} {log log' : Log}
    (h : (x >>= f).runOn log = (.ok b, log')) :
    ∃ a log₁, x.runOn log = (.ok a, log₁) ∧ (f a).runOn log₁ = (.ok b, log') := by
  rw [runOn_bind] at h
  rcases hx : x.runOn log with ⟨failure | a, log₁⟩
  · rw [hx] at h
    cases h
  · rw [hx] at h
    exact ⟨a, log₁, rfl, h⟩

theorem Appends.bind {x : Reporting α} {f : α → Reporting β} (hx : Appends x)
    (hf : ∀ a, Appends (f a)) : Appends (x >>= f) := fun log => by
  rw [runOn_bind, runOn_bind, hx log]
  rcases x.runOn [] with ⟨failure | a, log'⟩
  · rfl
  · simp only
    rw [hf a (log ++ log'), hf a log', List.append_assoc]

theorem appends_foldlM {ι : Type} {f : α → ι → Reporting α} (hf : ∀ a i, Appends (f a i)) :
    ∀ (is : List ι) (a : α), Appends (is.foldlM f a)
  | [], a => appends_pure a
  | i :: is, a => (hf a i).bind fun a' => appends_foldlM hf is a'

end Reporting

/-! ### Models report and nothing else -/

/-- Sorting a method of a builder does not look at the log. -/
theorem BuilderParts.appends_add (builderName valueName : String) (set : PropertySet)
    (parts : BuilderParts) (m : Method) :
    Reporting.Appends (parts.add builderName valueName set m) := by
  unfold BuilderParts.add
  cases BuilderRole.ofMethod builderName valueName set parts m with
  | setter i =>
    have hrest : ∀ _ : Unit, Reporting.Appends (do
        let f ← Reporting.ofExcept m.toFunction
        return { parts with setters := parts.setters.modify i (· ++ [f]) }) := fun _ =>
      (Reporting.appends_ofExcept _).bind fun _ => Reporting.appends_pure _
    by_cases hcount : (m.parameters.length != 1) = true
    · simp only [hcount, if_true]
      exact (Reporting.appends_report _ _ _).bind hrest
    · simp only [hcount, Bool.false_eq_true, if_false]
      exact hrest ()
  | finalize => exact (Reporting.appends_ofExcept _).bind fun _ => Reporting.appends_pure _
  | build => exact (Reporting.appends_ofExcept _).bind fun _ => Reporting.appends_pure _
  | subBuilder i =>
    exact (Reporting.appends_ofExcept _).bind fun _ =>
      (Reporting.appends_ofExcept _).bind fun _ => Reporting.appends_pure _
  | unrecognized => exact Reporting.appends_pure _

/-- Modelling a builder does not look at the log. -/
theorem BuilderModel.appends_ofElement? (builder value : TypeElement) (set : PropertySet) :
    Reporting.Appends (BuilderModel.ofElement? builder value set) := by
  refine (Reporting.appends_foldlM (BuilderParts.appends_add _ _ set) _ _).bind fun parts => ?_
  cases parts.finalizeMethod with
  | none => exact (Reporting.appends_report _ _ _).bind fun _ => Reporting.appends_pure _
  | some _ => exact (Reporting.appends_ofExcept _).bind fun _ => Reporting.appends_pure _

/-- Modelling a value class does not look at the log. -/
theorem ClassModel.appends_ofElement? (element : TypeElement) (enumChildren : List String) :
    Reporting.Appends (ClassModel.ofElement? element enumChildren) := by
  refine (Reporting.appends_ofExcept _).bind fun properties =>
    (Reporting.appends_ofExcept _).bind fun selfType => ?_
  cases element.nestedTypes.find? (·.isBuilder) with
  | none => exact (Reporting.appends_ofExcept _).bind fun _ => Reporting.appends_pure _
  | some b =>
    refine (BuilderModel.appends_ofElement? b element properties).bind fun builder => ?_
    cases builder with
    | none => exact Reporting.appends_pure _
    | some _ => exact (Reporting.appends_ofExcept _).bind fun _ => Reporting.appends_pure _

end DataClassGen
