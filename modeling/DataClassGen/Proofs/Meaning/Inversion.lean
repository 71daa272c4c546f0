import DataClassGen.Proofs.Meaning.Builders

/-!
# What a run has done

A run that gives a value has done something for it: for each kind of step and for some expressions,
it is shown here what the run did in between. These are equivalences, so that what a function needs
and what it leads to are known together. Steps that come to no value stop at one of them
(`exists_stop`).
-/

namespace DataClassGen.Meaning

/-! ### Steps -/

section Steps

variable {α : Type} {P : Program α} {send : Value α → String → List (Value α) → Run α (Value α)}
  {sc : Scope α} {heap heap' : Heap α} {n message : String} {r : Option (Value α)}
  {steps : List Step}

theorem runSteps_cons (step : Step) (steps : List Step) :
    runSteps P send sc (step :: steps) = runSteps P send sc [step] >>= fun r =>
      match r with
      | some v => pure (some v)
      | none => runSteps P send sc steps := by
  cases step with
  | giveBack e => simp [runSteps]
  | requireNull n message =>
    simp only [runSteps, bind_assoc]
    refine congrArg _ (funext fun v => ?_)
    split <;> rfl
  | requireNot n message =>
    simp only [runSteps, bind_assoc]
    refine congrArg _ (funext fun v => ?_)
    split <;> rfl
  | act a => simp [runSteps]

theorem gives_cons_iff {step : Step} :
    Gives (runSteps P send sc (step :: steps)) heap r heap' ↔
      (∃ v, r = some v ∧ Gives (runSteps P send sc [step]) heap (some v) heap') ∨
      ∃ heap₁, Gives (runSteps P send sc [step]) heap none heap₁ ∧
        Gives (runSteps P send sc steps) heap₁ r heap' := by
  rw [runSteps_cons, gives_bind_iff]
  constructor
  · rintro ⟨_ | v, heap₁, hstep, h⟩
    · exact Or.inr ⟨heap₁, hstep, h⟩
    · obtain ⟨rfl, rfl⟩ := gives_pure_iff.mp h
      exact Or.inl ⟨v, rfl, hstep⟩
  · rintro (⟨v, rfl, hstep⟩ | ⟨heap₁, hstep, h⟩)
    · exact ⟨some v, heap', hstep, gives_pure⟩
    · exact ⟨none, heap₁, hstep, h⟩

/-- A step that gives nothing back either stops or leads on to the next. -/
theorem gives_then_iff {step : Step} {Q : Prop} {heap₁ : Heap α}
    (hstep : ∀ {r heap'}, Gives (runSteps P send sc [step]) heap r heap' ↔
      r = none ∧ Q ∧ heap' = heap₁) :
    Gives (runSteps P send sc (step :: steps)) heap r heap' ↔
      Q ∧ Gives (runSteps P send sc steps) heap₁ r heap' := by
  rw [gives_cons_iff]
  constructor
  · rintro (⟨v, -, h⟩ | ⟨heap₂, h, hrest⟩)
    · cases (hstep.mp h).1
    · obtain ⟨-, hQ, rfl⟩ := hstep.mp h
      exact ⟨hQ, hrest⟩
  · exact fun ⟨hQ, hrest⟩ => Or.inr ⟨heap₁, hstep.mpr ⟨rfl, hQ, rfl⟩, hrest⟩

theorem gives_requireNull_iff : Gives (runSteps P send sc [.requireNull n message]) heap r heap' ↔
    r = none ∧ Gives (sc.find n) heap .null heap' := by
  simp only [runSteps, gives_bind_iff]
  constructor
  · rintro ⟨v, heap₁, hfind, h⟩
    split at h
    · next hnull =>
      obtain ⟨rfl, rfl⟩ := gives_pure_iff.mp h
      rw [← Value.isNull_iff.mp hnull]
      exact ⟨rfl, hfind⟩
    · exact absurd h (fails_failing _).not_gives
  · rintro ⟨rfl, hfind⟩
    exact ⟨.null, heap', hfind, gives_pure⟩

theorem gives_requireNot_iff : Gives (runSteps P send sc [.requireNot n message]) heap r heap' ↔
    r = none ∧ Gives (sc.find n) heap (.truth false) heap' := by
  simp only [runSteps, gives_bind_iff]
  constructor
  · rintro ⟨v, heap₁, hfind, h⟩
    split at h
    · obtain ⟨rfl, rfl⟩ := gives_pure_iff.mp h
      exact ⟨rfl, hfind⟩
    · exact absurd h (fails_failing _).not_gives
    · exact absurd h (fails_failing _).not_gives
  · rintro ⟨rfl, hfind⟩
    exact ⟨.truth false, heap', hfind, gives_pure⟩

theorem gives_act_iff {a : Action} : Gives (runSteps P send sc [.act a]) heap r heap' ↔
    r = none ∧ Gives (a.run P send sc) heap () heap' := by
  simp only [runSteps, gives_bind_iff, gives_pure_iff]
  constructor
  · rintro ⟨_, heap₁, h, rfl, rfl⟩
    exact ⟨rfl, h⟩
  · rintro ⟨rfl, h⟩
    exact ⟨(), heap', h, rfl, rfl⟩

theorem gives_giveBack_iff {e : Expr} : Gives (runSteps P send sc (.giveBack e :: steps)) heap r heap' ↔
    ∃ v, r = some v ∧ Gives (e.eval P send sc) heap v heap' := by
  simp only [runSteps, gives_bind_iff, gives_pure_iff]
  constructor
  · rintro ⟨v, heap₁, h, rfl, rfl⟩
    exact ⟨v, rfl, h⟩
  · rintro ⟨v, rfl, h⟩
    exact ⟨v, heap', h, rfl, rfl⟩

/-- Steps that end by giving something back give something or fail. -/
theorem isSome_of_gives_ending {e : Expr}
    (h : Gives (runSteps P send sc (steps ++ [.giveBack e])) heap r heap') : r.isSome = true := by
  induction steps generalizing heap with
  | nil =>
    obtain ⟨v, rfl, -⟩ := gives_giveBack_iff.mp h
    rfl
  | cons step steps ih =>
    obtain ⟨v, rfl, -⟩ | ⟨heap₁, -, h⟩ := gives_cons_iff.mp h
    · rfl
    · exact ih h

/-- Steps that come to no value stop at one of them. -/
theorem exists_stop (h : Fails (runSteps P send sc steps) heap) :
    ∃ before step after heap', steps = before ++ step :: after ∧
      Gives (runSteps P send sc before) heap none heap' ∧
      Fails (runSteps P send sc [step]) heap' := by
  induction steps generalizing heap with
  | nil => exact absurd gives_pure h.not_gives
  | cons step steps ih =>
    by_cases hstep : Fails (runSteps P send sc [step]) heap
    · exact ⟨[], step, steps, heap, rfl, gives_pure, hstep⟩
    rw [fails_iff] at hstep
    push Not at hstep
    obtain ⟨r, heap₁, hstep⟩ := hstep
    cases r with
    | some v => exact absurd (gives_cons_iff.mpr (Or.inl ⟨v, rfl, hstep⟩)) h.not_gives
    | none =>
      have hrest : Fails (runSteps P send sc steps) heap₁ := fails_iff.mpr fun r heap' hr =>
        h.not_gives (gives_cons_iff.mpr (Or.inr ⟨heap₁, hstep, hr⟩))
      obtain ⟨before, stop, after, heap', rfl, hbefore, hstop⟩ := ih hrest
      exact ⟨step :: before, stop, after, heap', rfl,
        gives_cons_iff.mpr (Or.inr ⟨heap₁, hstep, hbefore⟩), hstop⟩

end Steps

/-! ### Expressions and actions -/

section Expressions

variable {α : Type} {P : Program α} {send : Value α → String → List (Value α) → Run α (Value α)}
  {sc : Scope α} {heap heap' : Heap α} {v w : Value α} {n : String}

theorem eval_orElse {other : Expr} (h : Gives (sc.find n) heap v heap) :
    Expr.eval P send sc (.orElse (.name n) [] other) heap =
      if v.isNull then Expr.eval P send sc other heap else .ok (v, heap) := by
  rw [Expr.eval, Head.eval, h.bind_eq, Suffix.evalAll, gives_pure.bind_eq]
  split <;> rfl

theorem gives_also_iff {head : Head} {actions : List Action} :
    Gives (Expr.eval P send sc (.value head [.also n actions])) heap w heap' ↔
      ∃ heap₁, Gives (head.eval P send sc) heap w heap₁ ∧
        Gives (Action.runAll P send (sc.binding n w) actions) heap₁ () heap' := by
  simp only [Expr.eval, Suffix.evalAll, Suffix.eval, gives_bind_iff, gives_pure_iff]
  constructor
  · rintro ⟨v, heap₁, hhead, u, heap₂, ⟨_, heap₃, hactions, rfl, rfl⟩, rfl, rfl⟩
    exact ⟨heap₁, hhead, hactions⟩
  · rintro ⟨heap₁, hhead, hactions⟩
    exact ⟨w, heap₁, hhead, w, heap', ⟨(), heap', hactions, rfl, rfl⟩, rfl, rfl⟩

theorem gives_runAll_iff {a : Action} {actions : List Action} :
    Gives (Action.runAll P send sc (a :: actions)) heap () heap' ↔
      ∃ heap₁, Gives (a.run P send sc) heap () heap₁ ∧
        Gives (Action.runAll P send sc actions) heap₁ () heap' := by
  rw [Action.runAll, gives_bind_iff]
  exact ⟨fun ⟨_, heap₁, h⟩ => ⟨heap₁, h⟩, fun ⟨heap₁, h⟩ => ⟨(), heap₁, h⟩⟩

theorem gives_runAll_single_iff {a : Action} :
    Gives (Action.runAll P send sc [a]) heap () heap' ↔ Gives (a.run P send sc) heap () heap' := by
  rw [Action.runAll, Action.runAll, bind_pure_unit]

theorem gives_assign_iff {onSelf : Bool} {e : Expr} (h : Gives (e.eval P send sc) heap v heap) :
    Gives (Action.run P send sc (.assign onSelf n e)) heap () heap' ↔
      Gives (sc.assign onSelf n v) heap () heap' := by
  rw [Action.run, Gives, h.bind_eq]
  rfl

/-- A name that is no parameter is a field that can be set. -/
theorem gives_assignOwn_iff {k : Nat} {o : Object α} {locals : List (String × Value α)} {e : Expr}
    (hk : heap[k]? = some o) (hn : (o.fields.lookup n).isSome = true)
    (he : Gives (e.eval P send ⟨.object k, locals⟩) heap v heap) :
    Gives (Action.run P send ⟨.object k, locals⟩ (.assign false n e)) heap () heap' ↔
      locals.lookup n = none ∧ heap' = heap.set k (o.set n v) := by
  rw [gives_assign_iff he, Scope.assign]
  cases hlocal : locals.lookup n with
  | none =>
    have hwrite : Gives (writeField (.object k) n v) heap () heap' ↔
        () = () ∧ heap' = heap.set k (o.set n v) := (gives_writeField hk hn).iff
    simpa using hwrite
  | some u => simp [(fails_failing _).not_gives]

theorem evalAll_nil : (fun v => Suffix.evalAll P send sc v []) = pure :=
  funext fun v => by rw [Suffix.evalAll]

/-- Something is asked of a value that is there. -/
theorem evalAll_send {isSafe : Bool} {f : String} (hne : v ≠ .null) :
    Suffix.evalAll P send sc v [.send isSafe f []] = send v f [] := by
  have hpresent : ¬ (isSafe && v.isNull) = true := fun hnull =>
    hne (Value.isNull_iff.mp (Bool.and_eq_true_iff.mp hnull).2)
  rw [Suffix.evalAll, Suffix.eval, evalAll_nil, bind_pure, if_neg hpresent, Argument.evalAll]
  rfl

theorem eval_send {f m : String} (hw : Gives (sc.find n) heap w heap)
    (hv : Gives (sc.find m) heap v heap) :
    Expr.eval P send sc (.value (.name n) [.send false f [.mk none (named m)]]) heap =
      send w f [v] heap := by
  rw [Expr.eval, Head.eval, hw.bind_eq, Suffix.evalAll, Suffix.eval, Bool.false_and,
    if_neg Bool.false_ne_true, bind_assoc, (gives_oneArgument hv).bind_eq, evalAll_nil, bind_pure]
  rfl

end Expressions

end DataClassGen.Meaning
