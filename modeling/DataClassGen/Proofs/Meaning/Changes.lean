import DataClassGen.Proofs.Meaning.Builders

/-!
# Changed values

A function that changes one property of a value goes through the builder, if there is one with a
setter of that property: the builder takes over all values, the setter replaces one, and the new
value is built from them (`builders_keep_values`).

What can go wrong is in the setter. Its parameter is named as in the method it comes from, and the
fields that it looks at to see whether the property has been given a builder of its own are named
without the object they belong to. So a parameter of such a name stands in the place of the field
(`Carries`).
-/

namespace DataClassGen.Meaning

open Source

section Setters

variable {α : Type} {P : Program α} {c : ClassModel} {b : BuilderModel} {p : BuilderProperty}
  {f s : Function} {heap : Heap α} {k depth : Nat} {o : Object α} {values : String → Value α}
  {v w : Value α} {locals : List (String × Value α)} {steps : List Step}

/-! ### Setters -/

/-- None of these names stands in the place of a field that a setter looks at, or it stands for null
there. -/
def LeavesFields (p : BuilderProperty) (locals : List (String × Value α)) : Prop :=
  ∀ s, p.guarded? = some s → locals.lookup (SubBuilder.flagName p.name) = none ∧
    ∀ u, locals.lookup s.fieldName = some u → u = .null

/-- A setter of a property that is called with `v` sets it to `w`. -/
def Passes (p : BuilderProperty) (f : Function) (v w : Value α) : Prop :=
  ∃ q locals, f.parameters.head? = some q ∧ bind? f.parameters [v] = some locals ∧
    locals.lookup q.name = some w ∧ LeavesFields p locals

/-- A setter of a property sets it to the value it is called with. -/
def Carries (p : BuilderProperty) (f : Function) (v : Value α) : Prop := Passes p f v v

theorem bind?_single {q : Parameter} (hq : f.parameters = [q]) (hvariadic : isVariadic f = false) :
    bind? f.parameters [v] = some [(q.name, v)] := by
  have hvararg : q.modifiers.contains .vararg = false := by
    rw [isVariadic, hq] at hvariadic
    simpa using hvariadic
  rw [hq, bind?, hvararg]
  rfl

/-- A setter with one parameter carries a value if this parameter is not named as the fields. -/
theorem carries_iff {q : Parameter} (hq : f.parameters = [q])
    (hvariadic : isVariadic f = false) : Carries p f v ↔
      ∀ s, p.guarded? = some s → q.name ≠ SubBuilder.flagName p.name ∧
        (q.name = s.fieldName → v = .null) := by
  have hbind : bind? f.parameters [v] = some [(q.name, v)] := bind?_single hq hvariadic
  have hfree : LeavesFields p [(q.name, v)] ↔ ∀ s, p.guarded? = some s →
      q.name ≠ SubBuilder.flagName p.name ∧ (q.name = s.fieldName → v = .null) := by
    refine forall₂_congr fun s _ => ?_
    rw [lookup_single, lookup_single]
    simp
  rw [← hfree]
  constructor
  · rintro ⟨_, locals, -, hlocals, -, hfields⟩
    obtain rfl := Option.some.inj (hlocals.symm.trans hbind)
    exact hfields
  · intro hfields
    exact ⟨q, _, by rw [hq]; rfl, hbind, by simp, hfields⟩

/-- The first parameter has the first of the values, or all of them. -/
theorem lookup_of_bind? {q : Parameter} {qs : List Parameter}
    (h : bind? (q :: qs) [v] = some locals) :
    locals.lookup q.name = some v ∨ locals.lookup q.name = some (.several [v]) := by
  rw [bind?] at h
  split at h
  · split at h
    · obtain rfl := Option.some.inj h
      right
      simp
    · cases h
  · obtain ⟨rest, -, rfl⟩ := Option.map_eq_some_iff.mp h
    left
    simp

/-- Where the parameters leave the fields alone, the guards of a setter pass. -/
theorem guardSteps_pass (P : Program α)
    (send : Value α → String → List (Value α) → Run α (Value α)) (hb : b.IsFor c.properties)
    (hnames : ∀ p ∈ b.properties, p.name ∉ generatedNames b) (hp : p ∈ b.properties)
    (ho : heap[k]? = some o) (hbuilder : IsBuilder c b values o) (hfree : LeavesFields p locals)
    (steps : List Step) :
    ∃ o', IsBuilder c b values o' ∧
      runSteps P send ⟨.object k, locals⟩ (guardSteps p ++ steps) heap =
        runSteps P send ⟨.object k, locals⟩ steps (heap.set k o') := by
  obtain ⟨hk, hget⟩ := List.getElem?_eq_some_iff.mp ho
  rw [guardSteps]
  cases hs : p.guarded? with
  | none =>
    refine ⟨o, hbuilder, ?_⟩
    rw [← hget, List.set_getElem_self]
    rfl
  | some s =>
    obtain ⟨hflag, hfield⟩ := hfree s hs
    have hsub := subBuilder_of_guarded hs
    have hnull : Gives (Scope.find ⟨.object k, locals⟩ s.fieldName) heap .null heap := by
      cases hlocal : locals.lookup s.fieldName with
      | none => exact gives_ownField rfl hlocal ho (hbuilder.builders p hp s hsub)
      | some u => exact gives_local (hlocal.trans (congrArg some (hfield u hlocal)))
    have htrue : Gives (Expr.eval P send ⟨.object k, locals⟩ (.value (.truth true) [])) heap
        (.truth true) heap :=
      gives_value (by rw [Head.eval]; exact gives_pure) gives_noSuffixes
    have hassign : Gives (Action.run P send ⟨.object k, locals⟩
        (.assign false (SubBuilder.flagName p.name) (.value (.truth true) []))) heap ()
          (heap.set k (o.set (SubBuilder.flagName p.name) (.truth true))) := by
      rw [Action.run]
      refine htrue.bind ?_
      rw [Scope.assign, hflag]
      exact gives_writeField ho (hbuilder.flags p hp (by rw [hs]; rfl))
    refine ⟨_, hbuilder.set_flag hb hnames hp hs (.truth true), ?_⟩
    simp only [List.cons_append, List.nil_append]
    rw [runSteps, hnull.bind_eq, Value.isNull, if_pos rfl, runSteps, hassign.bind_eq]

/-- Where one does not, they do not. -/
theorem guardSteps_stop {send : Value α → String → List (Value α) → Run α (Value α)}
    (hp : p ∈ b.properties) (ho : heap[k]? = some o) (hbuilder : IsBuilder c b values o)
    (hbound : ¬ LeavesFields p locals) (steps : List Step) :
    Fails (runSteps P send ⟨.object k, locals⟩ (guardSteps p ++ steps)) heap := by
  rw [LeavesFields] at hbound
  push Not at hbound
  obtain ⟨s, hs, hbound⟩ := hbound
  rw [guardSteps, hs]
  simp only [List.cons_append, List.nil_append]
  have hstop {u : Value α} (hu : locals.lookup s.fieldName = some u) (hne : u ≠ .null) :
      Fails (runSteps P send ⟨.object k, locals⟩ (.requireNull s.fieldName
        ("Cannot set " ++ p.name ++ " after calling " ++ s.accessor.name ++ "()") ::
          .act (.assign false (SubBuilder.flagName p.name) (.value (.truth true) [])) :: steps))
        heap := by
    rw [runSteps]
    refine (gives_local hu).bind_fails ?_
    rw [if_neg fun hnull => hne (Value.isNull_iff.mp hnull)]
    exact fails_failing _
  cases hflag : locals.lookup (SubBuilder.flagName p.name) with
  | none =>
    obtain ⟨u, hu, hne⟩ := hbound hflag
    exact hstop hu hne
  | some t =>
    -- the check may pass; then the parameter cannot be set
    have hassign : ∀ heap, Fails (Action.run P send ⟨.object k, locals⟩
        (.assign false (SubBuilder.flagName p.name) (.value (.truth true) []))) heap := by
      intro heap
      rw [Action.run]
      refine (gives_value (by rw [Head.eval]; exact gives_pure) gives_noSuffixes).bind_fails ?_
      rw [Scope.assign, hflag]
      exact fails_failing _
    by_cases hnull : Gives (Scope.find ⟨.object k, locals⟩ s.fieldName) heap .null heap
    · rw [runSteps]
      refine hnull.bind_fails ?_
      rw [Value.isNull, if_pos rfl, runSteps]
      exact (hassign heap).bind _
    · cases hlocal : locals.lookup s.fieldName with
      | none =>
        exact absurd (gives_ownField rfl hlocal ho
          (hbuilder.builders p hp s (subBuilder_of_guarded hs))) hnull
      | some u =>
        refine hstop hlocal fun hu => hnull (gives_local ?_)
        rw [hlocal, hu]

variable (depth) in
/-- A setter that passes a value on changes its property to that, and gives its builder back. -/
theorem gives_setter (hb : b.IsFor c.properties)
    (hnames : ∀ p ∈ b.properties, p.name ∉ generatedNames b) (hp : p ∈ b.properties)
    (hbody : s.body = []) (ho : heap[k]? = some o) (hbuilder : IsBuilder c b values o)
    (h : Passes p (p.setterFunction s) v w) :
    ∃ o', IsBuilder c b (Function.update values p.name w) o' ∧
      Gives (P.run (depth + 1) (p.setterFunction s) (.object k) [v]) heap (.object k)
        (heap.set k o') := by
  obtain ⟨q, locals, hq, hbind, hw, hfree⟩ := h
  obtain ⟨o₁, hbuilder₁, hguards⟩ := guardSteps_pass P (P.send depth) hb hnames hp ho hbuilder
    hfree [settingStep p s]
  obtain ⟨hk, -⟩ := List.getElem?_eq_some_iff.mp ho
  have ho₁ : (heap.set k o₁)[k]? = some o₁ := List.getElem?_set_self hk
  refine ⟨_, hbuilder₁.set_value hnames hp w,
    gives_run hbind (stepsOf?_setterFunction p hbody) (hguards.trans ?_)⟩
  have hq : s.parameters.head? = some q := hq
  have hassign : Gives (Action.run P (P.send depth) ⟨.object k, locals⟩
      (.assign true p.name (named q.name))) (heap.set k o₁) ()
        (heap.set k (o₁.set p.name w)) := by
    rw [Action.run]
    have hwritten : Gives (writeField (.object k) p.name w) (heap.set k o₁) ()
        ((heap.set k o₁).set k (o₁.set p.name w)) :=
      gives_writeField ho₁ (by rw [hbuilder₁.values p hp]; rfl)
    rw [List.set_set] at hwritten
    exact (gives_named (gives_local hw)).bind hwritten
  rw [settingStep, hq]
  refine gives_giveBack (gives_value ?_ gives_noSuffixes)
  rw [Head.eval]
  exact hassign.bind gives_pure

/-- A setter that does not pass its value on gives nothing back. -/
theorem fails_setter (hp : p ∈ b.properties)
    (hbody : s.body = []) (ho : heap[k]? = some o) (hbuilder : IsBuilder c b values o)
    (h : ∀ w, ¬ Passes p (p.setterFunction s) v w) :
    Fails (P.run (depth + 1) (p.setterFunction s) (.object k) [v]) heap := by
  cases hbind : bind? (p.setterFunction s).parameters [v] with
  | none =>
    rw [Program.run, hbind]
    exact (fails_failing _).bind _
  | some locals =>
    refine fails_run hbind (stepsOf?_setterFunction p hbody)
      (guardSteps_stop hp ho hbuilder (fun hfree => ?_) _)
    cases hq : (p.setterFunction s).parameters with
    | nil =>
      rw [hq] at hbind
      cases hbind
    | cons q qs =>
      obtain hw | hw := lookup_of_bind? (hq ▸ hbind)
      · exact h _ ⟨q, locals, by rw [hq]; rfl, hbind, hw, hfree⟩
      · exact h _ ⟨q, locals, by rw [hq]; rfl, hbind, hw, hfree⟩

/-- A value is passed on as it is, or as one of several. -/
theorem Passes.eq (h : Passes p f v w) : w = v ∨ w = .several [v] := by
  obtain ⟨q, locals, hq, hbind, hw, -⟩ := h
  cases hparameters : f.parameters with
  | nil =>
    rw [hparameters] at hq
    cases hq
  | cons q' qs =>
    rw [hparameters] at hq hbind
    obtain rfl := Option.some.inj hq
    obtain hv | hv := lookup_of_bind? hbind
    · exact Or.inl (Option.some.inj (hw.symm.trans hv))
    · exact Or.inr (Option.some.inj (hw.symm.trans hv))

end Setters

/-! ### New values -/

section New

variable {α : Type} {c : ClassModel} {heap : Heap α} {m : Run α (Value α)} {o o' : Object α}
  {values : String → Value α}

/-- The run gives an object like this, and the objects that there were are as before. -/
def GivesNew (m : Run α (Value α)) (heap : Heap α) (o : Object α) : Prop :=
  ∃ a created, Gives m heap (.object a) (heap ++ created) ∧ (heap ++ created)[a]? = some o

theorem GivesNew.unique (h : GivesNew m heap o) (h' : GivesNew m heap o') : o = o' := by
  obtain ⟨a, created, hgives, ho⟩ := h
  obtain ⟨a', created', hgives', ho'⟩ := h'
  obtain ⟨haddress, hheap⟩ := hgives.unique hgives'
  rw [hheap, Value.object.inj haddress, ho'] at ho
  exact (Option.some.inj ho).symm

theorem Fails.not_givesNew (h : Fails m heap) : ¬ GivesNew m heap o := by
  rintro ⟨a, created, hgives, -⟩
  exact h.not_gives hgives

/-- Objects that differ in the value of a property only are alike if these values are. -/
theorem eq_of_instanceOf_update {p : ValueProperty} (hp : p ∈ c.properties.properties)
    {v w : Value α} (h : instanceOf c (Function.update values p.name v) =
      instanceOf c (Function.update values p.name w)) : v = w := by
  have hlookup (u : Value α) :
      (instanceOf c (Function.update values p.name u)).fields.lookup p.name = some u :=
    (lookup_map_of_mem ValueProperty.name _ hp).trans (congrArg some (Function.update_self ..))
  have heq := congrArg (fun o => o.fields.lookup p.name) h
  simp only [hlookup] at heq
  exact Option.some.inj heq

end New

/-! ### From a value to a builder and back -/

section Keeping

variable {α : Type} {P : Program α} {c : ClassModel} {d decl : TypeDecl} {b : BuilderModel}
  {bp : BuilderProperty} {p : ValueProperty} {f g : Function} {heap : Heap α} {a depth : Nat}
  {values : String → Value α} {v : Value α}

/-- Values of the properties of a class that may be null only where the type says so. -/
def Fit (c : ClassModel) (values : String → Value α) : Prop :=
  ∀ p ∈ c.properties.properties, p.type.isNullable = false → values p.name ≠ .null

theorem Fit.builder (h : Fit c values) (hb : b.IsFor c.properties) :
    ∀ p ∈ b.properties, p.type.isNullable = false → values p.name ≠ .null := by
  intro p hp hneeded
  have hmem : (p.name, p.type) ∈ b.properties.map fun p => (p.name, p.type) :=
    List.mem_map_of_mem hp
  rw [hb.properties] at hmem
  obtain ⟨q, hq, hpair⟩ := List.mem_map.mp hmem
  obtain ⟨hname, htype⟩ := Prod.mk.inj hpair
  rw [← hname]
  exact h q hq (htype ▸ hneeded)

theorem Fit.update (h : Fit c values) (hdistinct : (c.properties.properties.map (·.name)).Nodup)
    (hp : p ∈ c.properties.properties) (hv : p.type.isNullable = false → v ≠ .null) :
    Fit c (Function.update values p.name v) := by
  intro q hq hneeded
  by_cases hname : q.name = p.name
  · obtain rfl := List.inj_on_of_nodup_map hdistinct hq hp hname
    rw [Function.update_self]
    exact hv hneeded
  · rw [Function.update_of_ne hname]
    exact h q hq hneeded

variable (P depth) in
/-- A function that gives the builder that a value came from gives one with the same values. -/
theorem gives_toBuilder (h : Declares P c d) (hcb : c.builder = some b) (hb : b.IsFor c.properties)
    (hnames : ∀ p ∈ b.properties, p.name ∉ generatedNames b) (hf : f ∈ c.toBuilders)
    (hbody : f.body = [.code (c.builderFromProperties b)]) (hparameters : f.parameters = [])
    (ho : heap[a]? = some (instanceOf c values)) :
    ∃ o, IsBuilder c b values o ∧
      Gives (P.send (depth + 1) (.object a) f.name []) heap (.object heap.length) (heap ++ [o]) := by
  obtain ⟨decl, hdecl, hclass, -⟩ := h.builder hcb
  obtain ⟨-, -, htoBuilders, -⟩ := ClassModel.toDeclaration_spec h.toDeclaration
  obtain ⟨o, hbuilder, hgives⟩ := gives_builderHead P (P.send depth) ⟨.object a, []⟩ hb hnames hdecl
    hclass false rfl (Or.inr rfl) ho
  have hsteps : stepsOf? f = some [.giveBack (.value (builderHead c b false) [])] :=
    stepsOf?_eq (by rw [hbody]; rfl) (ofCode?_builderFromProperties c b)
  refine ⟨o, hbuilder, (send_eq ho h.self
    (resolve_of_isClear (h.clear f hf) (htoBuilders f hf) rfl hparameters)).trans ?_⟩
  exact gives_run (by rw [hparameters]; rfl) hsteps
    (gives_giveBack (gives_value hgives gives_noSuffixes))

/-- What a call leads to is a function of that name that takes something, if it is given something. -/
theorem mem_of_resolve {name : String} (h : P.resolve decl name 1 = some f) :
    f ∈ decl.functions ∧ f.name = name ∧ f.parameters ≠ [] := by
  rw [Program.resolve] at h
  split at h
  · have hf := P.pick_mem h
    simp only [List.mem_filter, Bool.and_eq_true, beq_iff_eq] at hf
    refine ⟨hf.1.1, hf.1.2, fun hnil => ?_⟩
    simp [isVariadic, hnil] at hf
  · have hf := P.pick_mem h
    simp only [List.mem_filter, Bool.and_eq_true, beq_iff_eq] at hf
    refine ⟨hf.1.1, hf.1.2, fun hnil => ?_⟩
    simp [hnil] at hf

/-- A call with one value leads somewhere, if a function of that name has one parameter. -/
theorem resolve_isSome {name : String} (hf : f ∈ decl.functions) (hname : f.name = name)
    (hparameters : f.parameters.length = 1) : (P.resolve decl name 1).isSome = true := by
  have hnamed : f ∈ decl.functions.filter (·.name == name) :=
    List.mem_filter.mpr ⟨hf, by simp [hname]⟩
  rw [Program.resolve]
  split
  · next hempty =>
    refine P.pick_isSome (List.ne_nil_of_mem (List.mem_filter.mpr ⟨hnamed, ?_⟩))
    have hvariadic : isVariadic f = true := by
      by_contra hnot
      have hmem : f ∈ (decl.functions.filter (·.name == name)).filter fun f =>
          !isVariadic f && f.parameters.length == 1 :=
        List.mem_filter.mpr ⟨hnamed, by simp [hnot, hparameters]⟩
      rw [List.isEmpty_iff.mp hempty] at hmem
      cases hmem
    simp [hvariadic, hparameters]
  · next hsome =>
    refine P.pick_isSome fun hnil => hsome ?_
    rw [List.isEmpty_iff]
    exact hnil

/-- What the setter is given goes through the builder. -/
theorem settingSuffixes_eq {send : Value α → String → List (Value α) → Run α (Value α)}
    {sc : Scope α} {u : Value α} {property setter : String}
    (hlocal : sc.locals.lookup property = some v) :
    Suffix.evalAll P send sc u (settingSuffixes b property setter) heap =
      (send u setter [v] >>= fun u =>
        Suffix.evalAll P send sc u [.send false b.buildCall []]) heap := by
  rw [settingSuffixes, Suffix.evalAll, Suffix.eval, Bool.false_and, if_neg Bool.false_ne_true]
  rw [bind_assoc, (gives_oneArgument (gives_local hlocal)).bind_eq]
  rfl

variable (depth) in
/-- The call that finishes a value. -/
theorem gives_buildCall (sc : Scope α) (h : Declares P c d) (hcb : c.builder = some b)
    (hb : b.IsFor c.properties) {o : Object α} {k : Nat} (ho : heap[k]? = some o)
    (hbuilder : IsBuilder c b values o) (hvalues : Fit c values) :
    Gives (Suffix.evalAll P (P.send (depth + 2)) sc (.object k) [.send false b.buildCall []]) heap
      (.object heap.length) (heap ++ [instanceOf c values]) := by
  rw [Suffix.evalAll, Suffix.eval, Bool.false_and, if_neg Bool.false_ne_true, Argument.evalAll]
  refine (gives_pure.bind ((gives_orStuck rfl).bind ?_)).bind gives_noSuffixes
  exact gives_build depth h hcb hb ho hbuilder (hvalues.builder hb)

/-- A function with one step gives what its expression gives. -/
theorem run_giveBack {self : Value α} {args : List (Value α)} {locals : List (String × Value α)}
    {e : Expr} (hbind : bind? g.parameters args = some locals)
    (hsteps : stepsOf? g = some [.giveBack e]) :
    P.run (depth + 1) g self args heap = e.eval P (P.send depth) ⟨self, locals⟩ heap := by
  rw [Program.run, (gives_orStuck hbind).bind_eq, (gives_orStuck hsteps).bind_eq, runSteps,
    bind_assoc]
  exact congrFun (bind_pure (e.eval P (P.send depth) ⟨self, locals⟩)) heap

/-- A function that starts from a builder, sets one property and builds the new value does so by two
calls to the builder. -/
theorem run_chain {o : Object α} {property setter : String} {head : Head}
    (hbind : bind? g.parameters [v] = some [(property, v)])
    (hsteps : stepsOf? g = some [.giveBack (.value head (settingSuffixes b property setter))])
    (hhead : Gives (Head.eval P (P.send (depth + 2)) ⟨.object a, [(property, v)]⟩ head) heap
      (.object heap.length) (heap ++ [o])) :
    P.run (depth + 3) g (.object a) [v] heap =
      (P.send (depth + 2) (.object heap.length) setter [v] >>= fun u =>
        Suffix.evalAll P (P.send (depth + 2)) ⟨.object a, [(property, v)]⟩ u
          [.send false b.buildCall []]) (heap ++ [o]) := by
  rw [run_giveBack hbind hsteps, Expr.eval, hhead.bind_eq]
  exact settingSuffixes_eq (by simp)

/-- The setter that a call leads to. -/
theorem setter_of_resolve (h : Declares P c d) (hcb : c.builder = some b)
    (hb : b.IsFor c.properties) (hbp : bp ∈ b.properties) {s : Function} (hs : s ∈ bp.setters)
    (hclass : P.classes (c.builderClass b) = some decl) (hf : P.resolve decl s.name 1 = some f) :
    ∃ s' : Function, s'.body = [] ∧ f = bp.setterFunction s' := by
  obtain ⟨decl', hdecl', hclass', -⟩ := h.builder hcb
  obtain rfl := Option.some.inj (hclass.symm.trans hclass')
  obtain ⟨hmem, hname, hparameters⟩ := mem_of_resolve hf
  obtain ⟨bp', hbp', s', hs', rfl⟩ := BuilderModel.setter_of_mem_functions hb hdecl' hmem hparameters
  obtain rfl := hb.eq_of_setter hbp hbp' hs hs' hname.symm
  obtain ⟨i, hi⟩ := List.getElem?_of_mem hbp
  exact ⟨s', (hb.setters i bp hi s' hs').1, rfl⟩

/-- A function that starts from a builder with the values, sets one of them and builds the new value
gives that value exactly if the setter carries the one value. -/
theorem givesNew_iff_carries (h : Declares P c d) (hcb : c.builder = some b)
    (hb : b.IsFor c.properties) (hnames : ∀ p ∈ b.properties, p.name ∉ generatedNames b)
    (hvalues : Fit c values) (hdistinct : (c.properties.properties.map (·.name)).Nodup)
    (hp : p ∈ c.properties.properties) (hv : p.type.isNullable = false → v ≠ .null)
    (hbp : bp ∈ b.properties) (hname : bp.name = p.name) {s : Function} (hs : s ∈ bp.setters)
    (hclass : P.classes (c.builderClass b) = some decl) (hf : P.resolve decl s.name 1 = some f)
    {head : Head} {o : Object α} (hbuilder : IsBuilder c b values o)
    (hhead : Gives (Head.eval P (P.send (depth + 2)) ⟨.object a, [(p.name, v)]⟩ head) heap
      (.object heap.length) (heap ++ [o]))
    (hbind : bind? g.parameters [v] = some [(p.name, v)])
    (hsteps : stepsOf? g =
      some [.giveBack (.value head (settingSuffixes b p.name s.name))]) :
    GivesNew (P.run (depth + 3) g (.object a) [v]) heap
      (instanceOf c (Function.update values p.name v)) ↔ Carries bp f v := by
  have hget : (heap ++ [o])[heap.length]? = some o := by simp
  have hrun := run_chain hbind hsteps hhead
  have hsend : P.send (depth + 2) (.object heap.length) s.name [v] (heap ++ [o]) =
      P.run (depth + 2) f (.object heap.length) [v] (heap ++ [o]) :=
    send_eq hget (by rw [hbuilder.cls]; exact hclass) hf
  obtain ⟨s', hbody, rfl⟩ := setter_of_resolve h hcb hb hbp hs hclass hf
  have hpassed {w : Value α} (hw : Passes bp (bp.setterFunction s') v w)
      (hneeded : p.type.isNullable = false → w ≠ .null) :
      GivesNew (P.run (depth + 3) g (.object a) [v]) heap
        (instanceOf c (Function.update values p.name w)) := by
    obtain ⟨o', hbuilder', hset⟩ := gives_setter (depth + 1) hb hnames hbp hbody hget hbuilder hw
    rw [hname] at hbuilder'
    have hheap : (heap ++ [o]).set heap.length o' = heap ++ [o'] := by simp
    rw [hheap] at hset
    have hget' : (heap ++ [o'])[heap.length]? = some o' := by simp
    have hbuilt := gives_buildCall depth ⟨.object a, [(p.name, v)]⟩ h hcb hb hget' hbuilder'
      (hvalues.update hdistinct hp hneeded)
    rw [← List.append_cons] at hbuilt
    exact ⟨_, _, hrun.trans (Gives.bind (hsend.trans hset) hbuilt), by simp⟩
  constructor
  · intro hnew
    by_contra hnot
    by_cases hpasses : ∃ w, Passes bp (bp.setterFunction s') v w
    · -- the property is set to something else
      obtain ⟨w, hw⟩ := hpasses
      have hneeded : p.type.isNullable = false → w ≠ .null := by
        obtain rfl | rfl := hw.eq
        · exact hv
        · exact fun _ hnull => by cases hnull
      obtain rfl := eq_of_instanceOf_update hp (hnew.unique (hpassed hw hneeded))
      exact hnot hw
    · have hfails : Fails (P.send (depth + 2) (.object heap.length) s.name [v]) (heap ++ [o]) := by
        rw [Fails, hsend]
        exact fails_setter hbp hbody hget hbuilder (not_exists.mp hpasses)
      refine Fails.not_givesNew ?_ hnew
      rw [Fails, hrun]
      exact hfails.bind _
  · exact fun hcarries => hpassed hcarries hv

/-- A copy with one value changed. -/
theorem givesNew_copy (hp : p ∈ c.properties.properties) (ho : heap[a]? = some (instanceOf c values))
    (hbind : bind? g.parameters [v] = some [(p.name, v)])
    (hsteps : stepsOf? g =
      some [.giveBack (.value (.copy [.mk (some p.name) (named p.name)]) [])]) :
    GivesNew (P.run (depth + 1) g (.object a) [v]) heap
      (instanceOf c (Function.update values p.name v)) := by
  have hargs : Gives (Argument.evalAll P (P.send depth) ⟨.object a, [(p.name, v)]⟩
      [.mk (some p.name) (named p.name)]) heap [(some p.name, v)] heap :=
    gives_oneArgument (gives_local (by simp))
  have hmem : ([(p.name, v)].all fun arg =>
      ((instanceOf c values).fields.lookup arg.1).isSome) = true := by
    have hvalue := lookup_map_of_mem ValueProperty.name values hp
    simp only [List.all_cons, List.all_nil, Bool.and_true]
    exact (congrArg Option.isSome hvalue).trans rfl
  have hfields : (instanceOf c values).fields.map (fun field =>
      (field.1, ([(p.name, v)].lookup field.1).getD field.2)) =
        (instanceOf c (Function.update values p.name v)).fields := by
    rw [instanceOf, instanceOf, List.map_map]
    refine List.map_congr_left fun q _ => ?_
    by_cases hname : q.name = p.name
    · simp [hname]
    · simp [hname, List.lookup_cons, beq_false_of_ne hname, Function.update_of_ne]
  have hcopying : Gives (copying (.object a) [(some p.name, v)]) heap (.object heap.length)
      (heap ++ [instanceOf c (Function.update values p.name v)]) := by
    rw [copying]
    refine (gives_objectOf ho).bind ((gives_orStuck (b := [(p.name, v)]) rfl).bind ?_)
    rw [if_pos hmem, hfields]
    exact gives_allocate
  have hhead : Gives (Head.eval P (P.send depth) ⟨.object a, [(p.name, v)]⟩
      (.copy [.mk (some p.name) (named p.name)])) heap (.object heap.length)
        (heap ++ [instanceOf c (Function.update values p.name v)]) := by
    rw [Head.eval]
    exact hargs.bind hcopying
  exact ⟨heap.length, [instanceOf c (Function.update values p.name v)],
    (run_giveBack hbind hsteps).trans (gives_value hhead gives_noSuffixes), by simp⟩

end Keeping

/-! ### All functions of a class -/

section All

variable {α : Type} {P : Program α} {c : ClassModel} {d : TypeDecl} {heap : Heap α} {a : Nat}
  {values : String → Value α}

/-- The builder, what it has for the first property of this name, and the first setter of that. -/
def firstSetter? (c : ClassModel) (property : String) :
    Option (BuilderModel × BuilderProperty × Function) := do
  let b ← c.builder
  let p ← b.properties.find? (·.name == property)
  let s ← p.setters.head?
  some (b, p, s)

/-- The setter that is called with one value to change a property, and what the builder has for
that property. -/
def Program.setter? (P : Program α) (c : ClassModel) (property : String) :
    Option (BuilderProperty × Function) := do
  let (b, p, s) ← firstSetter? c property
  let decl ← P.classes (c.builderClass b)
  let f ← P.resolve decl s.name 1
  some (p, f)

theorem firstSetter?_spec {property : String} {b : BuilderModel} {bp : BuilderProperty} {s : Function}
    (h : firstSetter? c property = some (b, bp, s)) :
    c.builder = some b ∧ bp ∈ b.properties ∧ bp.name = property ∧ s ∈ bp.setters ∧
      b.setterName? property = some s.name := by
  obtain ⟨b', hb, h⟩ := Option.bind_eq_some_iff.mp h
  obtain ⟨bp', hbp, h⟩ := Option.bind_eq_some_iff.mp h
  obtain ⟨s', hs, h⟩ := Option.bind_eq_some_iff.mp h
  obtain ⟨rfl, hpair⟩ := Prod.mk.inj (Option.some.inj h)
  obtain ⟨rfl, rfl⟩ := Prod.mk.inj hpair
  have hname := List.find?_some hbp
  refine ⟨hb, List.mem_of_find?_eq_some hbp, beq_iff_eq.mp hname, List.mem_of_head? hs, ?_⟩
  rw [BuilderModel.setterName?, hbp, Option.bind_some, hs]
  rfl

/-- Without a setter, a changed value is a copy. -/
theorem witherStep_of_none {property : String} (h : firstSetter? c property = none) :
    witherStep c property = .giveBack (.value (.copy [.mk (some property) (named property)]) []) := by
  rw [witherStep]
  cases hb : c.builder with
  | none => rfl
  | some b =>
    have hnone : b.setterName? property = none := by
      cases hname : b.setterName? property with
      | none => rfl
      | some n =>
        obtain ⟨bp, hbp, hname⟩ := Option.bind_eq_some_iff.mp hname
        obtain ⟨s, hs, -⟩ := Option.map_eq_some_iff.mp hname
        rw [firstSetter?, hb, Option.bind_eq_bind, Option.bind_some, hbp] at h
        rw [Option.bind_eq_bind, Option.bind_some, hs] at h
        cases h
    simp only [hnone]

/-- With a setter, a changed value comes from a builder. -/
theorem witherStep_of_some (h : Declares P c d)
    (hfunctions : ∀ b, c.builder = some b → b.IsFor c.properties)
    (htoBuilders : ∀ f ∈ c.toBuilders, ∃ b, c.builder = some b ∧
      f.body = [.code (c.builderFromProperties b)] ∧ f.parameters = [])
    (hnames : ∀ b, c.builder = some b → ∀ p ∈ b.properties, p.name ∉ generatedNames b)
    (ho : heap[a]? = some (instanceOf c values)) {property : String} {b : BuilderModel}
    {bp : BuilderProperty} {s : Function} (hs : firstSetter? c property = some (b, bp, s))
    (v : Value α) (depth : Nat) :
    ∃ head o, witherStep c property = .giveBack (.value head (settingSuffixes b property s.name)) ∧
      IsBuilder c b values o ∧
      Gives (Head.eval P (P.send (depth + 1)) ⟨.object a, [(property, v)]⟩ head) heap
        (.object heap.length) (heap ++ [o]) := by
  obtain ⟨hcb, -, -, -, hname⟩ := firstSetter?_spec hs
  rw [witherStep]
  simp only [hcb, hname]
  cases hplain : c.plainToBuilder? with
  | none =>
    obtain ⟨decl, hdecl, hclass, -⟩ := h.builder hcb
    obtain ⟨o, hbuilder, hgives⟩ := gives_builderHead P (P.send (depth + 1))
      ⟨.object a, [(property, v)]⟩ (hfunctions b hcb) (hnames b hcb) hdecl hclass true rfl (Or.inl rfl)
      ho
    exact ⟨_, o, rfl, hbuilder, hgives⟩
  | some f =>
    have hf := List.mem_of_find?_eq_some hplain
    obtain ⟨b', hcb', hbody, hparameters⟩ := htoBuilders f hf
    obtain rfl := Option.some.inj (hcb.symm.trans hcb')
    obtain ⟨o, hbuilder, hgives⟩ := gives_toBuilder P depth h hcb (hfunctions b hcb) (hnames b hcb) hf
      hbody hparameters ho
    exact ⟨_, o, rfl, hbuilder, gives_call hgives⟩

/-- A builder that comes from a value builds that value again. A function that changes a property
gives the value with this property changed and all others as they were, however it goes about it;
if it uses a setter, it does so exactly if the setter carries the value. -/
theorem builders_keep_values {e : TypeElement} {enumChildren : List String} {log log' : Log}
    (hmodel : (ClassModel.ofElement? e enumChildren).runOn log = (.ok (some c), log'))
    (hdeclares : Declares P c d) (hdistinct : (c.properties.properties.map (·.name)).Nodup)
    (hnames : ∀ b, c.builder = some b → ∀ p ∈ c.properties.properties, p.name ∉ generatedNames b)
    (ho : heap[a]? = some (instanceOf c values)) (hvalues : Fit c values) (depth : Nat) :
    (∀ f ∈ c.toBuilders, ∃ b, c.builder = some b ∧
      GivesNew (P.send (depth + 2) (.object a) f.name [] >>= fun builder =>
        P.send (depth + 2) builder b.buildCall []) heap (instanceOf c values)) ∧
    ∀ w ∈ c.withers, ∃ p ∈ c.properties.properties,
      w.parameters = [{ name := p.name, type := p.type }] ∧
      ∀ v, (p.type.isNullable = false → v ≠ .null) →
        (∀ b bp s, firstSetter? c p.name = some (b, bp, s) → s.parameters.length = 1) →
        (GivesNew (P.run (depth + 3) w (.object a) [v]) heap
            (instanceOf c (Function.update values p.name v)) ↔
          ∀ bp f, P.setter? c p.name = some (bp, f) → Carries bp f v) := by
  obtain ⟨hfunctions, htoBuilders, hwithers⟩ := ClassModel.functions_of_ofElement? hmodel
  have hnames : ∀ b, c.builder = some b → ∀ p ∈ b.properties, p.name ∉ generatedNames b := by
    intro b hb p hp
    have hmem : p.name ∈ b.properties.map (·.name) := List.mem_map_of_mem hp
    rw [(hfunctions b hb).names] at hmem
    obtain ⟨q, hq, heq⟩ := List.mem_map.mp hmem
    exact heq ▸ hnames b hb q hq
  refine ⟨fun f hf => ?_, fun w hw => ?_⟩
  · obtain ⟨b, hcb, hbody, hparameters⟩ := htoBuilders f hf
    have hb := hfunctions b hcb
    obtain ⟨o, hbuilder, hgives⟩ := gives_toBuilder P (depth + 1) hdeclares hcb hb (hnames b hcb) hf
      hbody hparameters ho
    have hget : (heap ++ [o])[heap.length]? = some o := by simp
    have hbuilt := gives_build depth hdeclares hcb hb hget hbuilder (hvalues.builder hb)
    rw [← List.append_cons] at hbuilt
    exact ⟨b, hcb, _, _, hgives.bind hbuilt, by simp⟩
  · obtain ⟨p, hp, name, selfType, rfl⟩ := hwithers w hw
    refine ⟨p, hp, rfl, fun v hv hone => ?_⟩
    have hbind : bind? (c.witherFor name p selfType).parameters [v] = some [(p.name, v)] := rfl
    have hsteps : stepsOf? (c.witherFor name p selfType) = some [witherStep c p.name] :=
      stepsOf?_eq rfl (ofCode?_witherBody c p.name)
    cases hsetter : firstSetter? c p.name with
    | none =>
      rw [witherStep_of_none hsetter] at hsteps
      refine iff_of_true (givesNew_copy hp ho hbind hsteps) fun bp f hf => ?_
      rw [Program.setter?, hsetter] at hf
      cases hf
    | some found =>
      obtain ⟨b, bp, s⟩ := found
      obtain ⟨hcb, hbp, hname, hs, -⟩ := firstSetter?_spec hsetter
      have hb := hfunctions b hcb
      obtain ⟨head, o, hstep, hbuilder, hhead⟩ := witherStep_of_some hdeclares
        hfunctions htoBuilders hnames ho hsetter v (depth + 1)
      rw [hstep] at hsteps
      -- the setter itself is among the functions that a call may lead to
      obtain ⟨decl, hdecl, hclass, -⟩ := hdeclares.builder hcb
      obtain ⟨zeros, -, -, -, -, -, hdeclared⟩ := BuilderModel.toDeclaration_spec hdecl
      have hmem : bp.setterFunction s ∈ decl.functions := by
        rw [hdeclared]
        simp only [List.mem_append, List.mem_flatMap]
        exact Or.inl (Or.inl (Or.inl ⟨bp, hbp, List.mem_append_left _ (List.mem_map_of_mem hs)⟩))
      obtain ⟨f, hf⟩ : ∃ f, P.resolve decl s.name 1 = some f :=
        Option.isSome_iff_exists.mp (resolve_isSome hmem rfl (hone b bp s hsetter))
      have hfound : P.setter? c p.name = some (bp, f) := by
        rw [Program.setter?, hsetter, Option.bind_eq_bind, Option.bind_some]
        simp only [hclass, hf, Option.bind_eq_bind, Option.bind_some]
      rw [givesNew_iff_carries hdeclares hcb hb (hnames b hcb) hvalues hdistinct hp hv hbp hname hs
        hclass hf hbuilder hhead hbind hsteps]
      constructor
      · intro hcarries bp' f' hfound'
        obtain ⟨rfl, rfl⟩ := Prod.mk.inj (Option.some.inj (hfound.symm.trans hfound'))
        exact hcarries
      · exact fun hall => hall bp f hfound

end All

/-! ### One class alone -/

namespace Program

variable {α : Type} {c : ClassModel} {d : TypeDecl}

/-- The program of one value class and its builder. Of several functions that a call fits, it leads
to the first. -/
def ofDeclaration (c : ClassModel) (d : TypeDecl) : Program α where
  classes cls :=
    if cls = c.cls then some d
    else d.types.find? fun t => t.kind == .classDecl && c.cls.nested t.name == cls
  pick := List.head?
  pick_mem := List.mem_of_head?
  pick_isSome := List.isSome_head?.mpr
  made _ _ := .null
  called _ _ _ := .null

theorem declares_ofDeclaration (h : c.toDeclaration = .ok d)
    (hclear : ∀ f ∈ c.toBuilders, IsClear d f.name)
    (hclearNested : ∀ b, c.builder = some b → ∀ t ∈ d.types, t.kind = .classDecl →
      IsClear t b.finalizeMethod.name ∧ IsClear t b.buildCall) :
    Declares (ofDeclaration c d : Program α) c d where
  toDeclaration := h
  self := if_pos rfl
  nested t ht hkind := by
    have hne : c.cls.nested t.name ≠ c.cls := fun heq => by
      have hlength := congrArg (fun cls => cls.simpleNames.length) heq
      simp [ClassName.nested] at hlength
    refine (if_neg hne).trans ?_
    -- there is one class at most
    obtain ⟨-, -, -, -, hclasses⟩ := ClassModel.toDeclaration_spec h
    obtain ⟨b, hb, hdecl⟩ := hclasses t ht hkind
    have hsome : (d.types.find? fun u =>
        u.kind == .classDecl && c.cls.nested u.name == c.cls.nested t.name).isSome = true :=
      List.find?_isSome.mpr ⟨t, ht, by simp [hkind]⟩
    obtain ⟨u, hu⟩ := Option.isSome_iff_exists.mp hsome
    have hukind := List.find?_some hu
    rw [Bool.and_eq_true, beq_iff_eq] at hukind
    obtain ⟨b', hb', hdecl'⟩ := hclasses u (List.mem_of_find?_eq_some hu) hukind.1
    obtain rfl := Option.some.inj (hb.symm.trans hb')
    rw [hu, Except.ok.inj (hdecl.symm.trans hdecl')]
  clear := hclear
  clearNested := hclearNested

end Program

/-- A value class whose builder gives access to a builder of one of its two properties; the setter
of that one has a parameter named as the field that keeps it. -/
def playlistElement : TypeElement :=
  let playlist : TypeUse := .declared "test.Playlist" []
  let builder : TypeUse := .declared "test.Playlist.Builder" []
  let strings : List TypeUse := [.declared "java.lang.String" []]
  let tracks : TypeUse := .declared "com.google.common.collect.ImmutableList" strings
  { qualifiedName := "test.Playlist"
    package := "test"
    annotations := [{ typeName := valueClassMarker }]
    methods := [
      { name := "rating", modifiers := [.abstract], returnType := .primitive .int },
      { name := "tracks", modifiers := [.abstract], returnType := tracks },
      { name := "toBuilder", modifiers := [.abstract], returnType := builder },
      { name := "withRating", modifiers := [.abstract], returnType := playlist,
        parameters := [{ name := "rating", type := .primitive .int }] },
      { name := "withTracks", modifiers := [.abstract], returnType := playlist,
        parameters := [{ name := "tracks", type := tracks }] }]
    nestedTypes := [{
      qualifiedName := "test.Playlist.Builder"
      package := "test"
      annotations := [{ typeName := builderMarker }]
      methods := [
        { name := "setRating", modifiers := [.abstract], returnType := builder,
          parameters := [{ name := "rating", type := .primitive .int }] },
        { name := "setTracks", modifiers := [.abstract], returnType := builder,
          parameters := [{ name := "_tracksBuilder", type := tracks }] },
        { name := "tracksBuilder", modifiers := [.abstract],
          returnType := .declared "com.google.common.collect.ImmutableList.Builder" strings },
        { name := "build", modifiers := [.abstract], returnType := playlist }] }] }

/-- The model of a class, and its declaration. -/
def declared? (e : TypeElement) : Option (ClassModel × TypeDecl) :=
  match (ClassModel.ofElement? e []).runOn [] with
  | (.ok (some model), _) =>
    match model.toDeclaration with
    | .ok d => some (model, d)
    | .error _ => none
  | _ => none

theorem declared?_spec {e : TypeElement} {model : ClassModel} {d : TypeDecl}
    (h : declared? e = some (model, d)) :
    (∃ log, (ClassModel.ofElement? e []).runOn [] = (.ok (some model), log)) ∧
      model.toDeclaration = .ok d := by
  rw [declared?] at h
  split at h
  · next c log hmodel =>
    split at h
    · next d' hdecl =>
      obtain ⟨rfl, rfl⟩ := Prod.mk.inj (Option.some.inj h)
      exact ⟨⟨log, hmodel⟩, hdecl⟩
    · cases h
  · cases h

/-- What comes from an instance builds it again, and one of the two functions that change a property
does so; the other fails, since the check looks at the parameter. -/
theorem playlists_keep_values : ∃ model d, declared? playlistElement = some (model, d) ∧
    model.toBuilders.map (·.name) = ["toBuilder"] ∧
    model.withers.map (·.name) = ["withRating", "withTracks"] ∧
    let P : Program Nat := .ofDeclaration model d
    let heap := [instanceOf model fun _ => .foreign 0]
    (∀ f ∈ model.toBuilders, ∃ b, model.builder = some b ∧
      GivesNew (P.send 2 (.object 0) f.name [] >>= fun builder => P.send 2 builder b.buildCall [])
        heap (instanceOf model fun _ => .foreign 0)) ∧
    ∀ w ∈ model.withers, ∃ n, w.parameters.map (·.name) = [n] ∧
      (GivesNew (P.run 3 w (.object 0) [.foreign 1]) heap
        (instanceOf model (Function.update (fun _ => .foreign 0) n (.foreign 1))) ↔ n = "rating") := by
  have hsome : (declared? playlistElement).isSome = true := by decide +kernel
  have hfacts : ∀ r ∈ declared? playlistElement,
      r.1.properties.properties.map (·.name) = ["rating", "tracks"] ∧
      r.1.toBuilders.map (·.name) = ["toBuilder"] ∧
      r.1.withers.map (·.name) = ["withRating", "withTracks"] ∧
      (∀ b ∈ r.1.builder, generatedNames b = ["_tracksBuilder", "_tracksSet"]) ∧
      (∀ f ∈ r.1.toBuilders, IsClear r.2 f.name) ∧
      ∀ b ∈ r.1.builder, ∀ t ∈ r.2.types, t.kind = .classDecl →
        IsClear t b.finalizeMethod.name ∧ IsClear t b.buildCall := by
    decide +kernel
  have hsetters : ∀ r ∈ declared? playlistElement, ∀ n ∈ ["rating", "tracks"],
      (firstSetter? r.1 n).map (fun found => found.2.2.parameters.length) = some 1 ∧
      ((Program.ofDeclaration r.1 r.2 : Program Nat).setter? r.1 n).map (fun found =>
        (isVariadic found.2, found.2.parameters.map (·.name), found.1.guarded?.map (·.fieldName))) =
          some (if n = "tracks" then (false, ["_tracksBuilder"], some "_tracksBuilder")
            else (false, [n], none)) := by
    decide +kernel
  obtain ⟨⟨model, d⟩, hdeclared⟩ := Option.isSome_iff_exists.mp hsome
  obtain ⟨hproperties, htoBuilders, hwithers, hgenerated, hclear, hclearNested⟩ := hfacts _ hdeclared
  obtain ⟨⟨log, hmodel⟩, hdeclaration⟩ := declared?_spec hdeclared
  have hmem {p : ValueProperty} (hp : p ∈ model.properties.properties) :
      p.name ∈ ["rating", "tracks"] := hproperties ▸ List.mem_map_of_mem hp
  have hfree : ∀ n ∈ ["rating", "tracks"], n ∉ ["_tracksBuilder", "_tracksSet"] := by decide
  have hheap : ([instanceOf model fun _ => .foreign 0] : Heap Nat)[0]? =
      some (instanceOf model fun _ => .foreign 0) := rfl
  obtain ⟨hkept, hchanged⟩ := builders_keep_values (P := .ofDeclaration model d) hmodel
    (Program.declares_ofDeclaration hdeclaration hclear hclearNested)
    (by rw [hproperties]; decide)
    (fun b hb p hp => by rw [hgenerated b hb]; exact hfree p.name (hmem hp))
    hheap (fun _ _ _ hnull => by cases hnull) 0
  refine ⟨model, d, hdeclared, htoBuilders, hwithers, hkept, fun w hw => ?_⟩
  obtain ⟨p, hp, hparameters, hiff⟩ := hchanged w hw
  obtain ⟨hfirst, hsetter⟩ := hsetters _ hdeclared p.name (hmem hp)
  obtain ⟨⟨bp, f⟩, hfound, hsetter⟩ := Option.map_eq_some_iff.mp hsetter
  refine ⟨p.name, by rw [hparameters]; rfl, (hiff (.foreign 1) (fun _ hnull => by cases hnull)
    fun b bp s hs => ?_).trans ?_⟩
  · rw [hs] at hfirst
    exact Option.some.inj hfirst
  have hone : (∀ bp' f', (Program.ofDeclaration model d : Program Nat).setter? model p.name =
      some (bp', f') → Carries bp' f' (.foreign 1)) ↔ Carries bp f (.foreign 1 : Value Nat) := by
    simp [hfound]
  rw [hone]
  by_cases htracks : p.name = "tracks"
  · rw [if_pos htracks] at hsetter
    obtain ⟨hvariadic, hsetter⟩ := Prod.mk.inj hsetter
    obtain ⟨hnames, hguarded⟩ := Prod.mk.inj hsetter
    obtain ⟨q, hq, hname⟩ := List.map_eq_singleton_iff.mp hnames
    obtain ⟨s, hs, hfield⟩ := Option.map_eq_some_iff.mp hguarded
    rw [carries_iff hq hvariadic, htracks]
    refine iff_of_false (fun hall => ?_) (by decide)
    cases (hall s hs).2 (hname.trans hfield.symm)
  · rw [if_neg htracks] at hsetter
    obtain ⟨hvariadic, hsetter⟩ := Prod.mk.inj hsetter
    obtain ⟨hnames, hguarded⟩ := Prod.mk.inj hsetter
    obtain ⟨q, hq, -⟩ := List.map_eq_singleton_iff.mp hnames
    rw [carries_iff hq hvariadic, Option.map_eq_none_iff.mp hguarded]
    have hrating : p.name = "rating" := by simpa [htracks] using hmem hp
    exact iff_of_true (fun _ hs => by cases hs) hrating

end DataClassGen.Meaning
