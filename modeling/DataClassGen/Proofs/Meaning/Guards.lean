import DataClassGen.Proofs.Meaning.Inversion

/-!
# Guards of a builder

A property of a builder can be set, and it can have a builder of its own. Where it has both, each way
is guarded against the other: a setter checks that no builder of the property was given out, and then
notes that the property was set; the access to the builder checks this note. So three fields of the
object belong to such a property (`Holding`).

For each of the two kinds of functions it is shown when it gives something, and what it does to these
fields then (`gives_setter_iff`, `gives_access_iff`). Where a function fails, it has done nothing to
them (`kept_of_setter_stopsIn`, `kept_of_access_stopsIn`). What other classes do is left open
(`Surroundings`).
-/

namespace DataClassGen.Meaning

open Source

/-! ### One call -/

/-- What is left open when a function runs: the other classes, and what comes of calls. -/
structure Surroundings (α : Type) where
  program : Program α
  send : Value α → String → List (Value α) → Run α (Value α)

namespace Surroundings

variable {α : Type} (E : Surroundings α)

/-- The run of a function of the object at `k`. -/
def call (k : Nat) (f : Function) (args : List (Value α)) : Run α (Value α) := do
  let locals ← orStuck (bind? f.parameters args)
  let steps ← orStuck (stepsOf? f)
  let result ← runSteps E.program E.send ⟨.object k, locals⟩ steps
  orStuck result

/-- In a program, calls run less deep than the function that makes them. -/
theorem call_ofProgram (P : Program α) (depth k : Nat) (f : Function) (args : List (Value α)) :
    (⟨P, P.send depth⟩ : Surroundings α).call k f args = P.run (depth + 1) f (.object k) args := rfl

/-- A function of the object at `k` fails in one of its steps. Those before it are done. The step
itself leaves the object as it was: a check does nothing to it, and fields are set last, after
everything that can fail (`gives_newBuilder_iff`). -/
def StopsIn (k : Nat) (f : Function) (args : List (Value α)) (heap heap' : Heap α) : Prop :=
  ∃ locals before step after heap₁, bind? f.parameters args = some locals ∧
    stepsOf? f = some (before ++ step :: after) ∧
    Gives (runSteps E.program E.send ⟨.object k, locals⟩ before) heap none heap₁ ∧
    Fails (runSteps E.program E.send ⟨.object k, locals⟩ [step]) heap₁ ∧ heap'[k]? = heap₁[k]?

/-- A new builder of a property. -/
def create (s : SubBuilder) : Run α (Value α) :=
  (creationHead s).eval E.program E.send ⟨.null, []⟩

/-- What other classes keep to. -/
structure Respects (k : Nat) : Prop where
  /-- What they make is not null. -/
  made : ∀ t f, E.program.made t f ≠ .null
  /-- A builder that is made from a value is not null, and neither is what a builder builds. -/
  present : ∀ v name heap u heap', name ∈ ["toBuilder", "build"] →
    Gives (E.send v name []) heap u heap' → u ≠ .null
  /-- Starting a builder does nothing to the object at `k`. -/
  apart : ∀ v name args heap u heap', name ∈ ["toBuilder", "putAll", "addAll"] →
    Gives (E.send v name args) heap u heap' → heap'[k]? = heap[k]?

variable {E} {k : Nat} {f : Function} {args : List (Value α)} {locals : List (String × Value α)}
  {steps : List Step} {heap heap' : Heap α} {u v w : Value α} {s : SubBuilder}

theorem gives_call_iff (hbind : bind? f.parameters args = some locals)
    (hsteps : stepsOf? f = some steps) : Gives (E.call k f args) heap u heap' ↔
      Gives (runSteps E.program E.send ⟨.object k, locals⟩ steps) heap (some u) heap' := by
  rw [Gives, call, (gives_orStuck hbind).bind_eq, (gives_orStuck hsteps).bind_eq, ← Gives,
    gives_bind_iff]
  constructor
  · rintro ⟨_ | v, heap₁, h, hresult⟩
    · exact absurd hresult (fails_failing _).not_gives
    · obtain ⟨rfl, rfl⟩ := gives_pure_iff.mp hresult
      exact h
  · exact fun h => ⟨some u, heap', h, gives_pure⟩

theorem fails_call_of_bind? (hbind : bind? f.parameters args = none) :
    Fails (E.call k f args) heap := by
  rw [call, hbind]
  exact (fails_failing _).bind _

/-- A call whose arguments fit gives something back or fails in one of its steps. -/
theorem gives_or_stopsIn {e : Expr} (hbind : bind? f.parameters args = some locals)
    (hsteps : stepsOf? f = some (steps ++ [.giveBack e])) (heap : Heap α) :
    (∃ u heap', Gives (E.call k f args) heap u heap') ∨
      ∃ heap', E.StopsIn k f args heap heap' := by
  by_cases hfails : Fails (runSteps E.program E.send ⟨.object k, locals⟩ (steps ++ [.giveBack e])) heap
  · obtain ⟨before, step, after, heap₁, hsplit, hbefore, hstep⟩ := exists_stop hfails
    exact Or.inr ⟨heap₁, locals, before, step, after, heap₁, hbind, hsplit ▸ hsteps, hbefore, hstep,
      rfl⟩
  · rw [fails_iff] at hfails
    push Not at hfails
    obtain ⟨r, heap', h⟩ := hfails
    obtain ⟨u, rfl⟩ := Option.isSome_iff_exists.mp (isSome_of_gives_ending h)
    exact Or.inl ⟨u, heap', (gives_call_iff hbind hsteps).mpr h⟩

/-- A new builder does not depend on what names stand for. -/
theorem eval_creationHead (s : SubBuilder) (sc : Scope α) :
    (creationHead s).eval E.program E.send sc = E.create s := by
  rw [create]
  unfold creationHead
  split
  · split <;> simp only [Head.eval, Argument.evalAll]
  · simp only [Head.eval, Argument.evalAll]

theorem create_spec (hE : E.Respects k) (hk : k < heap.length)
    (h : Gives (E.create s) heap w heap') : w ≠ .null ∧ heap'[k]? = heap[k]? := by
  have hmake : ∀ t, Gives (Head.eval E.program E.send ⟨.null, []⟩ (.make t [])) heap w heap' →
      w ≠ .null ∧ heap'[k]? = heap[k]? := by
    intro t hmade
    rw [Head.eval, Argument.evalAll, pure_bind, Program.construct] at hmade
    split at hmade
    · exact absurd hmade (fails_failing _).not_gives
    · split at hmade
      · simp only [gives_bind_iff, gives_orStuck_iff] at hmade
        obtain ⟨args, heap₁, ⟨-, rfl⟩, fields, heap₂, ⟨-, rfl⟩, hmade⟩ := hmade
        obtain ⟨rfl, rfl⟩ := gives_allocate.iff.mp hmade
        exact ⟨by simp, List.getElem?_append_left hk⟩
      · obtain ⟨rfl, rfl⟩ := gives_pure_iff.mp hmade
        exact ⟨hE.made _ _, rfl⟩
  rw [create] at h
  unfold creationHead at h
  split at h
  · split at h
    · rw [Head.eval] at h
      obtain ⟨rfl, rfl⟩ := gives_pure_iff.mp h
      exact ⟨hE.made _ _, rfl⟩
    · exact hmake _ h
  · exact hmake _ h

end Surroundings

/-! ### What a builder holds -/

section Holding

variable {α : Type}

/-- What a builder holds for a property that can be set and built. -/
structure Holding (α : Type) where
  value : Value α
  /-- The builder of the property that was given out, or null. -/
  cached : Value α
  /-- The property was set. -/
  isSet : Bool

/-- The fields of an object for a property. -/
structure Holds (p : BuilderProperty) (s : SubBuilder) (h : Holding α) (o : Object α) : Prop where
  value : o.fields.lookup p.name = some h.value
  cached : o.fields.lookup s.fieldName = some h.cached
  isSet : o.fields.lookup (SubBuilder.flagName p.name) = some (.truth h.isSet)

/-- A property that can be set and built. Its functions have no bodies of their own, and its three
fields have different names. -/
structure IsGuarded (p : BuilderProperty) (s : SubBuilder) : Prop where
  guarded : p.guarded? = some s
  setters : ∀ f ∈ p.setters, f.body = []
  accessor : s.accessor.body = [] ∧ s.accessor.parameters = []
  name_ne_field : p.name ≠ s.fieldName
  name_ne_flag : p.name ≠ SubBuilder.flagName p.name
  field_ne_flag : s.fieldName ≠ SubBuilder.flagName p.name

variable {p : BuilderProperty} {s : SubBuilder} {h : Holding α} {o : Object α}

theorem Holds.setFlag (hg : IsGuarded p s) (ho : Holds p s h o) (isSet : Bool) :
    Holds p s { h with isSet } (o.set (SubBuilder.flagName p.name) (.truth isSet)) where
  value := by rw [Object.lookup_set, if_neg hg.name_ne_flag, ho.value]
  cached := by rw [Object.lookup_set, if_neg hg.field_ne_flag, ho.cached]
  isSet := by rw [Object.lookup_set, if_pos rfl, ho.isSet]; rfl

theorem Holds.setValue (hg : IsGuarded p s) (ho : Holds p s h o) (value : Value α) :
    Holds p s { h with value } (o.set p.name value) where
  value := by rw [Object.lookup_set, if_pos rfl, ho.value]; rfl
  cached := by rw [Object.lookup_set, if_neg hg.name_ne_field.symm, ho.cached]
  isSet := by rw [Object.lookup_set, if_neg hg.name_ne_flag.symm, ho.isSet]

theorem Holds.setCached (hg : IsGuarded p s) (ho : Holds p s h o) (cached : Value α) :
    Holds p s { h with cached } (o.set s.fieldName cached) where
  value := by rw [Object.lookup_set, if_neg hg.name_ne_field, ho.value]
  cached := by rw [Object.lookup_set, if_pos rfl, ho.cached]; rfl
  isSet := by rw [Object.lookup_set, if_neg hg.field_ne_flag.symm, ho.isSet]

/-- A property with a setter and a builder of its own. -/
theorem isGuarded {b : BuilderModel} {set : PropertySet} (hb : b.IsFor set)
    (hnames : ∀ p ∈ b.properties, p.name ∉ generatedNames b) (hp : p ∈ b.properties)
    (hsetters : p.setters ≠ []) (hs : p.subBuilder = some s) : IsGuarded p s := by
  have hguarded : p.guarded? = some s := by
    have hneeded : needsGuard (!p.setters.isEmpty) p.subBuilder.isSome = true := by
      simp [needsGuard, hsetters, hs]
    rw [BuilderProperty.guarded?, if_pos hneeded, hs]
  obtain ⟨hbody, hparameters, -⟩ := hb.subBuilders p hp s hs
  refine ⟨hguarded, fun f hf => ?_, ⟨hbody, hparameters⟩, ?_, ?_, fieldName_ne_flagName hb hp hs _⟩
  · obtain ⟨i, hi⟩ := List.getElem?_of_mem hp
    exact (hb.setters i p hi f hf).1
  · exact fun heq => hnames p hp (heq ▸ fieldName_mem hp hs)
  · exact fun heq => hnames p hp (heq ▸ flagName_mem hp hguarded)

end Holding

/-! ### Setters -/

section Setting

variable {α : Type} {E : Surroundings α} {p : BuilderProperty} {s : SubBuilder} {f : Function}
  {h : Holding α} {o : Object α} {heap heap' : Heap α} {k : Nat} {args : List (Value α)}
  {locals : List (String × Value α)} {u v w : Value α} {r : Option (Value α)}

/-- The value that a setter is given: that of its first parameter. -/
def assigned? (f : Function) (args : List (Value α)) : Option (Value α) := do
  let locals ← bind? f.parameters args
  let q ← f.parameters.head?
  locals.lookup q.name

/-- The object after its property was set. -/
def setting (p : BuilderProperty) (o : Object α) (v : Option (Value α)) : Object α :=
  let noted := o.set (SubBuilder.flagName p.name) (.truth true)
  match v with
  | some v => noted.set p.name v
  | none => noted

/-- The check for a builder of the property passes: what its field is called stands for null. -/
def Lets (s : SubBuilder) (cached : Value α) (locals : List (String × Value α)) : Prop :=
  (locals.lookup s.fieldName).getD cached = .null

theorem Holds.setting (hg : IsGuarded p s) (ho : Holds p s h o) (v : Option (Value α)) :
    Holds p s ⟨v.getD h.value, h.cached, true⟩ (setting p o v) := by
  cases v with
  | none => exact ho.setFlag hg true
  | some v => exact (ho.setFlag hg true).setValue hg v

theorem lookup_assigned (hbind : bind? f.parameters args = some locals) {q : Parameter}
    (hq : f.parameters.head? = some q) :
    ∃ v, locals.lookup q.name = some v ∧ assigned? f args = some v := by
  obtain ⟨v, hv⟩ : ∃ v, locals.lookup q.name = some v := by
    obtain ⟨qs, hqs⟩ := List.head?_eq_some_iff.mp hq
    rw [hqs, bind?.eq_def] at hbind
    simp only at hbind
    split at hbind
    · split at hbind
      · obtain rfl := Option.some.inj hbind
        exact ⟨_, List.lookup_cons_self⟩
      · cases hbind
    · split at hbind
      · cases hbind
      · obtain ⟨rest, -, rfl⟩ := Option.map_eq_some_iff.mp hbind
        exact ⟨_, List.lookup_cons_self⟩
  exact ⟨v, hv, by simp only [assigned?, hbind, hq, Option.bind_eq_bind, Option.bind_some, hv]⟩

/-- A field of the object, unless a parameter has its name. -/
theorem gives_find (hk : heap[k]? = some o) {n : String} (hv : o.fields.lookup n = some v) :
    Gives (Scope.find ⟨.object k, locals⟩ n) heap ((locals.lookup n).getD v) heap := by
  cases hlocal : locals.lookup n with
  | none => exact gives_ownField rfl hlocal hk hv
  | some u => exact gives_local hlocal

/-- What a setter checks first: no builder of the property was given out. -/
def checkBuilder (p : BuilderProperty) (s : SubBuilder) : Step :=
  .requireNull s.fieldName ("Cannot set " ++ p.name ++ " after calling " ++ s.accessor.name ++ "()")

/-- What it notes then. -/
def noteSetting (p : BuilderProperty) : Step :=
  .act (.assign false (SubBuilder.flagName p.name) (.value (.truth true) []))

theorem stepsOf?_setter (hg : IsGuarded p s) (hf : f ∈ p.setters) :
    stepsOf? (p.setterFunction f) = some [checkBuilder p s, noteSetting p, settingStep p f] := by
  rw [stepsOf?_setterFunction p (hg.setters f hf), guardSteps, hg.guarded]
  rfl

theorem gives_checkBuilder_iff (hk : heap[k]? = some o) (ho : Holds p s h o) :
    Gives (runSteps E.program E.send ⟨.object k, locals⟩ [checkBuilder p s]) heap r heap' ↔
      r = none ∧ Lets s h.cached locals ∧ heap' = heap := by
  rw [checkBuilder, gives_requireNull_iff, (gives_find hk ho.cached).iff, Lets,
    eq_comm (a := Value.null)]

theorem gives_noteSetting_iff (hk : heap[k]? = some o) (ho : Holds p s h o) :
    Gives (runSteps E.program E.send ⟨.object k, locals⟩ [noteSetting p]) heap r heap' ↔
      r = none ∧ locals.lookup (SubBuilder.flagName p.name) = none ∧
        heap' = heap.set k (o.set (SubBuilder.flagName p.name) (.truth true)) := by
  have htrue : Gives (Expr.eval E.program E.send ⟨.object k, locals⟩ (.value (.truth true) [])) heap
      (.truth true) heap :=
    gives_value (by rw [Head.eval]; exact gives_pure) gives_noSuffixes
  rw [noteSetting, gives_act_iff, gives_assignOwn_iff hk (by rw [ho.isSet]; rfl) htrue]

theorem gives_settingStep_iff (hk : heap[k]? = some o) (ho : Holds p s h o)
    (hbind : bind? f.parameters args = some locals) :
    Gives (runSteps E.program E.send ⟨.object k, locals⟩ [settingStep p f]) heap r heap' ↔
      r = some (.object k) ∧ heap' = heap.set k (match assigned? f args with
        | some v => o.set p.name v
        | none => o) := by
  rw [settingStep]
  cases hq : f.parameters.head? with
  | none =>
    have hself : Gives (Expr.eval E.program E.send ⟨.object k, locals⟩ (.value .self [])) heap
        (.object k) heap :=
      gives_value (by rw [Head.eval]; exact gives_pure) gives_noSuffixes
    have hnone : assigned? f args = none := by simp [assigned?, hbind, hq]
    obtain ⟨hlt, hget⟩ := List.getElem?_eq_some_iff.mp hk
    rw [(gives_giveBack hself).iff, hnone, ← hget, List.set_getElem_self]
  | some q =>
    obtain ⟨v, hv, hassigned⟩ := lookup_assigned hbind hq
    have hassign : Gives (Action.run E.program E.send ⟨.object k, locals⟩
        (.assign true p.name (named q.name))) heap () (heap.set k (o.set p.name v)) :=
      (gives_assign_iff (gives_named (gives_local hv))).mpr
        (gives_writeField hk (by rw [ho.value]; rfl))
    have happly : Gives (Expr.eval E.program E.send ⟨.object k, locals⟩
        (.value (.apply (.assign true p.name (named q.name))) [])) heap (.object k)
          (heap.set k (o.set p.name v)) :=
      gives_value (by rw [Head.eval]; exact hassign.bind gives_pure) gives_noSuffixes
    rw [(gives_giveBack happly).iff, hassigned]

/-- A setter gives its builder back just when the check lets it through and no parameter is named as
the field that notes the setting. -/
theorem gives_setter_iff (hg : IsGuarded p s) (hf : f ∈ p.setters) (hk : heap[k]? = some o)
    (ho : Holds p s h o) :
    Gives (E.call k (p.setterFunction f) args) heap u heap' ↔
      ∃ locals, bind? f.parameters args = some locals ∧ Lets s h.cached locals ∧
        locals.lookup (SubBuilder.flagName p.name) = none ∧ u = .object k ∧
        heap' = heap.set k (setting p o (assigned? f args)) := by
  have hparameters : (p.setterFunction f).parameters = f.parameters := rfl
  cases hbind : bind? f.parameters args with
  | none =>
    simp only [reduceCtorEq, false_and, exists_false, iff_false]
    exact (Surroundings.fails_call_of_bind? (hparameters ▸ hbind)).not_gives
  | some locals =>
    have hlt := (List.getElem?_eq_some_iff.mp hk).1
    have hset (o' : Object α) : (heap.set k o')[k]? = some o' := List.getElem?_set_self hlt
    rw [Surroundings.gives_call_iff (hparameters ▸ hbind) (stepsOf?_setter hg hf),
      gives_then_iff (gives_checkBuilder_iff hk ho), gives_then_iff (gives_noteSetting_iff hk ho),
      gives_settingStep_iff (hset _) (ho.setFlag hg true) hbind, List.set_set]
    simp only [Option.some.injEq, exists_eq_left']
    cases assigned? f args <;> rfl

/-- A setter that fails has noted nothing. -/
theorem kept_of_setter_stopsIn (hg : IsGuarded p s) (hf : f ∈ p.setters) (hk : heap[k]? = some o)
    (ho : Holds p s h o) (hstops : E.StopsIn k (p.setterFunction f) args heap heap') :
    heap'[k]? = heap[k]? := by
  obtain ⟨locals, before, step, after, heap₁, hbind, hsteps, hbefore, hstop, hkept⟩ := hstops
  have hparameters : (p.setterFunction f).parameters = f.parameters := rfl
  have hlt := (List.getElem?_eq_some_iff.mp hk).1
  rw [stepsOf?_setter hg hf] at hsteps
  rw [hkept]
  rcases before with _ | ⟨check, _ | ⟨note, _ | ⟨set, before⟩⟩⟩
  · rw [(gives_pure_iff.mp hbefore).2]
  · obtain ⟨rfl, -⟩ : checkBuilder p s = check ∧ _ := by simpa using hsteps
    rw [((gives_checkBuilder_iff hk ho).mp hbefore).2.2]
  · -- what is left to do then cannot fail
    obtain ⟨rfl, rfl, rfl, -⟩ :
        checkBuilder p s = check ∧ noteSetting p = note ∧ settingStep p f = step ∧ _ := by
      simpa using hsteps
    obtain ⟨-, hbefore⟩ := (gives_then_iff (gives_checkBuilder_iff hk ho)).mp hbefore
    obtain ⟨-, -, rfl⟩ := (gives_noteSetting_iff hk ho).mp hbefore
    exact absurd ((gives_settingStep_iff (List.getElem?_set_self hlt) (ho.setFlag hg true)
      (hparameters ▸ hbind)).mpr ⟨rfl, rfl⟩) hstop.not_gives
  · exact absurd (congrArg List.length (Option.some.inj hsteps)) (by simp)

end Setting

/-! ### The access to the builder -/

section Access

variable {α : Type} {E : Surroundings α} {p : BuilderProperty} {s : SubBuilder}
  {h : Holding α} {o : Object α} {heap heap' : Heap α} {k : Nat} {u v w : Value α}
  {r : Option (Value α)}

/-- The value `w` is a new builder of a property that has taken over the value `v`. -/
def Seeded (E : Surroundings α) (s : SubBuilder) (v w : Value α) (heap heap' : Heap α) : Prop :=
  match s.seedMethod? with
  | some method => ∃ heap₁, Gives (E.create s) heap w heap₁ ∧
      (v = .null ∧ heap' = heap₁ ∨ v ≠ .null ∧ ∃ u, Gives (E.send w method [v]) heap₁ u heap')
  | none =>
    v = .null ∧ Gives (E.create s) heap w heap' ∨
      v ≠ .null ∧ Gives (E.send v "toBuilder" []) heap w heap'

theorem seeded_some {method : String} (h : s.seedMethod? = some method) :
    Seeded E s v w heap heap' ↔ ∃ heap₁, Gives (E.create s) heap w heap₁ ∧
      (v = .null ∧ heap' = heap₁ ∨ v ≠ .null ∧ ∃ u, Gives (E.send w method [v]) heap₁ u heap') := by
  rw [Seeded, h]

theorem seeded_none (h : s.seedMethod? = none) : Seeded E s v w heap heap' ↔
    (v = .null ∧ Gives (E.create s) heap w heap' ∨
      v ≠ .null ∧ Gives (E.send v "toBuilder" []) heap w heap') := by
  rw [Seeded, h]

theorem Seeded.spec (hE : E.Respects k) (hk : k < heap.length) (hw : Seeded E s v w heap heap') :
    w ≠ .null ∧ heap'[k]? = heap[k]? := by
  cases hmethod : s.seedMethod? with
  | some method =>
    obtain ⟨heap₁, hcreate, hseed⟩ := (seeded_some hmethod).mp hw
    obtain ⟨hne, hkept⟩ := Surroundings.create_spec hE hk hcreate
    obtain ⟨-, rfl⟩ | ⟨-, u, hsend⟩ := hseed
    · exact ⟨hne, hkept⟩
    · have hmem : method ∈ ["toBuilder", "putAll", "addAll"] := by
        rcases seedMethod?_cases hmethod with rfl | rfl <;> decide
      exact ⟨hne, (hE.apart _ _ _ _ _ _ hmem hsend).trans hkept⟩
  | none =>
    obtain ⟨-, hcreate⟩ | ⟨-, hsend⟩ := (seeded_none hmethod).mp hw
    · exact Surroundings.create_spec hE hk hcreate
    · exact ⟨hE.present _ _ _ _ _ (by decide) hsend, hE.apart _ _ _ _ _ _ (by decide) hsend⟩

/-- The object after a builder of its property was made. -/
def building (p : BuilderProperty) (s : SubBuilder) (o : Object α) (w : Value α) : Object α :=
  (o.set p.name .null).set s.fieldName w

theorem Holds.building (hg : IsGuarded p s) (ho : Holds p s h o) (w : Value α) :
    Holds p s ⟨.null, w, h.isSet⟩ (building p s o w) :=
  (ho.setValue hg .null).setCached hg w

theorem fieldName_ne_subBuilder (s : SubBuilder) : s.fieldName ≠ "subBuilder" := by
  intro heq
  have hhead := congrArg (·.toList.head?) heq
  simp [SubBuilder.fieldName] at hhead

/-- The property gives way to a new builder, and it is kept. -/
theorem gives_keeping_iff (hg : IsGuarded p s) (hk : heap[k]? = some o) (ho : Holds p s h o) :
    Gives (Action.runAll E.program E.send ⟨.object k, [("subBuilder", w)]⟩
      (keepingActions s p.name)) heap () heap' ↔
        p.name ≠ "subBuilder" ∧ heap' = heap.set k (building p s o w) := by
  have hnull {heap : Heap α} : Gives (Expr.eval E.program E.send
      ⟨.object k, [("subBuilder", w)]⟩ (.value .null [])) heap .null heap :=
    gives_value (by rw [Head.eval]; exact gives_pure) gives_noSuffixes
  have hnew {heap : Heap α} : Gives (Expr.eval E.program E.send
      ⟨.object k, [("subBuilder", w)]⟩ (named "subBuilder")) heap w heap :=
    gives_named (gives_local List.lookup_cons_self)
  have hlocal (n : String) : [("subBuilder", w)].lookup n = none ↔ n ≠ "subBuilder" := by
    rw [lookup_single]
    simp [eq_comm]
  have hgone : Holds p s { h with value := .null } (o.set p.name .null) := ho.setValue hg .null
  have hset : (heap.set k (o.set p.name .null))[k]? = some (o.set p.name .null) :=
    List.getElem?_set_self (List.getElem?_eq_some_iff.mp hk).1
  have hfirst {heap₁ : Heap α} : Gives (Action.run E.program E.send ⟨.object k, [("subBuilder", w)]⟩
      (.assign false p.name (.value .null []))) heap () heap₁ ↔
        p.name ≠ "subBuilder" ∧ heap₁ = heap.set k (o.set p.name .null) := by
    rw [gives_assignOwn_iff hk (by rw [ho.value]; rfl) hnull, hlocal]
  have hsecond : Gives (Action.runAll E.program E.send ⟨.object k, [("subBuilder", w)]⟩
      [.assign false s.fieldName (named "subBuilder")]) (heap.set k (o.set p.name .null)) () heap' ↔
        heap' = heap.set k (building p s o w) := by
    rw [gives_runAll_single_iff, gives_assignOwn_iff hset (by rw [hgone.cached]; rfl) hnew, hlocal,
      List.set_set]
    exact and_iff_right (fieldName_ne_subBuilder s)
  rw [keepingActions, gives_runAll_iff]
  constructor
  · rintro ⟨heap₁, h₁, h₂⟩
    obtain ⟨hname, rfl⟩ := hfirst.mp h₁
    exact ⟨hname, hsecond.mp h₂⟩
  · rintro ⟨hname, heq⟩
    exact ⟨_, hfirst.mpr ⟨hname, rfl⟩, hsecond.mpr heq⟩

/-- A parameter stands in the place of the property then. -/
theorem not_gives_keeping (hname : p.name = "subBuilder") : ¬ Gives (Action.runAll E.program E.send
    ⟨.object k, [("subBuilder", w)]⟩ (keepingActions s p.name)) heap () heap' := by
  intro hgives
  rw [keepingActions, gives_runAll_iff, hname] at hgives
  obtain ⟨heap₁, hassign, -⟩ := hgives
  rw [Action.run, gives_bind_iff] at hassign
  obtain ⟨v, heap₂, -, hassign⟩ := hassign
  rw [Scope.assign, List.lookup_cons_self] at hassign
  exact (fails_failing _).not_gives hassign

/-- A new builder takes over a value. -/
theorem gives_seeding_iff {method : String} (hk : heap[k]? = some o) (ho : Holds p s h o)
    (hname : p.name ≠ "subBuilder") :
    Gives (Action.run E.program E.send ⟨.object k, [("subBuilder", w)]⟩
      (.perform (.value (.name p.name) [.whenPresent (.value (.name "subBuilder")
        [.send false method [.mk none (named "it")]])]))) heap () heap' ↔
      (h.value = .null ∧ heap' = heap ∨
        h.value ≠ .null ∧ ∃ u, Gives (E.send w method [h.value]) heap u heap') := by
  have hfind : Gives (Scope.find ⟨.object k, [("subBuilder", w)]⟩ p.name) heap h.value heap :=
    gives_ownField rfl (by simp [List.lookup_cons, beq_false_of_ne hname]) hk ho.value
  have hsend : Expr.eval E.program E.send ⟨.object k, [("it", h.value), ("subBuilder", w)]⟩
      (.value (.name "subBuilder") [.send false method [.mk none (named "it")]]) heap =
        E.send w method [h.value] heap :=
    eval_send (gives_local rfl) (gives_local rfl)
  rw [Action.run, Expr.eval, Head.eval, bind_assoc, Gives, hfind.bind_eq, Suffix.evalAll, Suffix.eval,
    evalAll_nil, bind_pure]
  by_cases hvalue : h.value = .null
  · rw [if_pos (Value.isNull_iff.mpr hvalue), pure_bind, ← Gives, gives_pure_iff]
    simp [hvalue]
  · rw [if_neg fun hnull => hvalue (Value.isNull_iff.mp hnull), ← Gives, gives_bind_iff]
    simp only [gives_pure_iff, hvalue, false_and, false_or, ne_eq, not_false_iff, true_and]
    constructor
    · rintro ⟨u, heap₁, hu, rfl⟩
      exact ⟨u, hsend.symm.trans hu⟩
    · rintro ⟨u, hu⟩
      exact ⟨u, heap', hsend.trans hu, rfl⟩

/-- A new builder is made from a value. -/
theorem gives_start_iff (hE : E.Respects k) (hk : heap[k]? = some o) (ho : Holds p s h o) :
    Gives (Expr.eval E.program E.send ⟨.object k, []⟩ (.orElse (.name p.name)
      [.send true "toBuilder" []] (.value (creationHead s) []))) heap w heap' ↔
        (h.value = .null ∧ Gives (E.create s) heap w heap' ∨
          h.value ≠ .null ∧ Gives (E.send h.value "toBuilder" []) heap w heap') := by
  have hfind : Gives (Scope.find ⟨.object k, []⟩ p.name) heap h.value heap :=
    gives_ownField rfl rfl hk ho.value
  rw [Expr.eval, Head.eval, Gives, hfind.bind_eq]
  by_cases hvalue : h.value = .null
  · rw [hvalue, gives_sendNull.bind_eq, Value.isNull, if_pos rfl, Expr.eval, evalAll_nil, bind_pure,
      Surroundings.eval_creationHead, ← Gives]
    simp
  · rw [evalAll_send hvalue, ← Gives, gives_bind_iff]
    simp only [hvalue, false_and, false_or, ne_eq, not_false_iff, true_and]
    constructor
    · rintro ⟨u, heap₁, hu, hw⟩
      rw [if_neg fun hnull => hE.present _ _ _ _ _ (by decide) hu (Value.isNull_iff.mp hnull)] at hw
      obtain ⟨rfl, rfl⟩ := gives_pure_iff.mp hw
      exact hu
    · intro hu
      refine ⟨w, heap', hu, ?_⟩
      rw [if_neg fun hnull => hE.present _ _ _ _ _ (by decide) hu (Value.isNull_iff.mp hnull)]
      exact gives_pure

/-- Without a builder of the property, a new one is made from its value. -/
theorem gives_newBuilder_iff (hE : E.Respects k) (hg : IsGuarded p s) (hk : heap[k]? = some o)
    (ho : Holds p s h o) (hcached : h.cached = .null) :
    Gives (Expr.eval E.program E.send ⟨.object k, []⟩ (subBuilderExpr s p.name)) heap w heap' ↔
      p.name ≠ "subBuilder" ∧ ∃ heap₁, Seeded E s h.value w heap heap₁ ∧
        heap' = heap₁.set k (building p s o w) := by
  have hfind : Gives (Scope.find ⟨.object k, []⟩ s.fieldName) heap .null heap :=
    gives_ownField rfl rfl hk (hcached ▸ ho.cached)
  have hlt := (List.getElem?_eq_some_iff.mp hk).1
  have hkept {heap₁ : Heap α} (hw : Seeded E s h.value w heap heap₁) : heap₁[k]? = some o :=
    (hw.spec hE hlt).2.trans hk
  rw [subBuilderExpr, Gives, eval_orElse hfind, Value.isNull, if_pos rfl, ← Gives]
  cases hmethod : s.seedMethod? with
  | some method =>
    simp only []
    rw [gives_also_iff, Surroundings.eval_creationHead]
    have hcreated {heap₁ : Heap α} (hw : Gives (E.create s) heap w heap₁) : heap₁[k]? = some o :=
      (Surroundings.create_spec hE hlt hw).2.trans hk
    constructor
    · rintro ⟨heap₁, hcreate, hactions⟩
      obtain ⟨heap₂, hseed, hkeep⟩ := gives_runAll_iff.mp hactions
      have hname : p.name ≠ "subBuilder" := fun hname => not_gives_keeping hname hkeep
      have hw : Seeded E s h.value w heap heap₂ := (seeded_some hmethod).mpr
        ⟨heap₁, hcreate, (gives_seeding_iff (hcreated hcreate) ho hname).mp hseed⟩
      exact ⟨hname, heap₂, hw, ((gives_keeping_iff hg (hkept hw) ho).mp hkeep).2⟩
    · rintro ⟨hname, heap₂, hw, rfl⟩
      obtain ⟨heap₁, hcreate, hseed⟩ := (seeded_some hmethod).mp hw
      exact ⟨heap₁, hcreate, gives_runAll_iff.mpr
        ⟨heap₂, (gives_seeding_iff (hcreated hcreate) ho hname).mpr hseed,
          (gives_keeping_iff hg (hkept hw) ho).mpr ⟨hname, rfl⟩⟩⟩
  | none =>
    simp only []
    rw [gives_also_iff, Head.eval]
    constructor
    · rintro ⟨heap₁, hstart, hkeep⟩
      have hname : p.name ≠ "subBuilder" := fun hname => not_gives_keeping hname hkeep
      have hw : Seeded E s h.value w heap heap₁ :=
        (seeded_none hmethod).mpr ((gives_start_iff hE hk ho).mp hstart)
      exact ⟨hname, heap₁, hw, ((gives_keeping_iff hg (hkept hw) ho).mp hkeep).2⟩
    · rintro ⟨hname, heap₁, hw, rfl⟩
      exact ⟨heap₁, (gives_start_iff hE hk ho).mpr ((seeded_none hmethod).mp hw),
        (gives_keeping_iff hg (hkept hw) ho).mpr ⟨hname, rfl⟩⟩

/-- What the access to a builder of the property checks: the property was not set. -/
def checkSetting (p : BuilderProperty) (s : SubBuilder) : Step :=
  .requireNot (SubBuilder.flagName p.name)
    ("Cannot call " ++ s.accessor.name ++ "() after setting " ++ p.name)

theorem stepsOf?_access (hg : IsGuarded p s) : stepsOf? (p.subBuilderFunction s) =
    some [checkSetting p s, .giveBack (subBuilderExpr s p.name)] := by
  rw [stepsOf?_subBuilderFunction p hg.accessor.1, accessSteps, hg.guarded]
  rfl

theorem gives_checkSetting_iff (hk : heap[k]? = some o) (ho : Holds p s h o) :
    Gives (runSteps E.program E.send ⟨.object k, []⟩ [checkSetting p s]) heap r heap' ↔
      r = none ∧ h.isSet = false ∧ heap' = heap := by
  have hfind : Gives (Scope.find ⟨.object k, []⟩ (SubBuilder.flagName p.name)) heap
      (.truth h.isSet) heap := gives_ownField rfl rfl hk ho.isSet
  rw [checkSetting, gives_requireNot_iff, hfind.iff, Value.truth.injEq, eq_comm (a := false)]

/-- A builder that was given out is given again. -/
theorem gives_oldBuilder_iff (hk : heap[k]? = some o) (ho : Holds p s h o)
    (hcached : h.cached ≠ .null) :
    Gives (Expr.eval E.program E.send ⟨.object k, []⟩ (subBuilderExpr s p.name)) heap w heap' ↔
      w = h.cached ∧ heap' = heap := by
  have hfind : Gives (Scope.find ⟨.object k, []⟩ s.fieldName) heap h.cached heap :=
    gives_ownField rfl rfl hk ho.cached
  rw [subBuilderExpr, Gives, eval_orElse hfind,
    if_neg fun hnull => hcached (Value.isNull_iff.mp hnull)]
  exact gives_pure_iff

/-- The access to the builder of a property gives the one it gave before, or else a new one; after
the property was set it gives none. -/
theorem gives_access_iff (hE : E.Respects k) (hg : IsGuarded p s) (hk : heap[k]? = some o)
    (ho : Holds p s h o) :
    Gives (E.call k (p.subBuilderFunction s) []) heap w heap' ↔ h.isSet = false ∧
      (h.cached ≠ .null ∧ w = h.cached ∧ heap' = heap ∨
        h.cached = .null ∧ p.name ≠ "subBuilder" ∧ ∃ heap₁, Seeded E s h.value w heap heap₁ ∧
          heap' = heap₁.set k (building p s o w)) := by
  have hbind : bind? (p.subBuilderFunction s).parameters [] = some ([] : List (String × Value α)) := by
    rw [show (p.subBuilderFunction s).parameters = [] from hg.accessor.2]
    rfl
  rw [Surroundings.gives_call_iff hbind (stepsOf?_access hg),
    gives_then_iff (gives_checkSetting_iff hk ho), gives_giveBack_iff]
  simp only [Option.some.injEq, exists_eq_left']
  refine and_congr_right fun _ => ?_
  by_cases hcached : h.cached = .null
  · simp only [gives_newBuilder_iff hE hg hk ho hcached, hcached, ne_eq, not_true, false_and,
      false_or, true_and]
  · simp only [gives_oldBuilder_iff hk ho hcached, hcached, ne_eq, not_false_iff, true_and,
      false_and, or_false]

/-- Where the access to a builder fails, it has done nothing yet. -/
theorem kept_of_access_stopsIn (hg : IsGuarded p s) (hk : heap[k]? = some o) (ho : Holds p s h o)
    (hstops : E.StopsIn k (p.subBuilderFunction s) [] heap heap') : heap'[k]? = heap[k]? := by
  obtain ⟨locals, before, step, after, heap₁, hbind, hsteps, hbefore, -, hkept⟩ := hstops
  rw [show (p.subBuilderFunction s).parameters = [] from hg.accessor.2] at hbind
  obtain rfl := Option.some.inj hbind
  rw [stepsOf?_access hg] at hsteps
  rw [hkept]
  rcases before with _ | ⟨check, _ | ⟨give, before⟩⟩
  · rw [(gives_pure_iff.mp hbefore).2]
  · obtain ⟨rfl, -⟩ : checkSetting p s = check ∧ _ := by simpa using hsteps
    rw [((gives_checkSetting_iff hk ho).mp hbefore).2.2]
  · exact absurd (congrArg List.length (Option.some.inj hsteps)) (by simp)

end Access

end DataClassGen.Meaning
