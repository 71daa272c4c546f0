import Mathlib.Logic.Function.Basic
import DataClassGen.Proofs.Meaning.Bodies
import DataClassGen.Proofs.Model.BuilderFunctions

/-!
# Values go through builders

A builder holds a value for each property, and fields of its own that it was generated with. As long
as no other builder was asked for, these are null, and the builder stands for the values it holds
(`IsBuilder`). A builder that is made from an object holds the values of that object
(`gives_builderHead`); setting a property changes the value of this property only
(`IsBuilder.set_value`); and what is built in the end has the values that the builder holds
(`gives_build`). For this the names of the properties must differ from those of the generated fields.
-/

namespace DataClassGen.Meaning

open Source

/-! ### Look-up -/

section Lookup

variable {β : Type} {k : String} {v : β}

/-- What all entries of a name say is found under it. -/
theorem lookup_of_forall {entries : List (String × β)} (h : (k, v) ∈ entries)
    (hall : ∀ w, (k, w) ∈ entries → w = v) : entries.lookup k = some v := by
  induction entries with
  | nil => cases h
  | cons entry entries ih =>
    obtain ⟨name, w⟩ := entry
    rw [List.lookup_cons]
    by_cases hname : k = name
    · subst hname
      rw [hall w List.mem_cons_self]
      simp
    · rw [beq_false_of_ne hname]
      refine ih ?_ fun w' hw' => hall w' (List.mem_cons_of_mem _ hw')
      rcases List.mem_cons.mp h with heq | h
      · exact absurd (Prod.mk.inj heq).1 hname
      · exact h

theorem lookup_map_of_mem {γ : Type} (name : γ → String) (value : String → β) {cs : List γ} {c : γ}
    (h : c ∈ cs) :
    (cs.map fun c => (name c, value (name c))).lookup (name c) = some (value (name c)) :=
  lookup_of_forall (List.mem_map_of_mem h) fun w hw => by
    obtain ⟨c', -, heq⟩ := List.mem_map.mp hw
    obtain ⟨hname, rfl⟩ := Prod.mk.inj heq
    rw [hname]

theorem isSome_lookup_of_mem {entries : List (String × β)} (h : (k, v) ∈ entries) :
    (entries.lookup k).isSome = true := by
  by_contra hnone
  rw [Option.not_isSome_iff_eq_none, List.lookup_eq_none_iff] at hnone
  exact absurd (hnone _ h) (by simp)

theorem lookup_single (k n : String) (v : β) :
    [(k, v)].lookup n = if k = n then some v else none := by
  rw [List.lookup_cons]
  split
  · next heq => rw [beq_iff_eq.mp heq, if_pos rfl]
  · next hne => rw [if_neg fun heq => by simp [heq] at hne]; rfl

theorem lookup_eq_none_of_forall {entries : List (String × β)} (h : ∀ entry ∈ entries, entry.1 ≠ k) :
    entries.lookup k = none := by
  rw [List.lookup_eq_none_iff]
  exact fun entry hentry => bne_iff_ne.mpr (Ne.symm (h entry hentry))

end Lookup

/-! ### Functions that can be read -/

section Reading

variable {b : BuilderModel} {set : PropertySet} {valueClass : ClassName} {f : Function}

theorem stepsOf?_eq {f : Function} {code : Code} {step : Step} (h : f.body.filterMap code? = [code])
    (hstep : Step.ofCode? code = some step) : stepsOf? f = some [step] := by
  rw [stepsOf?, h, List.mapM_cons, hstep]
  rfl

theorem stepsOf?_finalizeFunction (hb : b.IsFor set)
    (zeros : List (BuilderProperty × Option Code)) :
    stepsOf? (b.finalizeFunction valueClass (zeros.map fun p => p.1.argument p.2)) =
      some [.giveBack (.value (.make (.ofClass valueClass)
        (zeros.map fun p => builtArgument p.1 p.2)) [])] := by
  refine stepsOf?_eq ?_ (ofCode?_finalize valueClass zeros)
  rw [BuilderModel.finalizeFunction, Function.doing, hb.finalizeMethod.1]
  rfl

theorem stepsOf?_buildFunction (hb : b.IsFor set) (hf : b.buildFunction? = some f) :
    stepsOf? f = some [.giveBack (.value (.call b.finalizeMethod.name []) [])] := by
  obtain ⟨hook, hhook, rfl⟩ := Option.map_eq_some_iff.mp hf
  refine stepsOf?_eq ?_ (ofCode?_call b.finalizeMethod.name)
  simp only [Function.noting, Function.doing, (hb.buildMethod hook hhook).1]
  rfl

theorem stepsOf?_placeholder {unrecognized : List String}
    (hf : placeholder? unrecognized = some f) :
    stepsOf? f = some [.act (.perform (.value (.call "TODO" []) []))] := by
  rw [placeholder?] at hf
  split at hf
  · cases hf
  · obtain rfl := Option.some.inj hf
    have hstep : Step.ofCode? (Code.lit "TODO()") =
        some (.act (.perform (.value (.call "TODO" []) []))) := Step.ofCode?_eq rfl
    refine stepsOf?_eq ?_ hstep
    have hcomments :
        (unrecognized.map fun s => Statement.comment ("  " ++ s)).filterMap code? = [] := by
      simp [code?]
    rw [List.cons_append, List.filterMap_cons, List.filterMap_append, hcomments]
    rfl

/-- Every function of a builder has a meaning. -/
theorem stepsOf?_isSome (hb : b.IsFor set) {decl : TypeDecl}
    (h : b.toDeclaration valueClass = .ok decl) (hf : f ∈ decl.functions) :
    (stepsOf? f).isSome = true := by
  obtain ⟨zeros, -, -, -, -, -, hfunctions⟩ := BuilderModel.toDeclaration_spec h
  rw [hfunctions] at hf
  simp only [List.mem_append, List.mem_flatMap, Option.mem_toList, List.mem_singleton] at hf
  obtain ((⟨p, hp, hf⟩ | hf) | rfl) | hf := hf
  · obtain hf | hf := List.mem_append.mp hf
    · obtain ⟨s, hs, rfl⟩ := List.mem_map.mp hf
      obtain ⟨i, hi⟩ := List.getElem?_of_mem hp
      rw [stepsOf?_setterFunction p (hb.setters i p hi s hs).1]
      rfl
    · obtain ⟨s, hs, rfl⟩ := List.mem_map.mp hf
      rw [stepsOf?_subBuilderFunction p (hb.subBuilders p hp s (Option.mem_toList.mp hs)).1]
      rfl
  · rw [stepsOf?_buildFunction hb hf]
    rfl
  · rw [stepsOf?_finalizeFunction hb]
    rfl
  · rw [stepsOf?_placeholder hf]
    rfl

end Reading

/-! ### New objects -/

section Make

variable {α : Type} {P : Program α} {send : Value α → String → List (Value α) → Run α (Value α)}
  {sc : Scope α} {heap heap' heap'' : Heap α} {v w : Value α}

/-- The fields of a new object whose constructor is given all values. -/
theorem fieldsOf?_eq {decl : TypeDecl} {constructor : Constructor} {others : List (String × Value α)}
    (hconstructor : decl.constructor = some constructor)
    (hothers : decl.properties.mapM (fun p => do
      let v ← p.initializer.bind constant?
      some (p.name, v)) = some others) (values : String → Value α) :
    let names := constructor.properties.map (·.property.name)
    fieldsOf? decl (names.map fun n => (n, values n)) =
      some (names.map (fun n => (n, values n)) ++ others) := by
  intro names
  have hall : ((names.map fun n => (n, values n)).all fun arg => names.contains arg.1) = true := by
    simp
  have hgiven (properties : List ConstructorProperty) (hsub : properties ⊆ constructor.properties) :
      properties.mapM (fun p => do
        let v ← ((names.map fun n => (n, values n)).lookup p.property.name).or
          (p.default.bind constant?)
        some (p.property.name, v)) =
          some ((properties.map (·.property.name)).map fun n => (n, values n)) := by
    induction properties with
    | nil => rfl
    | cons p properties ih =>
      have hp : (names.map fun n => (n, values n)).lookup p.property.name =
          some (values p.property.name) :=
        lookup_map_of_mem id values (List.mem_map_of_mem (hsub List.mem_cons_self))
      rw [List.mapM_cons, ih fun q hq => hsub (List.mem_cons_of_mem _ hq), hp]
      rfl
  have hgiven := hgiven constructor.properties (List.Subset.refl _)
  simp only [fieldsOf?, hconstructor, Option.bind_eq_bind, Option.bind_some] at hgiven hothers ⊢
  rw [if_pos hall, hgiven, Option.bind_some, hothers, Option.bind_some]

/-- Entries that are made one by one have the names of what they are made from. -/
theorem keys_of_mapM {γ β : Type} {name : γ → String} {value : γ → Option β} {cs : List γ}
    {entries : List (String × β)} (h : cs.mapM (fun c => do
      let v ← value c
      some (name c, v)) = some entries) : entries.map Prod.fst = cs.map name := by
  induction cs generalizing entries with
  | nil =>
    obtain rfl := Option.some.inj h
    rfl
  | cons c cs ih =>
    rw [List.mapM_cons] at h
    obtain ⟨entry, hentry, h⟩ := Option.bind_eq_some_iff.mp h
    obtain ⟨rest, hrest, h⟩ := Option.bind_eq_some_iff.mp h
    obtain ⟨v, -, hentry⟩ := Option.bind_eq_some_iff.mp hentry
    obtain rfl := Option.some.inj h
    obtain rfl := Option.some.inj hentry
    rw [List.map_cons, List.map_cons, ih hrest]

/-- The fields of a new object: those of the constructor, then the others with their first values. -/
theorem fieldsOf?_spec {decl : TypeDecl} {constructor : Constructor} {args fields : List (String × Value α)}
    (hconstructor : decl.constructor = some constructor)
    (h : fieldsOf? decl args = some fields) :
    ∃ given others, fields = given ++ others ∧
      given.map Prod.fst = constructor.properties.map (·.property.name) ∧
      decl.properties.mapM (fun p => do
        let v ← p.initializer.bind constant?
        some (p.name, v)) = some others := by
  obtain ⟨constructor', hconstructor', h⟩ := Option.bind_eq_some_iff.mp h
  obtain rfl := Option.some.inj (hconstructor.symm.trans hconstructor')
  dsimp only at h
  split at h
  · obtain ⟨-, -, h⟩ := Option.bind_eq_some_iff.mp h
    obtain ⟨given, hgiven, h⟩ := Option.bind_eq_some_iff.mp h
    obtain ⟨others, hothers, h⟩ := Option.bind_eq_some_iff.mp h
    exact ⟨given, others, (Option.some.inj h).symm, keys_of_mapM hgiven, hothers⟩
  · cases h

/-- A new object whose constructor is given all values. -/
theorem gives_make {cls : ClassName} {decl : TypeDecl} {constructor : Constructor}
    {names : List String} {others : List (String × Value α)} {values : String → Value α}
    {args : List Argument} (hclass : P.classes cls = some decl)
    (hconstructor : decl.constructor = some constructor)
    (hnames : constructor.properties.map (·.property.name) = names)
    (hothers : decl.properties.mapM (fun p => do
      let v ← p.initializer.bind constant?
      some (p.name, v)) = some others)
    (hargs : Gives (Argument.evalAll P send sc args) heap (names.map fun n => (some n, values n))
      heap) :
    Gives (Head.eval P send sc (.make (.ofClass cls) args)) heap (.object heap.length)
      (heap ++ [⟨cls, names.map (fun n => (n, values n)) ++ others⟩]) := by
  subst hnames
  have hfields := fieldsOf?_eq hconstructor hothers values
  rw [Head.eval]
  refine hargs.bind ?_
  simp only [Program.construct, TypeName.ofClass, TypeName.class?, hclass]
  exact (gives_orStuck (labelled?_map id values _)).bind
    ((gives_orStuck hfields).bind gives_allocate)

end Make

/-! ### Calls -/

section Calls

variable {α : Type} {P : Program α} {heap heap' : Heap α} {a depth : Nat} {o : Object α}
  {decl : TypeDecl} {f : Function} {self v : Value α} {args : List (Value α)}
  {locals : List (String × Value α)} {steps : List Step}

theorem gives_run (hbind : bind? f.parameters args = some locals) (hsteps : stepsOf? f = some steps)
    (h : Gives (runSteps P (P.send depth) ⟨self, locals⟩ steps) heap (some v) heap') :
    Gives (P.run (depth + 1) f self args) heap v heap' :=
  (gives_orStuck hbind).bind ((gives_orStuck hsteps).bind (h.bind (gives_orStuck rfl)))

theorem fails_run (hbind : bind? f.parameters args = some locals) (hsteps : stepsOf? f = some steps)
    (h : Fails (runSteps P (P.send depth) ⟨self, locals⟩ steps) heap) :
    Fails (P.run (depth + 1) f self args) heap :=
  (gives_orStuck hbind).bind_fails ((gives_orStuck hsteps).bind_fails (h.bind _))

theorem send_eq {name : String} (ho : heap[a]? = some o) (hdecl : P.classes o.cls = some decl)
    (hf : P.resolve decl name args.length = some f) :
    P.send depth (.object a) name args heap = P.run depth f (.object a) args heap := by
  rw [Program.send, Program.sendBy, (gives_objectOf ho).bind_eq, (gives_orStuck hdecl).bind_eq,
    (gives_orStuck hf).bind_eq]
  exact fun _ h => by cases h

/-- A call of this name without arguments leads to one function at most. -/
def IsClear (decl : TypeDecl) (name : String) : Prop :=
  ∀ f ∈ decl.functions, ∀ g ∈ decl.functions,
    (f.name = name ∧ f.parameters = []) ∧ g.name = name ∧ g.parameters = [] → f = g

instance (decl : TypeDecl) (name : String) : Decidable (IsClear decl name) :=
  inferInstanceAs (Decidable (∀ f ∈ decl.functions, ∀ g ∈ decl.functions, _ → _))

theorem resolve_of_isClear {name : String} (hclear : IsClear decl name) (hf : f ∈ decl.functions)
    (hname : f.name = name) (hparameters : f.parameters = []) : P.resolve decl name 0 = some f := by
  let exact := (decl.functions.filter (·.name == name)).filter fun g =>
    !isVariadic g && g.parameters.length == 0
  have hmem : f ∈ exact := by
    simp [exact, hf, hname, hparameters, isVariadic]
  have hne : exact ≠ [] := List.ne_nil_of_mem hmem
  obtain ⟨g, hg⟩ := Option.isSome_iff_exists.mp (P.pick_isSome hne)
  have hspec := P.pick_mem hg
  simp only [exact, List.mem_filter, Bool.and_eq_true, beq_iff_eq, List.length_eq_zero_iff] at hspec
  obtain ⟨⟨hgmem, hgname⟩, -, hgparameters⟩ := hspec
  have heq : g = f := hclear g hgmem f hf ⟨⟨hgname, hgparameters⟩, hname, hparameters⟩
  have hempty : exact.isEmpty = false := by simpa [exact] using hne
  rw [Program.resolve]
  simp only [exact] at hempty hg
  rw [hempty]
  exact hg.trans (congrArg some heq)

end Calls

/-! ### Generated fields -/

/-- The names of the generated fields of a builder. -/
def generatedNames (b : BuilderModel) : List String := (b.properties.flatMap (·.fields)).map (·.name)

section Fields

variable {b : BuilderModel} {set : PropertySet} {p : BuilderProperty} {s : SubBuilder}

theorem subBuilder_of_guarded (h : p.guarded? = some s) : p.subBuilder = some s := by
  rw [BuilderProperty.guarded?] at h
  split at h
  · exact h
  · cases h

theorem mem_fields_iff (hs : p.subBuilder = some s) {q : Property} :
    q ∈ p.fields ↔
      q = privateVariable s.fieldName (s.type.withNull true) (some (Code.lit "null")) ∨
      p.guarded?.isSome = true ∧ q = privateVariable (SubBuilder.flagName p.name) (.builtin "Boolean")
        (some (Code.lit "false")) := by
  rw [BuilderProperty.fields, hs]
  cases p.guarded? <;> simp

theorem fieldName_mem (hp : p ∈ b.properties) (hs : p.subBuilder = some s) :
    s.fieldName ∈ generatedNames b :=
  List.mem_map.mpr ⟨_, List.mem_flatMap.mpr ⟨p, hp, (mem_fields_iff hs).mpr (Or.inl rfl)⟩, rfl⟩

theorem flagName_mem (hp : p ∈ b.properties) (hs : p.guarded? = some s) :
    SubBuilder.flagName p.name ∈ generatedNames b :=
  List.mem_map.mpr ⟨_, List.mem_flatMap.mpr ⟨p, hp, (mem_fields_iff (subBuilder_of_guarded hs)).mpr
    (Or.inr ⟨by rw [hs]; rfl, rfl⟩)⟩, rfl⟩

/-- A field that keeps a builder is no field that records a setting. -/
theorem fieldName_ne_flagName (hb : b.IsFor set) (hp : p ∈ b.properties) (hs : p.subBuilder = some s)
    (name : String) : s.fieldName ≠ SubBuilder.flagName name := by
  intro h
  have h := congrArg (·.toList.getLast?) h
  have hbuilder : "Builder".toList.getLast? = some 'r' := rfl
  have hset : "Set".toList.getLast? = some 't' := rfl
  simp only [SubBuilder.fieldName, SubBuilder.flagName, (hb.subBuilders p hp s hs).2.2,
    String.toList_append, List.getLast?_append, hbuilder, hset, Option.some_or] at h
  exact absurd h (by decide)

variable {α : Type}

/-- The first value of a field. -/
def firstValue (q : Property) : Value α := (q.initializer.bind constant?).getD .null

theorem firstValue_spec {q : Property} (hq : q ∈ p.fields) :
    q.initializer.bind constant? = some (firstValue q : Value α) := by
  cases hs : p.subBuilder with
  | none =>
    rw [BuilderProperty.fields, hs] at hq
    cases hq
  | some s =>
    rcases (mem_fields_iff hs).mp hq with rfl | ⟨-, rfl⟩ <;> rfl

theorem firstValues (b : BuilderModel) : (b.properties.flatMap (·.fields)).mapM (fun q => do
      let v ← q.initializer.bind constant?
      some (q.name, v)) =
    some ((b.properties.flatMap (·.fields)).map fun q => (q.name, (firstValue q : Value α))) := by
  have hall : ∀ q ∈ b.properties.flatMap (·.fields),
      q.initializer.bind constant? = some (firstValue q : Value α) := by
    intro q hq
    obtain ⟨p, -, hq⟩ := List.mem_flatMap.mp hq
    exact firstValue_spec hq
  generalize b.properties.flatMap (·.fields) = fields at hall
  induction fields with
  | nil => rfl
  | cons q fields ih =>
    obtain ⟨hq, hfields⟩ := List.forall_mem_cons.mp hall
    rw [List.mapM_cons, ih hfields, hq]
    rfl

/-- What a builder is given values for has no generated name. -/
theorem lookup_given_eq_none (hnames : ∀ p ∈ b.properties, p.name ∉ generatedNames b)
    {given : List (String × Value α)} (hgiven : given.map Prod.fst = b.properties.map (·.name))
    {n : String} (hn : n ∈ generatedNames b) : given.lookup n = none := by
  refine lookup_eq_none_of_forall fun entry hentry heq => ?_
  have hmem : entry.1 ∈ b.properties.map (·.name) := hgiven ▸ List.mem_map_of_mem hentry
  obtain ⟨p, hp, hname⟩ := List.mem_map.mp hmem
  exact hnames p hp (hname.trans heq ▸ hn)

theorem lookup_firstValues_field (hb : b.IsFor set) (hp : p ∈ b.properties)
    (hs : p.subBuilder = some s) :
    ((b.properties.flatMap (·.fields)).map fun q => (q.name, (firstValue q : Value α))).lookup
      s.fieldName = some .null := by
  refine lookup_of_forall (List.mem_map.mpr ⟨_, List.mem_flatMap.mpr
    ⟨p, hp, (mem_fields_iff hs).mpr (Or.inl rfl)⟩, rfl⟩) fun w hw => ?_
  obtain ⟨q, hq, heq⟩ := List.mem_map.mp hw
  obtain ⟨hname, rfl⟩ := Prod.mk.inj heq
  obtain ⟨p', -, hq⟩ := List.mem_flatMap.mp hq
  cases hs' : p'.subBuilder with
  | none =>
    rw [BuilderProperty.fields, hs'] at hq
    cases hq
  | some s' =>
    rcases (mem_fields_iff hs').mp hq with rfl | ⟨-, rfl⟩
    · rfl
    · exact absurd hname.symm (fieldName_ne_flagName hb hp hs p'.name)

theorem lookup_firstValues_flag (hb : b.IsFor set) (hp : p ∈ b.properties)
    (hs : p.guarded? = some s) :
    ((b.properties.flatMap (·.fields)).map fun q => (q.name, (firstValue q : Value α))).lookup
      (SubBuilder.flagName p.name) = some (.truth false) := by
  refine lookup_of_forall (List.mem_map.mpr ⟨_, List.mem_flatMap.mpr
    ⟨p, hp, (mem_fields_iff (subBuilder_of_guarded hs)).mpr (Or.inr ⟨by rw [hs]; rfl, rfl⟩)⟩, rfl⟩)
    fun w hw => ?_
  obtain ⟨q, hq, heq⟩ := List.mem_map.mp hw
  obtain ⟨hname, rfl⟩ := Prod.mk.inj heq
  obtain ⟨p', hp', hq⟩ := List.mem_flatMap.mp hq
  cases hs' : p'.subBuilder with
  | none =>
    rw [BuilderProperty.fields, hs'] at hq
    cases hq
  | some s' =>
    rcases (mem_fields_iff hs').mp hq with rfl | ⟨-, rfl⟩
    · exact absurd hname (fieldName_ne_flagName hb hp' hs' p.name)
    · rfl

end Fields

/-! ### Objects of a builder -/

section Builder

variable {α : Type}

/-- The object is a builder with these values that no other builder has been asked for. -/
structure IsBuilder (c : ClassModel) (b : BuilderModel) (values : String → Value α)
    (o : Object α) : Prop where
  cls : o.cls = c.builderClass b
  values : ∀ p ∈ b.properties, o.fields.lookup p.name = some (values p.name)
  builders : ∀ p ∈ b.properties, ∀ s, p.subBuilder = some s →
    o.fields.lookup s.fieldName = some .null
  flags : ∀ p ∈ b.properties, p.guarded?.isSome = true →
    (o.fields.lookup (SubBuilder.flagName p.name)).isSome = true

/-- The object of a value class with these values. -/
def instanceOf (c : ClassModel) (values : String → Value α) : Object α :=
  ⟨c.cls, c.properties.properties.map fun p => (p.name, values p.name)⟩

variable {c : ClassModel} {b : BuilderModel} {values : String → Value α} {o : Object α}
  {p : BuilderProperty} {s : SubBuilder} {v : Value α}

/-- Recording that a property was set changes no value. -/
theorem IsBuilder.set_flag (h : IsBuilder c b values o) (hb : b.IsFor c.properties)
    (hnames : ∀ p ∈ b.properties, p.name ∉ generatedNames b) (hp : p ∈ b.properties)
    (hs : p.guarded? = some s) (v : Value α) :
    IsBuilder c b values (o.set (SubBuilder.flagName p.name) v) where
  cls := h.cls
  values q hq := by
    rw [Object.lookup_set, if_neg, h.values q hq]
    exact fun heq => hnames q hq (heq ▸ flagName_mem hp hs)
  builders q hq s' hs' := by
    rw [Object.lookup_set, if_neg (fieldName_ne_flagName hb hq hs' p.name), h.builders q hq s' hs']
  flags q hq hguarded := by
    rw [Object.lookup_set]
    split
    · simpa using h.flags q hq hguarded
    · exact h.flags q hq hguarded

/-- Setting a property changes its value only. -/
theorem IsBuilder.set_value (h : IsBuilder c b values o)
    (hnames : ∀ p ∈ b.properties, p.name ∉ generatedNames b) (hp : p ∈ b.properties)
    (v : Value α) : IsBuilder c b (Function.update values p.name v) (o.set p.name v) where
  cls := h.cls
  values q hq := by
    rw [Object.lookup_set, h.values q hq]
    by_cases hname : q.name = p.name
    · rw [if_pos hname, hname, Function.update_self]
      rfl
    · rw [if_neg hname, Function.update_of_ne hname]
  builders q hq s' hs' := by
    rw [Object.lookup_set, if_neg, h.builders q hq s' hs']
    exact fun heq => hnames p hp (heq ▸ fieldName_mem hq hs')
  flags q hq hguarded := by
    rw [Object.lookup_set]
    split
    · simpa using h.flags q hq hguarded
    · exact h.flags q hq hguarded

/-- A new builder with all values. -/
theorem isBuilder_new (hb : b.IsFor c.properties)
    (hnames : ∀ p ∈ b.properties, p.name ∉ generatedNames b) :
    IsBuilder c b values ⟨c.builderClass b,
      (b.properties.map (·.name)).map (fun n => (n, values n)) ++
        (b.properties.flatMap (·.fields)).map fun q => (q.name, firstValue q)⟩ := by
  have hkeys : ((b.properties.map (·.name)).map fun n => (n, values n)).map Prod.fst =
      b.properties.map (·.name) := by
    rw [List.map_map]
    exact List.map_id _
  have hgenerated {n : String} (hn : n ∈ generatedNames b) := lookup_given_eq_none hnames hkeys hn
  refine ⟨rfl, fun p hp => ?_, fun p hp s hs => ?_, fun p hp hguarded => ?_⟩
  · have hvalue := lookup_map_of_mem BuilderProperty.name values hp
    rw [List.map_map, List.lookup_append]
    exact (congrArg (Option.or · _) hvalue).trans Option.some_or
  · rw [List.lookup_append, hgenerated (fieldName_mem hp hs), Option.none_or]
    exact lookup_firstValues_field hb hp hs
  · obtain ⟨s, hs⟩ := Option.isSome_iff_exists.mp hguarded
    rw [List.lookup_append, hgenerated (flagName_mem hp hs), Option.none_or,
      lookup_firstValues_flag hb hp hs]
    rfl

end Builder

section Flow

variable {α : Type} {P : Program α} {send : Value α → String → List (Value α) → Run α (Value α)}
  {sc : Scope α} {heap heap' heap'' : Heap α} {v w : Value α}

theorem gives_value {head : Head} {suffixes : List Suffix}
    (h : Gives (head.eval P send sc) heap v heap')
    (h' : Gives (Suffix.evalAll P send sc v suffixes) heap' w heap'') :
    Gives (Expr.eval P send sc (.value head suffixes)) heap w heap'' := by
  rw [Expr.eval]
  exact h.bind h'

theorem gives_noSuffixes : Gives (Suffix.evalAll P send sc v []) heap v heap := by
  rw [Suffix.evalAll]
  exact gives_pure

theorem gives_orElse {head : Head} {suffixes : List Suffix} {other : Expr} {v : Value α}
    (h : Gives (head.eval P send sc) heap v heap')
    (h' : Gives (Suffix.evalAll P send sc v suffixes) heap' w heap'') (hw : w ≠ .null) :
    Gives (Expr.eval P send sc (.orElse head suffixes other)) heap w heap'' := by
  rw [Expr.eval]
  refine h.bind (h'.bind ?_)
  rw [if_neg fun hnull => hw (Value.isNull_iff.mp hnull)]
  exact gives_pure

theorem gives_orElse_other {head : Head} {suffixes : List Suffix} {other : Expr} {v u : Value α}
    {heap₁ : Heap α} (h : Gives (head.eval P send sc) heap v heap')
    (h' : Gives (Suffix.evalAll P send sc v suffixes) heap' .null heap'')
    (hother : Gives (other.eval P send sc) heap'' u heap₁) :
    Gives (Expr.eval P send sc (.orElse head suffixes other)) heap u heap₁ := by
  rw [Expr.eval]
  exact h.bind (h'.bind hother)

theorem gives_name {n : String} (h : Gives (sc.find n) heap v heap) :
    Gives (Head.eval P send sc (.name n)) heap v heap := by
  rw [Head.eval]
  exact h

/-- Nothing is asked of null. -/
theorem gives_sendNull {f : String} {args : List Argument} :
    Gives (Suffix.evalAll P send sc .null [.send true f args]) heap .null heap := by
  rw [Suffix.evalAll, Suffix.eval]
  exact gives_pure.bind gives_noSuffixes

theorem gives_call {f : String} (h : Gives (send sc.self f []) heap v heap') :
    Gives (Head.eval P send sc (.call f [])) heap v heap' := by
  rw [Head.eval, Argument.evalAll]
  exact gives_pure.bind ((gives_orStuck rfl).bind h)

theorem gives_giveBack {e : Expr} {steps : List Step} (h : Gives (e.eval P send sc) heap v heap') :
    Gives (runSteps P send sc (.giveBack e :: steps)) heap (some v) heap' := by
  rw [runSteps]
  exact h.bind gives_pure

theorem gives_named {n : String} (h : Gives (sc.find n) heap v heap) :
    Gives (Expr.eval P send sc (named n)) heap v heap :=
  gives_value (gives_name h) gives_noSuffixes

theorem gives_labelled {label : Option String} {e : Expr} (h : Gives (e.eval P send sc) heap v heap') :
    Gives (Argument.eval P send sc (.mk label e)) heap (label, v) heap' := by
  rw [Argument.eval]
  exact h.bind gives_pure

theorem gives_oneArgument {label : Option String} {n : String} (h : Gives (sc.find n) heap v heap) :
    Gives (Argument.evalAll P send sc [.mk label (named n)]) heap [(label, v)] heap := by
  rw [Argument.evalAll, Argument.evalAll]
  exact (gives_labelled (gives_named h)).bind (gives_pure.bind gives_pure)

/-- A property that is passed on by its name. -/
theorem gives_forwarded {c : ClassModel} {values : String → Value α} {a : Nat} {onSelf : Bool}
    (hself : sc.self = .object a) (hlocals : onSelf = true ∨ sc.locals = [])
    (ho : heap[a]? = some (instanceOf c values)) {p : ValueProperty}
    (hp : p ∈ c.properties.properties) :
    Gives (Argument.eval P send sc (forwarded onSelf p.name)) heap (some p.name, values p.name)
      heap := by
  have hvalue := lookup_map_of_mem ValueProperty.name values hp
  refine gives_labelled ?_
  cases onSelf with
  | true =>
    refine gives_value (v := sc.self) (by rw [Head.eval]; exact gives_pure) ?_
    rw [Suffix.evalAll, Suffix.eval, hself]
    exact (gives_readField ho hvalue).bind gives_noSuffixes
  | false =>
    have hnone : sc.locals.lookup p.name = none := by
      rw [hlocals.resolve_left (by decide)]
      rfl
    exact gives_named (gives_ownField hself hnone ho hvalue)

variable (P send sc) in
/-- A new builder with the values of an object. -/
theorem gives_builderHead {c : ClassModel} {b : BuilderModel} (hb : b.IsFor c.properties)
    (hnames : ∀ p ∈ b.properties, p.name ∉ generatedNames b) {decl : TypeDecl}
    (hdecl : b.toDeclaration c.cls = .ok decl) (hclass : P.classes (c.builderClass b) = some decl)
    {values : String → Value α} {a : Nat} (onSelf : Bool)
    (hself : sc.self = .object a) (hlocals : onSelf = true ∨ sc.locals = [])
    (ho : heap[a]? = some (instanceOf c values)) :
    ∃ o, IsBuilder c b values o ∧
      Gives (Head.eval P send sc (builderHead c b onSelf)) heap (.object heap.length)
        (heap ++ [o]) := by
  obtain ⟨zeros, hzeros, -, -, ⟨modifiers, hconstructor⟩, hfields, -⟩ :=
    BuilderModel.toDeclaration_spec hdecl
  have hparameters : (zeros.map fun p => p.1.constructorVariable p.2).map (·.property.name) =
      b.properties.map (·.name) := by
    rw [← hzeros, List.map_map, List.map_map]
    rfl
  have hargs : Gives (Argument.evalAll P send sc
      (c.properties.properties.map fun p => forwarded onSelf p.name)) heap
        ((b.properties.map (·.name)).map fun n => (some n, values n)) heap := by
    rw [hb.names, List.map_map]
    exact gives_arguments fun p hp => gives_forwarded hself hlocals ho hp
  refine ⟨_, isBuilder_new hb hnames, gives_make hclass hconstructor hparameters ?_ hargs⟩
  rw [hfields]
  exact firstValues b

end Flow

/-! ### Declared classes -/

section Declared

variable {α : Type} {P : Program α} {c : ClassModel} {d : TypeDecl} {b : BuilderModel}
  {heap : Heap α} {k depth : Nat} {o : Object α} {values : String → Value α}

/-- The program has the class and its builder, and calls that give a builder or finish a value lead
to one function. -/
structure Declares (P : Program α) (c : ClassModel) (d : TypeDecl) : Prop where
  toDeclaration : c.toDeclaration = .ok d
  self : P.classes c.cls = some d
  nested : ∀ t ∈ d.types, t.kind = .classDecl → P.classes (c.cls.nested t.name) = some t
  clear : ∀ f ∈ c.toBuilders, IsClear d f.name
  clearNested : ∀ b, c.builder = some b → ∀ t ∈ d.types, t.kind = .classDecl →
    IsClear t b.finalizeMethod.name ∧ IsClear t b.buildCall

theorem Declares.builder (h : Declares P c d) (hb : c.builder = some b) :
    ∃ decl, b.toDeclaration c.cls = .ok decl ∧ P.classes (c.builderClass b) = some decl ∧
      IsClear decl b.finalizeMethod.name ∧ IsClear decl b.buildCall := by
  obtain ⟨-, -, -, hbuilder, -⟩ := ClassModel.toDeclaration_spec h.toDeclaration
  obtain ⟨decl, hmem, hdecl⟩ := hbuilder b hb
  obtain ⟨-, -, hname, hkind, -⟩ := BuilderModel.toDeclaration_spec hdecl
  refine ⟨decl, hdecl, ?_, h.clearNested b hb decl hmem hkind⟩
  rw [ClassModel.builderClass, ← hname]
  exact h.nested decl hmem hkind

/-- The argument for a property when the value is finished. -/
theorem gives_builtArgument {send : Value α → String → List (Value α) → Run α (Value α)}
    {sc : Scope α} (hself : sc.self = .object k) (hlocals : sc.locals = [])
    (ho : heap[k]? = some o) (hbuilder : IsBuilder c b values o) {p : BuilderProperty}
    (hp : p ∈ b.properties) (hvalue : p.type.isNullable = false → values p.name ≠ .null)
    (zero : Option Code) :
    Gives (Argument.eval P send sc (builtArgument p zero)) heap (some p.name, values p.name) heap := by
  have hlocal (n : String) : sc.locals.lookup n = none := by
    rw [hlocals]
    rfl
  have hname : Gives (sc.find p.name) heap (values p.name) heap :=
    gives_ownField hself (hlocal _) ho (hbuilder.values p hp)
  have hgiven : Gives (Expr.eval P send sc (if zero.isNone && !p.type.isNullable then
      .orElse (.name p.name) [] (.value (.fail (.value (.text (p.name ++ " == null")) [])) [])
    else named p.name)) heap (values p.name) heap := by
    split
    · next hneeded =>
      simp only [Bool.and_eq_true, Bool.not_eq_true'] at hneeded
      exact gives_orElse (gives_name hname) gives_noSuffixes (hvalue hneeded.2)
    · exact gives_named hname
  refine gives_labelled ?_
  cases hs : p.subBuilder with
  | none => exact hgiven
  | some s =>
    -- no other builder was asked for
    have hnull : Gives (sc.find s.fieldName) heap .null heap :=
      gives_ownField hself (hlocal _) ho (hbuilder.builders p hp s hs)
    exact gives_orElse_other (gives_name hnull) gives_sendNull hgiven

theorem gives_finalize (h : Declares P c d) (hb : b.IsFor c.properties)
    (ho : heap[k]? = some o) (hbuilder : IsBuilder c b values o)
    (hvalues : ∀ p ∈ b.properties, p.type.isNullable = false → values p.name ≠ .null)
    {zeros : List (BuilderProperty × Option Code)} (hzeros : zeros.map (·.1) = b.properties) :
    Gives (P.run (depth + 1)
      (b.finalizeFunction c.cls (zeros.map fun p => p.1.argument p.2)) (.object k) []) heap
        (.object heap.length) (heap ++ [instanceOf c values]) := by
  obtain ⟨⟨constructor, hconstructor, hnames⟩, hproperties, -⟩ :=
    ClassModel.toDeclaration_spec h.toDeclaration
  have hargs : Gives (Argument.evalAll P (P.send depth) ⟨.object k, []⟩
      (zeros.map fun p => builtArgument p.1 p.2)) heap
        ((c.properties.properties.map (·.name)).map fun n => (some n, values n)) heap := by
    rw [← hb.names, ← hzeros, List.map_map, List.map_map]
    refine gives_arguments fun p hp => ?_
    have hp : p.1 ∈ b.properties := hzeros ▸ List.mem_map_of_mem hp
    exact gives_builtArgument rfl rfl ho hbuilder hp (hvalues p.1 hp) p.2
  have hothers : d.properties.mapM (fun p => do
      let v ← p.initializer.bind constant?
      some (p.name, v)) = some ([] : List (String × Value α)) := by
    rw [hproperties]
    rfl
  have hmade := gives_make h.self hconstructor hnames hothers hargs
  rw [List.append_nil, List.map_map] at hmade
  have hbind : bind? (b.finalizeFunction c.cls (zeros.map fun p => p.1.argument p.2)).parameters [] =
      some ([] : List (String × Value α)) := by
    rw [BuilderModel.finalizeFunction, Function.doing, hb.finalizeMethod.2]
    rfl
  exact gives_run hbind (stepsOf?_finalizeFunction hb zeros)
    (gives_giveBack (gives_value hmade gives_noSuffixes))

variable (depth) in
/-- Users of a builder get the value from it. -/
theorem gives_build (h : Declares P c d) (hcb : c.builder = some b) (hb : b.IsFor c.properties)
    (ho : heap[k]? = some o) (hbuilder : IsBuilder c b values o)
    (hvalues : ∀ p ∈ b.properties, p.type.isNullable = false → values p.name ≠ .null) :
    Gives (P.send (depth + 2) (.object k) b.buildCall []) heap (.object heap.length)
      (heap ++ [instanceOf c values]) := by
  obtain ⟨decl, hdecl, hclass, hfinal, hcall⟩ := h.builder hcb
  obtain ⟨zeros, hzeros, -, -, -, -, hfunctions⟩ := BuilderModel.toDeclaration_spec hdecl
  rw [← hbuilder.cls] at hclass
  -- the abstract method gives the value itself
  have hmem : b.finalizeFunction c.cls (zeros.map fun p => p.1.argument p.2) ∈ decl.functions := by
    rw [hfunctions]
    simp
  have hresolve : P.resolve decl b.finalizeMethod.name 0 = some
      (b.finalizeFunction c.cls (zeros.map fun p => p.1.argument p.2)) :=
    resolve_of_isClear hfinal hmem rfl hb.finalizeMethod.2
  have hfinalize (depth : Nat) : Gives (P.send (depth + 1) (.object k) b.finalizeMethod.name []) heap
      (.object heap.length) (heap ++ [instanceOf c values]) :=
    (send_eq ho hclass hresolve).trans (gives_finalize h hb ho hbuilder hvalues hzeros)
  cases hhook : b.buildMethod with
  | none =>
    rw [BuilderModel.buildCall, hhook]
    exact hfinalize (depth + 1)
  | some hook =>
    rw [BuilderModel.buildCall, hhook] at hcall ⊢
    obtain ⟨f, hf, hname, hparameters⟩ : ∃ f, b.buildFunction? = some f ∧ f.name = hook.name ∧
        f.parameters = [] := by
      rw [BuilderModel.buildFunction?, hhook]
      exact ⟨_, rfl, rfl, (hb.buildMethod hook hhook).2⟩
    have hmem : f ∈ decl.functions := by
      rw [hfunctions, hf]
      simp
    refine (send_eq ho hclass (resolve_of_isClear hcall hmem hname hparameters)).trans ?_
    exact gives_run (by rw [hparameters]; rfl) (stepsOf?_buildFunction hb hf)
      (gives_giveBack (gives_value (gives_call (hfinalize depth)) gives_noSuffixes))

end Declared

end DataClassGen.Meaning
