import DataClassGen.Proofs.Model.Members

/-!
# Overloads

Functions of one name in one class must take different parameters. Methods of one name do, so that
the functions they become differ as well, unless converting them takes the difference away. There
are few ways in which it can. A function that changes a property takes the property, whatever its
method took. The operator that takes all the properties has one name whatever the name of its
method. Where an array stands for any number of arguments, only the type of its components is left,
which is the same for a primitive type and the class that boxes it. And the function that lists the
methods to be moved by hand has a name that a method may have too. All other functions are told
apart as their methods are (`overloads_differ_iff`). -/

namespace DataClassGen

open Source

/-- The name of the function with the types and modifiers of its parameters. -/
def Source.Function.overload (f : Function) : String × List (TypeName × List DeclModifier) :=
  (f.name, f.parameters.map fun p => (p.type, p.modifiers))

/-- No two functions of the type have one name and equal parameters. -/
def Source.TypeDecl.OverloadsDiffer (t : TypeDecl) : Prop := (t.functions.map (·.overload)).Nodup

instance (t : TypeDecl) : Decidable t.OverloadsDiffer :=
  inferInstanceAs (Decidable (t.functions.map (·.overload)).Nodup)

/-- Two functions, where there are both, differ in their names or parameters. -/
def DifferIfBoth (f? g? : Option Function) : Prop :=
  ∀ f, f? = some f → ∀ g, g? = some g → f.overload ≠ g.overload

theorem differIfBoth_iff {f? g? : Option Function} {P : Prop}
    (h : ∀ f g, f? = some f → g? = some g → (f.overload ≠ g.overload ↔ P)) :
    DifferIfBoth f? g? ↔ (f?.isSome → g?.isSome → P) := by
  simp only [Option.isSome_iff_exists, forall_exists_index]
  exact forall_congr' fun f => forall_congr' fun hf => forall_congr' fun g =>
    forall_congr' fun hg => h f g hf hg

/-- The functions of members differ if those of any two do. -/
theorem nodup_overloads_iff {α : Type} {function? : α → Option Function} {members : List α}
    {R : α → α → Prop}
    (h : members.Pairwise fun p q => DifferIfBoth (function? p) (function? q) ↔ R p q) :
    ((members.filterMap function?).map (·.overload)).Nodup ↔ members.Pairwise R := by
  rw [List.Nodup, List.pairwise_map, List.pairwise_filterMap]
  constructor
  · intro hdiffer
    exact (h.and hdiffer).imp fun ⟨hiff, hdiffer⟩ => hiff.mp hdiffer
  · intro hR
    exact (h.and hR).imp fun ⟨hiff, hR⟩ => hiff.mpr hR

/-- With a function more that lists the methods to be moved by hand, functions differ if they do and
none has its name and takes nothing. -/
theorem nodup_overloads_placeholder_iff (functions : List Function) (unrecognized : List String) :
    ((functions ++ (placeholder? unrecognized).toList).map (·.overload)).Nodup ↔
      (functions.map (·.overload)).Nodup ∧
        (unrecognized ≠ [] → ∀ f ∈ functions, f.overload ≠ ("placeholder", [])) := by
  cases unrecognized with
  | nil => simp [placeholder?]
  | cons signature rest =>
    obtain ⟨g, hg, hover⟩ : ∃ g, placeholder? (signature :: rest) = some g ∧
      g.overload = ("placeholder", []) := ⟨_, rfl, rfl⟩
    simp [hg, List.nodup_append, hover]

/-- The bodies make no difference. -/
theorem map_overload_withoutBody (functions : List Function) :
    (functions.map Function.withoutBody).map (·.overload) = functions.map (·.overload) :=
  List.map_map

/-- Functions with one signature have one overload. -/
theorem Source.Function.SameSignature.overload_eq {f g : Function} (h : f.SameSignature g) :
    f.overload = g.overload := by
  rw [overload, overload, h.name, h.parameters]

/-! ### Methods -/

namespace Method

/-- The types of the parameters as they are converted one by one. -/
def parameterTypes (m : Method) : Except Failure (List TypeName) := do
  return (← m.parameters.mapM Variable.toParameter).map (·.type)

/-- The methods have one name and parameters of the same types. -/
def Clashes (m m' : Method) : Prop :=
  m.name = m'.name ∧ ∃ types, m.parameterTypes = .ok types ∧ m'.parameterTypes = .ok types

/-- The types of the arguments: where the last parameter stands for any number of them, the type of
its components. -/
def argumentTypes (m : Method) : Except Failure (List TypeName) := do
  let types ← m.parameterTypes
  return if m.isVarargs then
    types.dropLast ++ types.getLast?.toList.map fun t => (componentOf? t).getD t
  else types

/-- A function with the parameters of one method takes the parameters of the other. -/
def TakesAs (m m' : Method) : Prop :=
  ∃ types, m.argumentTypes = .ok types ∧ m'.argumentTypes = .ok types ∧
    (m.isVarargs = m'.isVarargs ∨ types = [])

/-- The methods have one name and take any number of arguments of the same types. -/
def Merges (m m' : Method) : Prop :=
  m.name = m'.name ∧ m.isVarargs = true ∧ m'.isVarargs = true ∧
    ∃ types, m.argumentTypes = .ok types ∧ m'.argumentTypes = .ok types

theorem parameterTypes_of_parameters_eq_nil {m : Method} (h : m.parameters = []) :
    m.parameterTypes = .ok [] := by
  rw [parameterTypes, h]
  rfl

theorem clashes_of_parameters_eq_nil {m m' : Method} (hname : m.name = m'.name)
    (h : m.parameters = []) (h' : m'.parameters = []) : m.Clashes m' :=
  ⟨hname, [], parameterTypes_of_parameters_eq_nil h, parameterTypes_of_parameters_eq_nil h'⟩

end Method

/-- Types of arguments with the modifiers of their parameters. -/
def withVararg (isVarargs : Bool) (types : List TypeName) : List (TypeName × List DeclModifier) :=
  if isVarargs then
    types.dropLast.map (·, []) ++ types.getLast?.toList.map (·, [.vararg])
  else types.map (·, [])

theorem map_fst_withVararg (isVarargs : Bool) (types : List TypeName) :
    (withVararg isVarargs types).map (·.1) = types := by
  have hfirst (modifiers : List DeclModifier) (ts : List TypeName) :
      (ts.map (·, modifiers)).map (·.1) = ts := List.map_map.trans (List.map_id ts)
  rw [withVararg]
  split
  · rw [List.map_append, hfirst, hfirst]
    cases types using List.reverseRecOn with
    | nil => rfl
    | append_singleton types t => simp
  · exact hfirst [] types

theorem getLast?_withVararg (isVarargs : Bool) (types : List TypeName) :
    (withVararg isVarargs types).getLast? =
      types.getLast?.map fun t => (t, if isVarargs then [.vararg] else []) := by
  cases types using List.reverseRecOn with
  | nil => cases isVarargs <;> rfl
  | append_singleton types t => cases isVarargs <;> simp [withVararg]

/-- The types tell one list of parameters from another, and the modifier of the last where there is
one. -/
theorem withVararg_eq_iff (isVarargs isVarargs' : Bool) (types types' : List TypeName) :
    withVararg isVarargs types = withVararg isVarargs' types' ↔
      types = types' ∧ (isVarargs = isVarargs' ∨ types = []) := by
  constructor
  · intro h
    have htypes := congrArg (List.map (·.1)) h
    rw [map_fst_withVararg, map_fst_withVararg] at htypes
    subst htypes
    refine ⟨rfl, ?_⟩
    have hlast := congrArg List.getLast? h
    rw [getLast?_withVararg, getLast?_withVararg] at hlast
    cases htypes : types.getLast? with
    | none => exact Or.inr (List.getLast?_eq_none_iff.mp htypes)
    | some t =>
      rw [htypes] at hlast
      cases isVarargs <;> cases isVarargs' <;> simp at hlast ⊢
  · rintro ⟨rfl, rfl | rfl⟩
    · rfl
    · cases isVarargs <;> cases isVarargs' <;> rfl

theorem Variable.modifiers_of_toParameter {v : Variable} {p : Parameter}
    (h : v.toParameter = .ok p) : p.modifiers = [] := by
  obtain ⟨type, -, h⟩ := bind_ok_iff.mp h
  rw [← Except.ok.inj h]

/-- Parameters without modifiers are known by their types. -/
theorem map_bare {parameters : List Parameter} (h : ∀ p ∈ parameters, p.modifiers = []) :
    parameters.map (fun p => (p.type, p.modifiers)) = (parameters.map (·.type)).map (·, []) := by
  rw [List.map_map]
  exact List.map_congr_left fun p hp => congrArg (p.type, ·) (h p hp)

theorem lastVararg_eq (parameters : List Parameter) :
    lastVararg parameters =
      parameters.dropLast ++ parameters.getLast?.toList.map Parameter.toVararg := by
  fun_induction lastVararg parameters with
  | case1 => rfl
  | case2 p => rfl
  | case3 p rest hrest ih =>
    obtain ⟨q, rest, rfl⟩ := List.exists_cons_of_ne_nil hrest
    rw [ih]
    simp

theorem length_lastVararg (parameters : List Parameter) :
    (lastVararg parameters).length = parameters.length := by
  fun_induction lastVararg parameters with
  | case1 => rfl
  | case2 p => rfl
  | case3 p rest hrest ih => rw [List.length_cons, List.length_cons, ih]

namespace Method

variable {m m' : Method} {f f' : Function}

/-- What the function of a method takes. -/
theorem overload_of_toFunction (h : m.toFunction = .ok f) :
    ∃ types, m.argumentTypes = .ok types ∧ f.overload = (m.name, withVararg m.isVarargs types) := by
  obtain ⟨hname, -, parameters, hparameters, hf⟩ := signature_of_toFunction h
  have htypes : m.parameterTypes = .ok (parameters.map (·.type)) :=
    bind_ok_iff.mpr ⟨parameters, hparameters, rfl⟩
  have hbare : ∀ p ∈ parameters, p.modifiers = [] := by
    intro p hp
    obtain ⟨v, -, hv⟩ := exists_of_mem_forall₂ (forall₂_of_mapM hparameters) hp
    exact Variable.modifiers_of_toParameter hv
  refine ⟨_, bind_ok_iff.mpr ⟨_, htypes, rfl⟩, Prod.ext hname ?_⟩
  rw [Function.overload, hf]
  cases m.isVarargs with
  | false => exact map_bare hbare
  | true =>
    cases parameters using List.reverseRecOn with
    | nil => rfl
    | append_singleton parameters p =>
      obtain ⟨hinit, hlast⟩ := List.forall_mem_append.mp hbare
      simp [lastVararg_eq, withVararg, Parameter.toVararg, map_bare hinit,
        hlast p (List.mem_singleton_self p)]

/-- The functions of methods take the same just when the methods say so. -/
theorem takesAs_iff (h : m.toFunction = .ok f) (h' : m'.toFunction = .ok f') :
    f.overload.2 = f'.overload.2 ↔ m.TakesAs m' := by
  obtain ⟨types, htypes, hf⟩ := overload_of_toFunction h
  obtain ⟨types', htypes', hf'⟩ := overload_of_toFunction h'
  rw [hf, hf', withVararg_eq_iff]
  constructor
  · rintro ⟨rfl, hflags⟩
    exact ⟨types, htypes, htypes', hflags⟩
  · rintro ⟨both, hboth, hboth', hflags⟩
    obtain rfl := Except.ok.inj (htypes.symm.trans hboth)
    obtain rfl := Except.ok.inj (htypes'.symm.trans hboth')
    exact ⟨rfl, hflags⟩

theorem parameterTypes_eq_argumentTypes (h : m.isVarargs = false) :
    m.parameterTypes = m.argumentTypes := by
  rw [argumentTypes, h]
  exact (bind_pure _).symm

theorem parameterTypes_eq_nil (h : m.argumentTypes = .ok []) : m.parameterTypes = .ok [] := by
  obtain ⟨types, htypes, h⟩ := bind_ok_iff.mp h
  have h := Except.ok.inj h
  split at h
  · cases types using List.reverseRecOn with
    | nil => exact htypes
    | append_singleton types t => simp at h
  · exact h ▸ htypes

/-- Methods that do not clash have functions that do not, unless both take any number of arguments
of the same types. -/
theorem overload_eq_iff (hclash : ¬m.Clashes m') (h : m.toFunction = .ok f)
    (h' : m'.toFunction = .ok f') : f.overload = f'.overload ↔ m.Merges m' := by
  have hname : f.overload.1 = m.name := (signature_of_toFunction h).1
  have hname' : f'.overload.1 = m'.name := (signature_of_toFunction h').1
  rw [Prod.ext_iff, takesAs_iff h h', hname, hname']
  constructor
  · rintro ⟨hname, types, htypes, htypes', hflags | rfl⟩
    · cases hvararg : m.isVarargs with
      | true => exact ⟨hname, hvararg, hflags ▸ hvararg, types, htypes, htypes'⟩
      | false =>
        exact absurd ⟨hname, types, (parameterTypes_eq_argumentTypes hvararg).trans htypes,
          (parameterTypes_eq_argumentTypes (hflags ▸ hvararg)).trans htypes'⟩ hclash
    · exact absurd ⟨hname, [], parameterTypes_eq_nil htypes, parameterTypes_eq_nil htypes'⟩ hclash
  · rintro ⟨hname, hvararg, hvararg', types, htypes, htypes'⟩
    exact ⟨hname, types, htypes, htypes', Or.inl (hvararg.trans hvararg'.symm)⟩

/-- The function of a method differs from one with this name that takes nothing if it takes
something or has another name. -/
theorem overload_ne_iff (h : m.toFunction = .ok f) (name : String) :
    f.overload ≠ (name, []) ↔ (m.name = name → m.parameters ≠ []) := by
  obtain ⟨hname, -, parameters, hparameters, hf⟩ := signature_of_toFunction h
  have hnil : f.parameters = [] ↔ m.parameters = [] := by
    rw [← List.length_eq_zero_iff, ← List.length_eq_zero_iff,
      (forall₂_of_mapM hparameters).length_eq, hf, apply_ite List.length, length_lastVararg,
      ite_self]
  rw [Function.overload, hname, Ne, Prod.mk.injEq, List.map_eq_nil_iff, hnil]
  exact not_and

end Method

/-! ### Members of a class -/

namespace ClassEntry

variable {c : ClassModel} {m m' : Method} {e e' : ClassEntry} {f f' : Function}

/-- A function that changes a property takes that, which its name tells. -/
theorem IsFor.overload_wither (h : e.IsFor c m) (hf : e.wither? = some f) :
    e.bodyFunction? = some f ∧ ∃ rest p, Text.after? "with" m.name = some rest ∧
      c.properties.find? (lowercaseFirst rest) = some p ∧
      f.overload = (m.name, [(p.type, [])]) := by
  cases e with
  | wither g =>
    obtain ⟨rest, p, selfType, hrest, hp, rfl⟩ := h
    obtain rfl := Option.some.inj hf
    exact ⟨rfl, rest, p, hrest, hp, rfl⟩
  | _ => cases hf

/-- Any other function in the class takes nothing, as its method does. -/
theorem IsFor.overload_body (h : e.IsFor c m) (haccessor : e.property?.isSome → m.parameters = [])
    (hf : e.bodyFunction? = some f) :
    e.wither? = some f ∨ e.wither? = none ∧ m.parameters = [] ∧ f.overload = (m.name, []) := by
  cases e with
  | property p =>
    obtain ⟨name, hp⟩ := h
    refine Or.inr ⟨rfl, haccessor rfl, ?_⟩
    rw [← (ValueProperty.ofAccessor_spec hp).2.1]
    rw [bodyFunction?, ValueProperty.accessorFunction?] at hf
    split at hf
    · cases hf
    · split at hf
      · rw [← Option.some.inj hf]
        rfl
      · rw [← Option.some.inj hf]
        rfl
  | toBuilder g =>
    obtain ⟨b, -, hnone, plain, hplain, rfl⟩ := h
    obtain rfl := Option.some.inj hf
    obtain ⟨hname, -, parameters, hparameters, hplain⟩ := Method.signature_of_toFunction hplain
    rw [hnone] at hparameters
    obtain rfl := Except.ok.inj hparameters
    refine Or.inr ⟨rfl, hnone, Prod.ext hname ?_⟩
    rw [Function.overload, Function.doing, hplain]
    cases m.isVarargs <;> rfl
  | wither g => exact Or.inl hf
  | _ => cases hf

/-- Methods that do not clash have functions in the class that do not, unless both are there to
change a property and have one name. -/
theorem IsFor.bodyFunctions_differ_iff (h : e.IsFor c m) (h' : e'.IsFor c m')
    (haccessor : e.property?.isSome → m.parameters = [])
    (haccessor' : e'.property?.isSome → m'.parameters = []) (hclash : ¬m.Clashes m') :
    DifferIfBoth e.bodyFunction? e'.bodyFunction? ↔
      (e.wither?.isSome → e'.wither?.isSome → m.name ≠ m'.name) := by
  constructor
  · intro hdiffer hwither hwither' hname
    obtain ⟨f, hf⟩ := Option.isSome_iff_exists.mp hwither
    obtain ⟨f', hf'⟩ := Option.isSome_iff_exists.mp hwither'
    obtain ⟨hbody, rest, p, hrest, hp, hover⟩ := h.overload_wither hf
    obtain ⟨hbody', rest', p', hrest', hp', hover'⟩ := h'.overload_wither hf'
    -- the name tells the property, and with it the type
    rw [hname, hrest'] at hrest
    obtain rfl := Option.some.inj hrest
    obtain rfl := Option.some.inj (hp.symm.trans hp')
    exact hdiffer f hbody f' hbody' (by rw [hover, hover', hname])
  · intro hnames f hf f' hf' heq
    obtain hwither | ⟨-, hnil, hover⟩ := h.overload_body haccessor hf
    · obtain ⟨-, _, p, -, -, hover⟩ := h.overload_wither hwither
      obtain hwither' | ⟨-, -, hover'⟩ := h'.overload_body haccessor' hf'
      · obtain ⟨-, _, p', -, -, hover'⟩ := h'.overload_wither hwither'
        rw [hover, hover', Prod.mk.injEq] at heq
        exact hnames (Option.isSome_of_eq_some hwither) (Option.isSome_of_eq_some hwither') heq.1
      · rw [hover, hover', Prod.mk.injEq] at heq
        cases heq.2
    · obtain hwither' | ⟨-, hnil', hover'⟩ := h'.overload_body haccessor' hf'
      · obtain ⟨-, _, p', -, -, hover'⟩ := h'.overload_wither hwither'
        rw [hover, hover', Prod.mk.injEq] at heq
        cases heq.2
      · rw [hover, hover', Prod.mk.injEq] at heq
        exact hclash (Method.clashes_of_parameters_eq_nil heq.1 hnil hnil')

/-- A function in the class differs from one with this name that takes nothing if it changes a
property or has another name. -/
theorem IsFor.bodyFunction_differs_iff (h : e.IsFor c m)
    (haccessor : e.property?.isSome → m.parameters = []) (name : String) :
    (∀ f, e.bodyFunction? = some f → f.overload ≠ (name, [])) ↔
      (e.bodyFunction?.isSome → e.wither? = none → m.name ≠ name) := by
  simp only [Option.isSome_iff_exists, forall_exists_index]
  refine forall_congr' fun f => forall_congr' fun hf => ?_
  obtain hwither | ⟨hnone, -, hover⟩ := h.overload_body haccessor hf
  · obtain ⟨-, _, p, -, -, hover⟩ := h.overload_wither hwither
    rw [hover, hwither]
    exact iff_of_true (by simp) nofun
  · rw [hover, Ne, Prod.mk.injEq, and_iff_left rfl]
    exact ⟨fun hne _ => hne, fun hne => hne hnone⟩

/-- Methods that do not clash have functions of their names in the companion object that do not,
unless both take any number of arguments of the same types. -/
theorem IsFor.namedFunctions_differ_iff (h : e.IsFor c m) (h' : e'.IsFor c m')
    (hclash : ¬m.Clashes m') :
    DifferIfBoth e.namedFunction? e'.namedFunction? ↔
      (e.namedFunction?.isSome → e'.namedFunction?.isSome → ¬m.Merges m') := by
  refine differIfBoth_iff fun f f' hf hf' => not_congr ?_
  obtain ⟨g, hg, hsame⟩ := h.signature_named hf
  obtain ⟨g', hg', hsame'⟩ := h'.signature_named hf'
  rw [hsame.overload_eq, hsame'.overload_eq]
  exact Method.overload_eq_iff hclash hg hg'

/-- An operator takes the types of all the properties. -/
theorem IsFor.overload_invoke (h : e.IsFor c m) (hf : e.invoke? = some f) :
    ∃ g, m.toFunction = .ok g ∧ f.overload = ("invoke", g.overload.2) ∧
      g.overload.2 = withVararg m.isVarargs c.properties.types := by
  obtain ⟨g, hg, hname, hparameters, -, htypes⟩ := h.signature_invoke hf
  obtain ⟨types, -, hover⟩ := Method.overload_of_toFunction hg
  have hall : g.parameters.map (·.type) = types := by
    have hfirst := congrArg (List.map (·.1)) (congrArg Prod.snd hover)
    rw [map_fst_withVararg, Function.overload, List.map_map] at hfirst
    exact hfirst
  refine ⟨g, hg, ?_, ?_⟩
  · rw [Function.overload, hname, hparameters]
    rfl
  · rw [hover, ← hall, htypes]

/-- Operators differ only if there are properties for them to take, and only by the last standing
for any number of arguments. -/
theorem IsFor.invokes_differ_iff (h : e.IsFor c m) (h' : e'.IsFor c m') :
    DifferIfBoth e.invoke? e'.invoke? ↔
      (e.invoke?.isSome → e'.invoke?.isSome →
        c.properties.properties ≠ [] ∧ m.isVarargs ≠ m'.isVarargs) := by
  refine differIfBoth_iff fun f f' hf hf' => ?_
  obtain ⟨g, -, hover, htypes⟩ := h.overload_invoke hf
  obtain ⟨g', -, hover', htypes'⟩ := h'.overload_invoke hf'
  rw [hover, hover', htypes, htypes', Ne, Prod.mk.injEq, withVararg_eq_iff, PropertySet.types,
    List.map_eq_nil_iff]
  tauto

/-- An operator differs from a function of another name, and from one that takes something else. -/
theorem IsFor.namedFunction_differs_invoke_iff (h : e.IsFor c m) (h' : e'.IsFor c m') :
    DifferIfBoth e.namedFunction? e'.invoke? ↔
      (e.namedFunction?.isSome → e'.invoke?.isSome → m.name = "invoke" → ¬m.TakesAs m') := by
  refine differIfBoth_iff fun f f' hf hf' => ?_
  obtain ⟨g, hg, hsame⟩ := h.signature_named hf
  obtain ⟨g', hg', hover', -⟩ := h'.overload_invoke hf'
  have hname : g.overload.1 = m.name := (Method.signature_of_toFunction hg).1
  rw [hsame.overload_eq, hover', Ne, Prod.ext_iff, hname, Method.takesAs_iff hg hg']
  exact not_and

end ClassEntry

/-! ### Types -/

/-- The functions in the class differ: no two methods that became functions to change a property
have one name, and none of the others has that of the function which lists the methods to be moved
by hand, if there is one. -/
structure ClassModel.BodyApart (model : ClassModel) (members : List (Method × ClassEntry)) :
    Prop where
  withers : members.Pairwise fun p q =>
    p.2.wither?.isSome → q.2.wither?.isSome → p.1.name ≠ q.1.name
  placeholder : model.unrecognized ≠ [] → ∀ p ∈ members, p.2.bodyFunction?.isSome →
    p.2.wither? = none → p.1.name ≠ "placeholder"

/-- The functions in the companion object differ: no two methods with any number of arguments become
the same, operators take properties, some with any number of arguments and some not, and no function
that takes the same has their name. -/
structure ClassModel.CompanionApart (model : ClassModel) (members : List (Method × ClassEntry)) :
    Prop where
  named : members.Pairwise fun p q =>
    p.2.namedFunction?.isSome → q.2.namedFunction?.isSome → ¬p.1.Merges q.1
  invokes : members.Pairwise fun p q => p.2.invoke?.isSome → q.2.invoke?.isSome →
    model.properties.properties ≠ [] ∧ p.1.isVarargs ≠ q.1.isVarargs
  apart : ∀ p ∈ members, ∀ q ∈ members, p.2.namedFunction?.isSome → q.2.invoke?.isSome →
    p.1.name = "invoke" → ¬p.1.TakesAs q.1

/-- The functions in the builder differ: no two methods with any number of arguments become the
same, and none has the name of the function which lists the methods to be moved by hand, if there is
one, and takes nothing. -/
structure BuilderModel.Apart (b : BuilderModel) (members : List (Method × BuilderEntry)) :
    Prop where
  methods : members.Pairwise fun p q =>
    p.2.function?.isSome → q.2.function?.isSome → ¬p.1.Merges q.1
  placeholder : b.unrecognized ≠ [] → ∀ p ∈ members, p.2.function?.isSome →
    p.1.name = "placeholder" → p.1.parameters ≠ []

/-- No two methods of the type clash. -/
def TypeElement.MethodsDiffer (e : TypeElement) : Prop :=
  e.methods.Pairwise fun m m' => ¬m.Clashes m'

theorem TypeElement.MethodsDiffer.pairwise {α : Type} {e : TypeElement}
    {members : List (Method × α)} (h : e.MethodsDiffer) (hmembers : members.map (·.1) = e.methods) :
    members.Pairwise fun p q => ¬p.1.Clashes q.1 := by
  rw [MethodsDiffer, ← hmembers, List.pairwise_map] at h
  exact h

namespace ClassModel

variable {model : ClassModel} {e : TypeElement} {members : List (Method × ClassEntry)}
  {d : TypeDecl}

/-- Accessors take nothing. -/
theorem HasMembers.parameters_eq_nil (hmembers : model.HasMembers e members)
    {p : Method × ClassEntry} (hp : p ∈ members) (h : p.2.property?.isSome) :
    p.1.parameters = [] := by
  have haccessor := (List.mem_filter.mp ((hmembers.accessors p hp).mp h)).2
  simp only [Method.isAccessor, Bool.and_eq_true, List.isEmpty_iff] at haccessor
  exact haccessor.1.1.2

theorem HasMembers.overloadsDiffer_body_iff (hmembers : model.HasMembers e members)
    (hmethods : e.MethodsDiffer) (hd : model.toDeclaration = .ok d) :
    d.OverloadsDiffer ↔ model.BodyApart members := by
  have hwithers : ((members.filterMap (·.2.bodyFunction?)).map (·.overload)).Nodup ↔
      members.Pairwise fun p q =>
        p.2.wither?.isSome → q.2.wither?.isSome → p.1.name ≠ q.1.name :=
    nodup_overloads_iff <| (hmethods.pairwise hmembers.methods).imp_of_mem
      fun hp hq hclash => (hmembers.entries _ hp).bodyFunctions_differ_iff (hmembers.entries _ hq)
        (hmembers.parameters_eq_nil hp) (hmembers.parameters_eq_nil hq) hclash
  have hplaceholder : (∀ f ∈ members.filterMap (·.2.bodyFunction?),
      f.overload ≠ ("placeholder", [])) ↔ ∀ p ∈ members, p.2.bodyFunction?.isSome →
        p.2.wither? = none → p.1.name ≠ "placeholder" := by
    rw [List.forall_mem_filterMap]
    exact forall₂_congr fun p hp => (hmembers.entries p hp).bodyFunction_differs_iff
      (hmembers.parameters_eq_nil hp) "placeholder"
  rw [TypeDecl.OverloadsDiffer, ((hmembers.functions_perm hd).map _).nodup_iff,
    nodup_overloads_placeholder_iff, hwithers, hplaceholder]
  exact ⟨fun ⟨hwithers, hplaceholder⟩ => ⟨hwithers, hplaceholder⟩,
    fun ⟨hwithers, hplaceholder⟩ => ⟨hwithers, hplaceholder⟩⟩

theorem HasMembers.overloadsDiffer_companion_iff (hmembers : model.HasMembers e members)
    (hmethods : e.MethodsDiffer) {t : TypeDecl}
    (ht : t.functions.Perm
      (members.filterMap (·.2.namedFunction?) ++ members.filterMap (·.2.invoke?))) :
    t.OverloadsDiffer ↔ model.CompanionApart members := by
  have hnamed : ((members.filterMap (·.2.namedFunction?)).map (·.overload)).Nodup ↔
      members.Pairwise fun p q =>
        p.2.namedFunction?.isSome → q.2.namedFunction?.isSome → ¬p.1.Merges q.1 :=
    nodup_overloads_iff <| (hmethods.pairwise hmembers.methods).imp_of_mem
      fun hp hq hclash => (hmembers.entries _ hp).namedFunctions_differ_iff
        (hmembers.entries _ hq) hclash
  have hinvokes : ((members.filterMap (·.2.invoke?)).map (·.overload)).Nodup ↔
      members.Pairwise fun p q => p.2.invoke?.isSome → q.2.invoke?.isSome →
        model.properties.properties ≠ [] ∧ p.1.isVarargs ≠ q.1.isVarargs :=
    nodup_overloads_iff <| (hmethods.pairwise hmembers.methods).imp_of_mem
      fun hp hq _ => (hmembers.entries _ hp).invokes_differ_iff (hmembers.entries _ hq)
  have hapart : (∀ a ∈ (members.filterMap (·.2.namedFunction?)).map (·.overload),
      ∀ b ∈ (members.filterMap (·.2.invoke?)).map (·.overload), a ≠ b) ↔
        ∀ p ∈ members, ∀ q ∈ members, p.2.namedFunction?.isSome → q.2.invoke?.isSome →
          p.1.name = "invoke" → ¬p.1.TakesAs q.1 := by
    simp only [List.forall_mem_map, List.forall_mem_filterMap]
    constructor
    · intro hapart p hp q hq
      exact ((hmembers.entries p hp).namedFunction_differs_invoke_iff (hmembers.entries q hq)).mp
        fun f hf g hg => hapart p hp f hf q hq g hg
    · intro hapart p hp f hf q hq
      exact ((hmembers.entries p hp).namedFunction_differs_invoke_iff (hmembers.entries q hq)).mpr
        (hapart p hp q hq) f hf
  rw [TypeDecl.OverloadsDiffer, (ht.map _).nodup_iff, List.map_append, List.nodup_append, hnamed,
    hinvokes, hapart]
  exact ⟨fun ⟨hnamed, hinvokes, hapart⟩ => ⟨hnamed, hinvokes, hapart⟩,
    fun ⟨hnamed, hinvokes, hapart⟩ => ⟨hnamed, hinvokes, hapart⟩⟩

end ClassModel

theorem BuilderModel.HasMembers.overloadsDiffer_iff {b : BuilderModel} {set : PropertySet}
    {builder : TypeElement} {members : List (Method × BuilderEntry)} {valueClass : ClassName}
    {decl : TypeDecl} (hmembers : b.HasMembers set builder members)
    (hmethods : builder.MethodsDiffer) (hdecl : b.toDeclaration valueClass = .ok decl) :
    decl.OverloadsDiffer ↔ b.Apart members := by
  have hfunctions : ((members.filterMap (·.2.function?)).map (·.overload)).Nodup ↔
      members.Pairwise fun p q =>
        p.2.function?.isSome → q.2.function?.isSome → ¬p.1.Merges q.1 := by
    refine nodup_overloads_iff <| (hmethods.pairwise hmembers.methods).imp_of_mem
      fun {p q} hp hq hclash => differIfBoth_iff fun f g hf hg => not_congr ?_
    exact Method.overload_eq_iff hclash ((hmembers.entries p hp).toFunction hf)
      ((hmembers.entries q hq).toFunction hg)
  have hplaceholder : (∀ f ∈ members.filterMap (·.2.function?), f.overload ≠ ("placeholder", [])) ↔
      ∀ p ∈ members, p.2.function?.isSome → p.1.name = "placeholder" → p.1.parameters ≠ [] := by
    rw [List.forall_mem_filterMap]
    simp only [Option.isSome_iff_exists, forall_exists_index]
    refine forall₂_congr fun p hp => forall₂_congr fun f hf => ?_
    exact Method.overload_ne_iff ((hmembers.entries p hp).toFunction hf) "placeholder"
  rw [TypeDecl.OverloadsDiffer, ← map_overload_withoutBody,
    ((hmembers.functions_perm hdecl).map _).nodup_iff, map_overload_withoutBody,
    nodup_overloads_placeholder_iff, hfunctions, hplaceholder]
  exact ⟨fun ⟨hmethods, hplaceholder⟩ => ⟨hmethods, hplaceholder⟩,
    fun ⟨hmethods, hplaceholder⟩ => ⟨hmethods, hplaceholder⟩⟩

/-- In a value class and its builder, let no two methods of one name take parameters of the same
types. Then the functions of the data class differ in their names or parameters just when they are
apart, and so do those of its companion object and those of its builder. -/
theorem ClassModel.overloads_differ_iff {e : TypeElement} {enumChildren : List String}
    {model : ClassModel} {d : TypeDecl} {log log' : Log}
    (hmodel : (ofElement? e enumChildren).runOn log = (.ok (some model), log'))
    (hd : model.toDeclaration = .ok d) (hmethods : e.MethodsDiffer)
    (hbuilder : ∀ builder, e.nestedTypes.find? (·.isBuilder) = some builder →
      builder.MethodsDiffer) :
    ∃ members, model.HasMembers e members ∧ (d.OverloadsDiffer ↔ model.BodyApart members) ∧
      ∀ t ∈ d.types,
        (t.kind = .companion ∧ (t.OverloadsDiffer ↔ model.CompanionApart members)) ∨
        ∃ builder b builderMembers, e.nestedTypes.find? (·.isBuilder) = some builder ∧
          model.builder = some b ∧ b.toDeclaration model.cls = .ok t ∧
          b.HasMembers model.properties builder builderMembers ∧
          (t.OverloadsDiffer ↔ b.Apart builderMembers) := by
  obtain ⟨members, hmembers⟩ := exists_members hmodel
  refine ⟨members, hmembers, hmembers.overloadsDiffer_body_iff hmethods hd, fun t ht => ?_⟩
  obtain ⟨b, hb, hdecl⟩ | ⟨hkind, -, hfunctions⟩ := hmembers.types_spec hd t ht
  · obtain ⟨builder, hfound, log₁, log₂, hrun⟩ := found_builder_of_ofElement? hmodel hb
    obtain ⟨builderMembers, hbuilderMembers⟩ := BuilderModel.exists_members hrun
    exact Or.inr ⟨builder, b, builderMembers, hfound, hb, hdecl, hbuilderMembers,
      hbuilderMembers.overloadsDiffer_iff (hbuilder builder hfound) hdecl⟩
  · exact Or.inl ⟨hkind, hmembers.overloadsDiffer_companion_iff hmethods hfunctions⟩

/-- A value class with two static methods that take all its properties, and with a builder. -/
def twoCreatorsElement : TypeElement :=
  let point : TypeUse := .declared "test.P" []
  let builder : TypeUse := .declared "test.P.Builder" []
  let x : Variable := { name := "x", type := .declared "test.X" [] }
  { qualifiedName := "test.P"
    package := "test"
    modifiers := [.publicAccess]
    annotations := [{ typeName := valueClassMarker }]
    methods := [
      { name := "x", modifiers := [.publicAccess, .abstract], returnType := x.type },
      { name := "create", modifiers := [.publicAccess, .static], returnType := point,
        parameters := [x] },
      { name := "make", modifiers := [.publicAccess, .static], returnType := point,
        parameters := [x] }]
    nestedTypes := [{
      qualifiedName := "test.P.Builder"
      package := "test"
      modifiers := [.publicAccess, .static]
      annotations := [{ typeName := builderMarker }]
      methods := [
        { name := "setX", modifiers := [.publicAccess, .abstract], returnType := builder,
          parameters := [x] },
        { name := "build", modifiers := [.publicAccess, .abstract], returnType := point }] }] }

/-- Its methods have three names and those of its builder two, but the companion object has two
operators that take the same. -/
theorem two_creators_become_one_operator :
    ∃ model d log members t,
      (ClassModel.ofElement? twoCreatorsElement []).runOn [] = (.ok (some model), log) ∧
      model.toDeclaration = .ok d ∧ twoCreatorsElement.MethodsDiffer ∧
      (∀ builder, twoCreatorsElement.nestedTypes.find? (·.isBuilder) = some builder →
        builder.MethodsDiffer) ∧
      model.HasMembers twoCreatorsElement members ∧ d.OverloadsDiffer ∧ t ∈ d.types ∧
      t.kind = .companion ∧ ¬t.OverloadsDiffer ∧ ¬model.CompanionApart members := by
  have hdiffer {e : TypeElement} (hnames : e.methods.Pairwise (·.name ≠ ·.name)) :
      e.MethodsDiffer := hnames.imp fun hname hclash => hname hclash.1
  have hmethods : twoCreatorsElement.MethodsDiffer := hdiffer (by decide)
  have hbuilder : ∀ builder, twoCreatorsElement.nestedTypes.find? (·.isBuilder) = some builder →
      builder.MethodsDiffer := by
    rintro builder ⟨⟩
    exact hdiffer (by decide)
  have hrun : ((ClassModel.ofElement? twoCreatorsElement []).runOn []).1.map (·.map fun model =>
      model.toDeclaration.map fun d =>
        (decide d.OverloadsDiffer, d.types.map fun t => (t.kind, decide t.OverloadsDiffer))) =
      .ok (some (.ok (true, [(.classDecl, true), (.companion, false)]))) := by decide +kernel
  obtain ⟨model, d, log, hmodel, hd⟩ :=
    ClassModel.exists_of_hasDeclaration twoCreatorsElement (by decide +kernel)
  rw [hmodel] at hrun
  have hrun := Option.some.inj (Except.ok.inj hrun)
  simp only [hd] at hrun
  obtain ⟨hbody, htypes⟩ := Prod.mk.inj (Except.ok.inj hrun)
  have hsecond : (TypeDeclKind.companion, false) ∈
      d.types.map fun t => (t.kind, decide t.OverloadsDiffer) := by
    rw [htypes]
    exact List.mem_cons_of_mem _ List.mem_cons_self
  obtain ⟨t, ht, hpair⟩ := List.mem_map.mp hsecond
  obtain ⟨hkind, hsame⟩ := Prod.mk.inj hpair
  obtain ⟨members, hmembers, -, htypes⟩ :=
    ClassModel.overloads_differ_iff hmodel hd hmethods hbuilder
  refine ⟨model, d, log, members, t, hmodel, hd, hmethods, hbuilder, hmembers,
    of_decide_eq_true hbody, ht, hkind, of_decide_eq_false hsame, fun hapart => ?_⟩
  obtain ⟨-, hiff⟩ | ⟨builder, b, _, -, -, hdecl, -⟩ := htypes t ht
  · exact of_decide_eq_false hsame (hiff.mpr hapart)
  · -- a builder is a class
    obtain ⟨_, -, hdecl⟩ := bind_ok_iff.mp hdecl
    rw [← Except.ok.inj hdecl] at hkind
    cases hkind

end DataClassGen
