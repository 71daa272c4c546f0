import DataClassGen.Proofs.Model.Accessors

/-!
# The functions of a data class and what they come from

A member of a value class is a method with its entry in the model. What stands in the declaration
of the class is sorted by kind there, while here it is sorted by member: the functions of the data
class, of its companion object and of its builder are those of the members, in another order, and
one more where methods are left to be moved by hand.
-/

namespace DataClassGen

open Source

/-! ### Signatures -/

/-- What the signature of a method becomes. -/
theorem Method.signature_of_toFunction {m : Method} {f : Function} (h : m.toFunction = .ok f) :
    f.name = m.name ∧ f.modifiers = [visibilityOf m.modifiers] ∧
      ∃ parameters, m.parameters.mapM Variable.toParameter = .ok parameters ∧
        f.parameters = if m.isVarargs then lastVararg parameters else parameters := by
  obtain ⟨typeParameters, -, h⟩ := bind_ok_iff.mp h
  obtain ⟨returns, -, h⟩ := bind_ok_iff.mp h
  obtain ⟨parameters, hparameters, h⟩ := bind_ok_iff.mp h
  obtain ⟨thrown, -, h⟩ := bind_ok_iff.mp h
  obtain rfl := Except.ok.inj h
  exact ⟨rfl, rfl, parameters, hparameters, rfl⟩

/-- The functions have one name, one list of parameters and the same modifiers. -/
structure Source.Function.SameSignature (f g : Function) : Prop where
  name : f.name = g.name
  parameters : f.parameters = g.parameters
  modifiers : f.modifiers = g.modifiers

theorem Source.Function.withModifier_of_not_contains {f : Function} {m : DeclModifier}
    (h : f.modifiers.contains m = false) :
    f.withModifier m = { f with modifiers := f.modifiers ++ [m] } := by
  rw [withModifier, h]
  rfl

/-- The functions have this signature, but for the name of the operator that takes all the
properties and that it is an operator. -/
def Creator.HasSignature (set : PropertySet) (g : Function) : Creator → Prop
  | .full bridge invoke => bridge.SameSignature g ∧ invoke.name = "invoke" ∧
      invoke.parameters = g.parameters ∧ invoke.modifiers = g.modifiers ++ [.operator] ∧
      g.parameters.map (·.type) = set.types
  | .partly f => f.SameSignature g

/-- What a static method that gives a value becomes has the signature of the method. -/
theorem Creator.hasSignature_of_ofMethod {cls : ClassName} {set : PropertySet} {m : Method}
    {k : Creator} (h : Creator.ofMethod cls set m = .ok k) :
    ∃ g, m.toFunction = .ok g ∧ k.HasSignature set g := by
  rw [ofMethod] at h
  obtain ⟨g, hg, h⟩ := bind_ok_iff.mp h
  refine ⟨g, hg, ?_⟩
  obtain ⟨-, hmodifiers, -⟩ := Method.signature_of_toFunction hg
  -- an annotation more makes no difference
  generalize hf : (if isLongCreator g.parameters.length then
    g.annotated (suppression "LongParameterList") else g) = f at h
  have hsame : f.SameSignature g := by
    rw [← hf]
    split <;> exact ⟨rfl, rfl, rfl⟩
  simp only at h
  split at h
  · next hfull =>
    obtain rfl := Except.ok.inj h
    have hplain : ((f.renamed "invoke").annotated (jvmName f.name)).modifiers.contains .operator =
        false := by
      show f.modifiers.contains .operator = false
      have hvisible := isVisibility_visibilityOf m.modifiers
      rw [hsame.modifiers, hmodifiers]
      generalize visibilityOf m.modifiers = visibility at hvisible
      cases visibility <;> first | rfl | cases hvisible
    have hmodified := congrArg (· ++ [DeclModifier.operator]) hsame.modifiers
    rw [Function.withModifier_of_not_contains hplain]
    exact ⟨⟨hsame.name, hsame.parameters, hsame.modifiers⟩, rfl, hsame.parameters, hmodified,
      hsame.parameters ▸ beq_iff_eq.mp hfull⟩
  · obtain rfl := Except.ok.inj h
    exact ⟨hsame.name, hsame.parameters, hsame.modifiers⟩

/-! ### Members of a class
-/

namespace ClassEntry

/-- The function of the entry in the class itself. -/
def bodyFunction? : ClassEntry → Option Function
  | .property p => p.accessorFunction?
  | .toBuilder f | .wither f => some f
  | .builderFactory _ | .creator _ | .unrecognized _ => none

/-- The function of the entry in the companion object that goes by the name of the method. -/
def namedFunction? : ClassEntry → Option Function
  | .builderFactory f => some f
  | .creator (.full bridge _) => some bridge
  | .creator (.partly f) => some f
  | .property _ | .toBuilder _ | .wither _ | .unrecognized _ => none

/-- The operator of the entry that takes all the properties. -/
def invoke? : ClassEntry → Option Function
  | .creator (.full _ invoke) => some invoke
  | .creator (.partly _) | .builderFactory _ | .property _ | .toBuilder _ | .wither _
  | .unrecognized _ => none

theorem bodyFunctions_perm (entries : List ClassEntry) :
    ((entries.filterMap property?).filterMap (·.accessorFunction?) ++ entries.filterMap wither? ++
      entries.filterMap toBuilder?).Perm (entries.filterMap bodyFunction?) := by
  induction entries with
  | nil => exact .nil
  | cons e es ih =>
    simp only [List.append_assoc] at ih ⊢
    cases e with
    | property p =>
      cases hf : p.accessorFunction? with
      | none => simpa [List.filterMap_cons, bodyFunction?, hf] using ih
      | some f => simpa [List.filterMap_cons, bodyFunction?, hf] using ih
    | wither f =>
      simpa [List.filterMap_cons, bodyFunction?] using List.perm_middle.trans (.cons f ih)
    | toBuilder f =>
      have hmoved := @List.perm_middle _ f
        ((es.filterMap property?).filterMap (·.accessorFunction?) ++ es.filterMap wither?)
        (es.filterMap toBuilder?)
      simp only [List.append_assoc] at hmoved
      simpa [List.filterMap_cons, bodyFunction?] using hmoved.trans (.cons f ih)
    | builderFactory f => simpa [List.filterMap_cons, bodyFunction?] using ih
    | creator k => simpa [List.filterMap_cons, bodyFunction?] using ih
    | unrecognized s => simpa [List.filterMap_cons, bodyFunction?] using ih

theorem companionFunctions_perm (entries : List ClassEntry) :
    ((entries.filterMap creator?).flatMap (·.functions) ++ entries.filterMap builderFactory?).Perm
      (entries.filterMap namedFunction? ++ entries.filterMap invoke?) := by
  induction entries with
  | nil => exact .nil
  | cons e es ih =>
    cases e with
    | builderFactory f =>
      simpa [List.filterMap_cons, namedFunction?, invoke?] using
        List.perm_middle.trans (.cons f ih)
    | creator k =>
      cases k with
      | full bridge invoke =>
        have hmoved := (List.Perm.cons invoke ih).trans List.perm_middle.symm
        simpa [List.filterMap_cons, namedFunction?, invoke?, Creator.functions] using
          hmoved.cons bridge
      | partly f =>
        simpa [List.filterMap_cons, namedFunction?, invoke?, Creator.functions] using ih
    | property p => simpa [List.filterMap_cons, namedFunction?, invoke?] using ih
    | toBuilder f => simpa [List.filterMap_cons, namedFunction?, invoke?] using ih
    | wither f => simpa [List.filterMap_cons, namedFunction?, invoke?] using ih
    | unrecognized s => simpa [List.filterMap_cons, namedFunction?, invoke?] using ih

end ClassEntry

namespace ClassEntry

variable {c : ClassModel} {m : Method} {e : ClassEntry} {f : Function}

/-- A function of the companion object that goes by the name of its method has its signature. -/
theorem IsFor.signature_named (h : e.IsFor c m) (hf : e.namedFunction? = some f) :
    ∃ g, m.toFunction = .ok g ∧ f.SameSignature g := by
  cases e with
  | builderFactory g =>
    obtain ⟨plain, hplain, rfl⟩ := h
    obtain rfl := Option.some.inj hf
    exact ⟨plain, hplain, rfl, rfl, rfl⟩
  | creator k =>
    obtain ⟨g, hg, hsignature⟩ := Creator.hasSignature_of_ofMethod h
    cases k with
    | full bridge invoke =>
      obtain rfl := Option.some.inj hf
      exact ⟨g, hg, hsignature.1⟩
    | partly g' =>
      obtain rfl := Option.some.inj hf
      exact ⟨g, hg, hsignature⟩
  | _ => cases hf

/-- An operator has the parameters of its method, which are of the types of all the properties. -/
theorem IsFor.signature_invoke (h : e.IsFor c m) (hf : e.invoke? = some f) :
    ∃ g, m.toFunction = .ok g ∧ f.name = "invoke" ∧ f.parameters = g.parameters ∧
      f.modifiers = g.modifiers ++ [.operator] ∧
      g.parameters.map (·.type) = c.properties.types := by
  cases e with
  | creator k =>
    obtain ⟨g, hg, hsignature⟩ := Creator.hasSignature_of_ofMethod h
    cases k with
    | full bridge invoke =>
      obtain rfl := Option.some.inj hf
      exact ⟨g, hg, hsignature.2⟩
    | partly g' => cases hf
  | _ => cases hf

end ClassEntry

/-- Two lists that are related place by place are the columns of one. -/
theorem exists_pairs_of_forall₂ {α β : Type} {R : α → β → Prop} {as : List α} {bs : List β}
    (h : as.Forall₂ R bs) :
    ∃ pairs : List (α × β), pairs.map (·.1) = as ∧ pairs.map (·.2) = bs ∧
      ∀ p ∈ pairs, R p.1 p.2 :=
  ⟨as.zip bs, List.map_fst_zip (Nat.le_of_eq h.length_eq),
    List.map_snd_zip (Nat.le_of_eq h.length_eq.symm), fun _ hp => List.forall₂_zip h hp⟩

theorem filterMap_column {α β γ : Type} (f : β → Option γ) (pairs : List (α × β)) :
    (pairs.map (·.2)).filterMap f = pairs.filterMap fun p => f p.2 := List.filterMap_map

/-- The members of the value class, in the order of its methods. -/
structure ClassModel.HasMembers (model : ClassModel) (e : TypeElement)
    (members : List (Method × ClassEntry)) : Prop where
  methods : members.map (·.1) = e.methods
  entries : ∀ p ∈ members, p.2.IsFor model p.1
  /-- The accessors, and they alone, are entered as properties. -/
  accessors : ∀ p ∈ members, p.2.property?.isSome = true ↔ p.1 ∈ e.accessors
  holds : model.Holds (members.map (·.2))

namespace ClassModel

theorem exists_members {e : TypeElement} {enumChildren : List String} {model : ClassModel}
    {log log' : Log} (h : (ofElement? e enumChildren).runOn log = (.ok (some model), log')) :
    ∃ members, model.HasMembers e members := by
  obtain ⟨c, rfl, -, hname, hproperties, hbuilder, hmodel⟩ := context_of_ofElement? h
  obtain ⟨-, entries, hfor, hholds⟩ := exists_accessor_entries_of_ofContext hproperties
    (fun b cls hb => (builder_of_context hbuilder hb).1) hmodel
  obtain ⟨members, hmethods, rfl, hmembers⟩ := exists_pairs_of_forall₂ hfor
  refine ⟨members, hmethods, fun p hp => (hmembers p hp).1, fun p hp => ?_, hholds⟩
  have hmem : p.1 ∈ c.element.methods := hmethods ▸ List.mem_map_of_mem hp
  rw [(hmembers p hp).2, TypeElement.accessors, List.mem_filter, hname]
  exact ⟨fun haccessor => ⟨hmem, haccessor⟩, fun haccessor => haccessor.2⟩

variable {model : ClassModel} {e : TypeElement} {members : List (Method × ClassEntry)}
  {d : TypeDecl}

/-- What is made of an optional thing is made of that thing. -/
theorem exists_of_option_mapM {ε α β : Type} {f : α → Except ε β} {a? : Option α} {b : β}
    (h : a?.mapM f = .ok (some b)) : ∃ a, a? = some a ∧ f a = .ok b := by
  cases a? with
  | none => cases h
  | some a =>
    obtain ⟨b', hb', h⟩ := bind_ok_iff.mp h
    obtain rfl := Option.some.inj (Except.ok.inj h)
    exact ⟨a, rfl, hb'⟩

/-- The functions of the data class are those of the members, and one that lists the methods to be
moved by hand. -/
theorem HasMembers.functions_perm (hmembers : model.HasMembers e members)
    (hd : model.toDeclaration = .ok d) :
    d.functions.Perm
      (members.filterMap (·.2.bodyFunction?) ++ (placeholder? model.unrecognized).toList) := by
  obtain ⟨properties, -, hd⟩ := bind_ok_iff.mp hd
  obtain ⟨builder, -, hd⟩ := bind_ok_iff.mp hd
  rw [← Except.ok.inj hd]
  simp only
  have hbody := ClassEntry.bodyFunctions_perm (members.map (·.2))
  rw [← hmembers.holds.properties, ← hmembers.holds.withers, ← hmembers.holds.toBuilders,
    filterMap_column] at hbody
  refine List.Perm.trans ?_ (hbody.append_right _)
  rw [List.append_assoc, List.append_assoc _ model.toBuilders]
  exact List.perm_append_comm.append_left _

/-- The types in the declaration of a data class are its builder and its companion object. The
functions of the companion object are those of the members. -/
theorem HasMembers.types_spec (hmembers : model.HasMembers e members)
    (hd : model.toDeclaration = .ok d) :
    ∀ t ∈ d.types, (∃ b, model.builder = some b ∧ b.toDeclaration model.cls = .ok t) ∨
      t.kind = .companion ∧ t.properties = model.constants ∧
        t.functions.Perm
          (members.filterMap (·.2.namedFunction?) ++ members.filterMap (·.2.invoke?)) := by
  obtain ⟨properties, -, hd⟩ := bind_ok_iff.mp hd
  obtain ⟨builder, hbuilder, hd⟩ := bind_ok_iff.mp hd
  rw [← Except.ok.inj hd]
  intro t ht
  rcases List.mem_append.mp ht with ht | ht
  · rw [Option.mem_toList.mp ht] at hbuilder
    exact Or.inl (exists_of_option_mapM hbuilder)
  · right
    rw [Option.mem_toList, companion?] at ht
    split at ht
    · rw [← Option.some.inj ht]
      have hfunctions := ClassEntry.companionFunctions_perm (members.map (·.2))
      rw [← hmembers.holds.creators, ← hmembers.holds.builderFactories, filterMap_column,
        filterMap_column] at hfunctions
      exact ⟨rfl, rfl, hfunctions⟩
    · cases ht

end ClassModel

/-! ### Members of a builder -/

/-- The function without its body. -/
def Source.Function.withoutBody (f : Function) : Function := { f with body := [] }

namespace BuilderEntry

/-- The function of the entry, if it has one. -/
def function? : BuilderEntry → Option Function
  | .setter _ f | .finalizer f | .builder f => some f
  | .subBuilder _ s => some s.accessor
  | .unrecognized _ => none

end BuilderEntry

/-- The function of a member of a builder is the one with the signature of its method. -/
theorem BuilderEntry.IsFor.toFunction {set : PropertySet} {m : Method} {e : BuilderEntry}
    {f : Function} (h : e.IsFor set m) (hf : e.function? = some f) : m.toFunction = .ok f := by
  cases e with
  | setter i g =>
    obtain rfl := Option.some.inj hf
    exact h.2
  | subBuilder i s =>
    obtain rfl := Option.some.inj hf
    exact h.2.2.1
  | finalizer g =>
    obtain rfl := Option.some.inj hf
    exact h.2.2
  | builder g =>
    obtain rfl := Option.some.inj hf
    exact h.2.2
  | unrecognized s => cases hf

namespace BuilderEntry

theorem functions_perm (entries : List BuilderEntry) :
    (entries.filterMap anySetter? ++ (entries.filterMap anySubBuilder?).map (·.accessor) ++
      entries.filterMap builder? ++ entries.filterMap finalizer?).Perm
        (entries.filterMap function?) := by
  induction entries with
  | nil => exact .nil
  | cons e es ih =>
    simp only [List.append_assoc] at ih ⊢
    cases e with
    | setter i f =>
      simpa [List.filterMap_cons, anySetter?, anySubBuilder?, builder?, finalizer?, function?]
        using ih
    | subBuilder i s =>
      simpa [List.filterMap_cons, anySetter?, anySubBuilder?, builder?, finalizer?, function?] using
        List.perm_middle.trans (.cons s.accessor ih)
    | builder f =>
      have hmoved := @List.perm_middle _ f
        (es.filterMap anySetter? ++ (es.filterMap anySubBuilder?).map (·.accessor))
        (es.filterMap builder? ++ es.filterMap finalizer?)
      simp only [List.append_assoc] at hmoved
      simpa [List.filterMap_cons, anySetter?, anySubBuilder?, builder?, finalizer?, function?] using
        hmoved.trans (.cons f ih)
    | finalizer f =>
      have hmoved := @List.perm_middle _ f
        (es.filterMap anySetter? ++ (es.filterMap anySubBuilder?).map (·.accessor) ++
          es.filterMap builder?)
        (es.filterMap finalizer?)
      simp only [List.append_assoc] at hmoved
      simpa [List.filterMap_cons, anySetter?, anySubBuilder?, builder?, finalizer?, function?] using
        hmoved.trans (.cons f ih)
    | unrecognized s =>
      simpa [List.filterMap_cons, anySetter?, anySubBuilder?, builder?, finalizer?, function?]
        using ih

end BuilderEntry

/-- The members of the builder of a class with these properties, in the order of its methods. -/
structure BuilderModel.HasMembers (b : BuilderModel) (set : PropertySet) (builder : TypeElement)
    (members : List (Method × BuilderEntry)) : Prop where
  methods : members.map (·.1) = builder.methods
  entries : ∀ p ∈ members, p.2.IsFor set p.1
  holds : b.Holds (members.map (·.2))
  count : b.properties.length = set.properties.length

namespace BuilderModel

theorem exists_members {builder value : TypeElement} {set : PropertySet} {b : BuilderModel}
    {log log' : Log} (h : (ofElement? builder value set).runOn log = (.ok (some b), log')) :
    ∃ members, b.HasMembers set builder members := by
  obtain ⟨hproperties, entries, hfor, hholds⟩ := exists_entries h
  obtain ⟨members, hmethods, rfl, hmembers⟩ := exists_pairs_of_forall₂ hfor
  have hcount := congrArg List.length hproperties
  rw [List.length_map, List.length_map] at hcount
  exact ⟨members, hmethods, hmembers, hholds, hcount⟩

/-- But for their bodies, the functions of the builder are those of the members, and one that lists
the methods to be moved by hand. -/
theorem HasMembers.functions_perm {b : BuilderModel} {set : PropertySet} {builder : TypeElement}
    {members : List (Method × BuilderEntry)} (hmembers : b.HasMembers set builder members)
    {valueClass : ClassName} {decl : TypeDecl} (hd : b.toDeclaration valueClass = .ok decl) :
    (decl.functions.map Function.withoutBody).Perm
      ((members.filterMap (·.2.function?) ++ (placeholder? b.unrecognized).toList).map
        Function.withoutBody) := by
  obtain ⟨zeros, -, -, -, -, -, hfunctions⟩ := toDeclaration_spec hd
  have hwithin : ∀ e ∈ members.map (·.2), e.IsWithin b.properties.length := by
    intro e he
    obtain ⟨p, hp, rfl⟩ := List.mem_map.mp he
    exact hmembers.count ▸ (hmembers.entries p hp).isWithin
  have hsetters := hmembers.holds.setters_perm hwithin
  have hsubBuilders := hmembers.holds.subBuilders_perm hwithin
  rw [List.filterMap_eq_flatMap_toList] at hsubBuilders
  have hall := BuilderEntry.functions_perm (members.map (·.2))
  rw [← hmembers.holds.buildMethod, ← hmembers.holds.finalizeMethod] at hall
  have hproperties : ((b.properties.flatMap (·.functions)).map Function.withoutBody).Perm
      (((members.map (·.2)).filterMap BuilderEntry.anySetter? ++
        ((members.map (·.2)).filterMap BuilderEntry.anySubBuilder?).map (·.accessor)).map
          Function.withoutBody) := by
    have hbare : (b.properties.flatMap (·.functions)).map Function.withoutBody =
        b.properties.flatMap fun p => p.setters.map Function.withoutBody ++
          p.subBuilder.toList.map fun s => s.accessor.withoutBody := by
      simp only [List.map_flatMap, BuilderProperty.functions, List.map_append, List.map_map]
      rfl
    rw [hbare, List.map_append, List.map_map]
    refine (List.flatMap_append_perm ..).symm.trans ?_
    rw [← List.map_flatMap, ← List.map_flatMap]
    exact (hsetters.map _).append (hsubBuilders.map _)
  have hbuild : b.buildFunction?.toList.map Function.withoutBody =
      b.buildMethod.toList.map Function.withoutBody := by
    rw [buildFunction?]
    cases b.buildMethod <;> rfl
  rw [← filterMap_column, hfunctions, List.map_append, List.map_append, List.map_append, hbuild,
    List.map_append]
  refine List.Perm.append_right _ (List.Perm.trans ?_ (hall.map Function.withoutBody))
  rw [List.map_append, List.map_append]
  exact (hproperties.append_right _).append_right _

end BuilderModel

end DataClassGen
