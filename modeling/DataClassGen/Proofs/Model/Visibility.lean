import DataClassGen.Proofs.Model.Members

/-!
# What hidden members become

A type or member without the modifier `public` should not become a declaration that everything can
use. The visibility of a method is written with its signature, and that of an accessor with the
function that bridges to its property, so that the functions they become are hidden just when they
are; so it is with the constants, the builder and the class itself. But a property of the
constructor is declared without modifiers, and so is a function that gives a changed value. They are
public whatever they come from, and the class keeps all that was hidden just when the accessors and
the methods for changed values were public to begin with (`hidden_members_stay_hidden_iff`).
-/

namespace DataClassGen

open Source

/-- A declaration with these modifiers cannot be used from everywhere. -/
def IsHidden (modifiers : List DeclModifier) : Prop :=
  ∃ m ∈ modifiers, m.isVisibility = true ∧ m ≠ .publicAccess

instance : DecidablePred IsHidden := fun modifiers =>
  inferInstanceAs (Decidable (∃ m ∈ modifiers, m.isVisibility = true ∧ m ≠ .publicAccess))

/-- What comes of a type or member with the first modifiers is hidden unless that is public. -/
def Hides (given : List Modifier) (declared : List DeclModifier) : Prop :=
  .publicAccess ∉ given → IsHidden declared

/-! ### Visibility by itself -/

theorem not_isHidden_nil : ¬IsHidden [] := fun ⟨_, hm, _⟩ => nomatch hm

/-- A declaration without modifiers is public, and may only come from what is. -/
theorem hides_nil_iff (given : List Modifier) : Hides given [] ↔ .publicAccess ∈ given := by
  rw [Hides, ← not_imp_not, not_not]
  exact ⟨fun h => h not_isHidden_nil, fun h _ => h⟩

theorem isHidden_visibilityOf_cons (given : List Modifier) {others : List DeclModifier}
    (hothers : ¬IsHidden others) :
    IsHidden (visibilityOf given :: others) ↔ .publicAccess ∉ given := by
  have hfirst : IsHidden (visibilityOf given :: others) ↔
      (visibilityOf given).isVisibility = true ∧ visibilityOf given ≠ .publicAccess := by
    rw [IsHidden, List.exists_mem_cons_iff]
    exact or_iff_left hothers
  rw [hfirst, isVisibility_visibilityOf]
  simp only [true_and, visibilityOf, List.contains_eq_mem, decide_eq_true_eq]
  split
  · next hpublic => simp [hpublic]
  · next hnot =>
    simp only [hnot, not_false_eq_true, iff_true]
    split
    · decide
    · split <;> decide

theorem isHidden_publicOrInternal (given : List Modifier) :
    IsHidden [publicOrInternal given] ↔ .publicAccess ∉ given := by
  rw [publicOrInternal]
  simp only [List.contains_eq_mem, decide_eq_true_eq]
  split
  · next hpublic => exact iff_of_false (by decide) (not_not.mpr hpublic)
  · next hnot => exact iff_of_true (by decide) hnot

/-! ### Members -/

/-- What a method becomes is hidden just when the method is. -/
theorem Method.isHidden_of_toFunction {m : Method} {f : Function} (h : m.toFunction = .ok f) :
    IsHidden f.modifiers ↔ .publicAccess ∉ m.modifiers := by
  rw [(signature_of_toFunction h).2.1]
  exact isHidden_visibilityOf_cons _ not_isHidden_nil

namespace ClassEntry

variable {c : ClassModel} {m : Method} {e : ClassEntry}

/-- A function of the companion object is hidden just when its method is. -/
theorem IsFor.isHidden_companion (h : e.IsFor c m) {f : Function}
    (hf : e.namedFunction? = some f ∨ e.invoke? = some f) :
    IsHidden f.modifiers ↔ .publicAccess ∉ m.modifiers := by
  obtain hf | hf := hf
  · obtain ⟨g, hg, hsame⟩ := h.signature_named hf
    rw [hsame.modifiers]
    exact Method.isHidden_of_toFunction hg
  · obtain ⟨g, hg, -, -, hmodifiers, -⟩ := h.signature_invoke hf
    rw [hmodifiers, (Method.signature_of_toFunction hg).2.1]
    exact isHidden_visibilityOf_cons _ (by decide)

/-- A function in the class is hidden just when its method is, unless it overrides another or gives
a changed value. -/
theorem IsFor.isHidden_body (h : e.IsFor c m) (hwither : e.wither? = none) {f : Function}
    (hf : e.bodyFunction? = some f) (hoverride : .override ∉ f.modifiers) :
    IsHidden f.modifiers ↔ .publicAccess ∉ m.modifiers := by
  cases e with
  | property p =>
    obtain ⟨name, hp⟩ := h
    obtain ⟨type, -, hp⟩ := bind_ok_iff.mp hp
    have hvisibility : p.visibility = publicOrInternal m.modifiers := by
      rw [← Except.ok.inj hp]
    rw [bodyFunction?, ValueProperty.accessorFunction?] at hf
    split at hf
    · cases hf
    · split at hf
      · rw [← Option.some.inj hf] at hoverride
        exact absurd List.mem_cons_self hoverride
      · rw [← Option.some.inj hf, hvisibility]
        exact isHidden_publicOrInternal _
  | toBuilder g =>
    obtain ⟨b, -, -, plain, hplain, rfl⟩ := h
    obtain rfl := Option.some.inj hf
    have hsame := Method.isHidden_of_toFunction hplain
    exact hsame
  | wither g => cases hwither
  | _ => cases hf

/-- A function that gives a changed value has no modifiers. -/
theorem IsFor.modifiers_wither {f : Function} (h : (wither f).IsFor c m) : f.modifiers = [] := by
  obtain ⟨rest, p, selfType, -, -, rfl⟩ := h
  rfl

end ClassEntry

/-- A constant that comes from a field without `public` is hidden. -/
theorem hides_constantOf {v : Variable} {q : Property} (h : constantOf v = .ok q) :
    Hides v.modifiers q.modifiers := by
  obtain ⟨type, -, h⟩ := bind_ok_iff.mp h
  intro hnot
  rw [← Except.ok.inj h]
  simp only [List.contains_eq_mem, decide_eq_true_eq, if_neg hnot]
  split
  · exact ⟨_, List.mem_append_left _ List.mem_cons_self, rfl, by decide⟩
  · exact ⟨_, List.mem_append_left _ List.mem_cons_self, rfl, by decide⟩

/-! ### Classes -/

/-- The static fields of a value class. -/
def TypeElement.constants (e : TypeElement) : List Variable :=
  e.fields.filter fun f => f.kind == .field && f.modifiers.contains .static

/-- A builder is public if the type it comes from is, and internal if not. -/
theorem BuilderModel.visibility_of_ofElement? {builder value : TypeElement} {set : PropertySet}
    {b : BuilderModel} {log log' : Log}
    (h : (ofElement? builder value set).runOn log = (.ok (some b), log')) :
    b.visibility = publicOrInternal builder.modifiers := by
  obtain ⟨parts, log₁, -, made⟩ := isMadeFrom_of_ofElement? h
  exact made.visibility

theorem BuilderModel.modifiers_of_toDeclaration {b : BuilderModel} {valueClass : ClassName}
    {decl : TypeDecl} (h : b.toDeclaration valueClass = .ok decl) :
    decl.modifiers = [b.visibility] := by
  obtain ⟨zeros, -, h⟩ := bind_ok_iff.mp h
  rw [← Except.ok.inj h]

namespace ClassModel

theorem visibility_of_ofElement? {e : TypeElement} {enumChildren : List String} {model : ClassModel}
    {log log' : Log} (h : (ofElement? e enumChildren).runOn log = (.ok (some model), log')) :
    model.visibility = visibilityOf e.modifiers ∧
      e.constants.Forall₂ (fun v q => constantOf v = .ok q) model.constants := by
  obtain ⟨c, rfl, -, -, -, -, hmodel⟩ := context_of_ofElement? h
  obtain ⟨roles, changing, made⟩ := isMadeFrom_of_ofContext hmodel
  exact ⟨made.visibility, forall₂_of_mapM made.constants⟩

/-- What is hidden stays hidden, except perhaps for properties of the constructor and functions that
give a changed value. A function that overrides another is as visible as that. -/
structure OthersStayHidden (model : ClassModel) (e : TypeElement) (d : TypeDecl)
    (members : List (Method × ClassEntry)) : Prop where
  cls : Hides e.modifiers d.modifiers
  body : ∀ p ∈ members, p.2.wither? = none → ∀ f, p.2.bodyFunction? = some f →
    .override ∉ f.modifiers → Hides p.1.modifiers f.modifiers
  companion : ∀ p ∈ members, ∀ f, p.2.namedFunction? = some f ∨ p.2.invoke? = some f →
    Hides p.1.modifiers f.modifiers
  constants : e.constants.Forall₂ (fun v q => Hides v.modifiers q.modifiers) model.constants
  builder : ∀ b decl, model.builder = some b → b.toDeclaration model.cls = .ok decl →
    ∃ builder builderMembers, e.nestedTypes.find? (·.isBuilder) = some builder ∧
      b.HasMembers model.properties builder builderMembers ∧
      (decl.functions.map Function.withoutBody).Perm
        ((builderMembers.filterMap (·.2.function?) ++ (placeholder? b.unrecognized).toList).map
          Function.withoutBody) ∧
      Hides builder.modifiers decl.modifiers ∧
      ∀ p ∈ builderMembers, ∀ g, p.2.function? = some g → ∀ f ∈ decl.functions,
        f.withoutBody = g.withoutBody → Hides p.1.modifiers f.modifiers

theorem modifiers_of_toDeclaration {c : ClassModel} {d : TypeDecl} (h : c.toDeclaration = .ok d) :
    ∃ others, d.modifiers = c.visibility :: others ∧ ¬IsHidden others := by
  obtain ⟨properties, -, h⟩ := bind_ok_iff.mp h
  obtain ⟨builder, -, h⟩ := bind_ok_iff.mp h
  rw [← Except.ok.inj h]
  refine ⟨_, rfl, ?_⟩
  split <;> decide

/-- All but the properties of the constructor and the functions that give a changed value stay as
hidden as what they come from. -/
theorem othersStayHidden {e : TypeElement} {enumChildren : List String} {model : ClassModel}
    {d : TypeDecl} {log log' : Log} {members : List (Method × ClassEntry)}
    (hmodel : (ofElement? e enumChildren).runOn log = (.ok (some model), log'))
    (hd : model.toDeclaration = .ok d) (hmembers : model.HasMembers e members) :
    model.OthersStayHidden e d members := by
  obtain ⟨hvisibility, hconstants⟩ := visibility_of_ofElement? hmodel
  refine ⟨?_, fun p hp hwither f hf hoverride => ?_, fun p hp f hf => ?_,
    hconstants.imp fun _ _ => hides_constantOf, fun b decl hb hdecl => ?_⟩
  · obtain ⟨others, hmodifiers, hothers⟩ := modifiers_of_toDeclaration hd
    rw [hmodifiers, hvisibility]
    exact (isHidden_visibilityOf_cons _ hothers).mpr
  · exact ((hmembers.entries p hp).isHidden_body hwither hf hoverride).mpr
  · exact ((hmembers.entries p hp).isHidden_companion hf).mpr
  · obtain ⟨builder, hfound, log₁, log₂, hbuilder⟩ := found_builder_of_ofElement? hmodel hb
    obtain ⟨builderMembers, hbuilderMembers⟩ := BuilderModel.exists_members hbuilder
    refine ⟨builder, builderMembers, hfound, hbuilderMembers, hbuilderMembers.functions_perm hdecl,
      ?_, fun p hp g hg f hf hsame => ?_⟩
    · rw [BuilderModel.modifiers_of_toDeclaration hdecl,
        BuilderModel.visibility_of_ofElement? hbuilder]
      exact (isHidden_publicOrInternal _).mpr
    · have hmodifiers := congrArg Function.modifiers hsame
      rw [show f.modifiers = g.modifiers from hmodifiers]
      exact (Method.isHidden_of_toFunction ((hbuilderMembers.entries p hp).toFunction hg)).mpr

/-- Properties without modifiers keep hidden what they come from just when nothing of that is. -/
theorem forall₂_hides_iff {methods : List Method} {properties : List ConstructorProperty}
    (h : methods.Forall₂ (fun _ q => q.property.modifiers = []) properties) :
    methods.Forall₂ (fun m q => Hides m.modifiers q.property.modifiers) properties ↔
      ∀ m ∈ methods, .publicAccess ∈ m.modifiers := by
  induction h with
  | nil => simp
  | cons hnone _ ih => rw [List.forall₂_cons, hnone, hides_nil_iff, ih, List.forall_mem_cons]

/-- A data class keeps hidden what its value class does, but for two kinds of declarations: the
properties of its constructor do just when all accessors are public, and the functions that give a
changed value just when all methods that they come from are. -/
theorem hidden_members_stay_hidden_iff {e : TypeElement} {enumChildren : List String}
    {model : ClassModel} {d : TypeDecl} {log log' : Log}
    (hmodel : (ofElement? e enumChildren).runOn log = (.ok (some model), log'))
    (hd : model.toDeclaration = .ok d) :
    ∃ members constructor, model.HasMembers e members ∧ d.constructor = some constructor ∧
      d.functions.Perm
        (members.filterMap (·.2.bodyFunction?) ++ (placeholder? model.unrecognized).toList) ∧
      (∀ t ∈ d.types, (∃ b, model.builder = some b ∧ b.toDeclaration model.cls = .ok t) ∨
        t.kind = .companion ∧ t.properties = model.constants ∧
          t.functions.Perm
            (members.filterMap (·.2.namedFunction?) ++ members.filterMap (·.2.invoke?))) ∧
      model.OthersStayHidden e d members ∧
      (e.accessors.Forall₂ (fun m q => Hides m.modifiers q.property.modifiers)
          constructor.properties ↔ ∀ m ∈ e.accessors, .publicAccess ∈ m.modifiers) ∧
      ((∀ p ∈ members, ∀ f, p.2.wither? = some f → Hides p.1.modifiers f.modifiers) ↔
        ∀ p ∈ members, p.2.wither?.isSome = true → .publicAccess ∈ p.1.modifiers) := by
  obtain ⟨members, hmembers⟩ := exists_members hmodel
  obtain ⟨hproperties, -⟩ := accessors_of_ofElement? hmodel
  obtain ⟨-, -, constructor, hconstructor, hdeclared⟩ := constructor_of_toDeclaration hd
  have hbare : e.accessors.Forall₂ (fun _ q => q.property.modifiers = [])
      constructor.properties := by
    refine forall₂_trans (fun m p q _ hq => ?_) hproperties hdeclared
    obtain ⟨default, rfl⟩ := hq
    rfl
  have hwithers : ∀ p ∈ members, ∀ f, p.2.wither? = some f → f.modifiers = [] := by
    rintro ⟨m, entry⟩ hp f hf
    cases entry with
    | wither g =>
      obtain rfl := Option.some.inj hf
      exact (hmembers.entries _ hp).modifiers_wither
    | _ => cases hf
  refine ⟨members, constructor, hmembers, hconstructor, hmembers.functions_perm hd,
    hmembers.types_spec hd, othersStayHidden hmodel hd hmembers, forall₂_hides_iff hbare, ?_⟩
  refine forall₂_congr fun p hp => ?_
  rw [Option.isSome_iff_exists, forall_exists_index]
  refine forall_congr' fun f => imp_congr_right fun hf => ?_
  rw [hwithers p hp f hf, hides_nil_iff]

/-- A public value class whose members can only be used in its package. -/
def secretElement : TypeElement :=
  let string : TypeUse := .declared "java.lang.String" []
  { qualifiedName := "test.Secret"
    package := "test"
    modifiers := [.publicAccess]
    annotations := [{ typeName := valueClassMarker }]
    methods := [
      { name := "key", modifiers := [.abstract], returnType := string },
      { name := "withKey", modifiers := [.abstract], returnType := .declared "test.Secret" [],
        parameters := [{ name := "key", type := string }] }] }

/-- Its property and the function that changes it are public. -/
theorem secret_members_become_public :
    ∃ model d log members constructor,
      (ofElement? secretElement []).runOn [] = (.ok (some model), log) ∧
      model.toDeclaration = .ok d ∧ model.HasMembers secretElement members ∧
      d.constructor = some constructor ∧ Hides secretElement.modifiers d.modifiers ∧
      ¬secretElement.accessors.Forall₂ (fun m q => Hides m.modifiers q.property.modifiers)
          constructor.properties ∧
      ¬∀ p ∈ members, ∀ f, p.2.wither? = some f → Hides p.1.modifiers f.modifiers := by
  have hwithers : ((ofElement? secretElement []).runOn []).1.map
      (·.map fun model => model.withers.map (·.name)) = .ok (some ["withKey"]) := by decide +kernel
  have hnotPublic : ∀ m ∈ secretElement.methods, .publicAccess ∉ m.modifiers := by decide
  obtain ⟨model, d, log, hmodel, hd⟩ := exists_of_hasDeclaration secretElement (by decide +kernel)
  obtain ⟨members, constructor, hmembers, hconstructor, -, -, hothers, hproperties, hchanged⟩ :=
    hidden_members_stay_hidden_iff hmodel hd
  refine ⟨model, d, log, members, constructor, hmodel, hd, hmembers, hconstructor, hothers.cls,
    fun hall => ?_, fun hall => ?_⟩
  · have hpublic := hproperties.mp hall
    exact absurd hpublic (by decide +kernel)
  · rw [hmodel] at hwithers
    obtain ⟨f, hf⟩ : ∃ f, model.withers = [f] :=
      List.length_eq_one_iff.mp (by
        simpa using congrArg List.length (Option.some.inj (Except.ok.inj hwithers)))
    have hmem : f ∈ (members.map (·.2)).filterMap ClassEntry.wither? := by
      rw [← hmembers.holds.withers, hf]
      exact List.mem_singleton_self f
    rw [List.filterMap_map] at hmem
    obtain ⟨p, hp, hwither⟩ := List.mem_filterMap.mp hmem
    have hmethod : p.1 ∈ secretElement.methods := hmembers.methods ▸ List.mem_map_of_mem hp
    exact hnotPublic p.1 hmethod (hchanged.mp hall p hp (Option.isSome_of_eq_some hwither))

end ClassModel

end DataClassGen
