import DataClassGen.Proofs.Model.Declaration
import DataClassGen.Proofs.Model.Methods

/-!
# The functions of a builder

What the functions of a builder are, by what they were made from: the setters of a property are
known by their names, and no other function takes a value. The declaration of a builder has these
functions and, if methods are left to be moved by hand, one that lists them.
-/

namespace DataClassGen

open Source

/-- The function of a method has its name and takes nothing if the method does; it has no body. -/
theorem Method.toFunction_spec {m : Method} {f : Function} (h : m.toFunction = .ok f) :
    f.name = m.name ∧ f.body = [] ∧ (m.parameters = [] → f.parameters = []) := by
  obtain ⟨typeParameters, -, h⟩ := bind_ok_iff.mp h
  obtain ⟨returns, -, h⟩ := bind_ok_iff.mp h
  obtain ⟨parameters, hparameters, h⟩ := bind_ok_iff.mp h
  obtain ⟨thrown, -, h⟩ := bind_ok_iff.mp h
  obtain rfl := Except.ok.inj h
  refine ⟨rfl, rfl, fun hnil => ?_⟩
  rw [hnil] at hparameters
  obtain rfl := Except.ok.inj hparameters
  show (if m.isVarargs then lastVararg [] else []) = []
  split <;> rfl

theorem exists_of_mem_forall₂ {α β : Type} {R : α → β → Prop} {as : List α} {bs : List β}
    (h : as.Forall₂ R bs) {b : β} (hb : b ∈ bs) : ∃ a ∈ as, R a b := by
  induction h with
  | nil => cases hb
  | cons hab _ ih =>
    rcases List.mem_cons.mp hb with rfl | hb
    · exact ⟨_, List.mem_cons_self, hab⟩
    · obtain ⟨a, ha, hab⟩ := ih hb
      exact ⟨a, List.mem_cons_of_mem _ ha, hab⟩

/-- A method that gives access to a builder of a property is named for both. -/
theorem PropertySet.name_of_subBuilderTarget? {set : PropertySet} {name : String} {i : Nat}
    {p : ValueProperty} (h : set.subBuilderTarget? name = some i)
    (hp : set.properties[i]? = some p) : name = p.name ++ "Builder" := by
  obtain ⟨rest, hrest, h⟩ := Option.bind_eq_some_iff.mp h
  obtain ⟨hi, hname, -⟩ := List.findIdx?_eq_some_iff_getElem.mp h
  obtain ⟨hi', hget⟩ := List.getElem?_eq_some_iff.mp hp
  rw [Text.eq_append_of_before? hrest, ← hget, beq_iff_eq.mp hname]

/-- What each thing tells of the one in its place, all tell together. -/
theorem map_of_forall₂ {α β γ : Type} {R : α → β → Prop} {g : α → γ} {k : β → γ}
    (hR : ∀ a b, R a b → k b = g a) {as : List α} {bs : List β} (h : as.Forall₂ R bs) :
    bs.map k = as.map g := by
  induction h with
  | nil => rfl
  | cons hab _ ih => rw [List.map_cons, List.map_cons, hR _ _ hab, ih]

/-- What each result tells of what it was made from, all results tell together. -/
theorem map_of_mapM {α β γ : Type} {f : α → Except Failure β} {g : α → γ} {k : β → γ}
    (hf : ∀ a b, f a = .ok b → k b = g a) {as : List α} {bs : List β} (h : as.mapM f = .ok bs) :
    bs.map k = as.map g := map_of_forall₂ hf (forall₂_of_mapM h)

namespace BuilderModel

/-- The functions of the builder are those of a builder for these properties. -/
structure IsFor (b : BuilderModel) (set : PropertySet) : Prop where
  properties : b.properties.map (fun p => (p.name, p.type)) =
    set.properties.map (fun p => (p.name, p.type))
  setters : ∀ i p, b.properties[i]? = some p → ∀ f ∈ p.setters,
    f.body = [] ∧ set.setterTarget? f.name = some i
  subBuilders : ∀ p ∈ b.properties, ∀ s, p.subBuilder = some s →
    s.accessor.body = [] ∧ s.accessor.parameters = [] ∧ s.accessor.name = p.name ++ "Builder"
  finalizeMethod : b.finalizeMethod.body = [] ∧ b.finalizeMethod.parameters = []
  buildMethod : ∀ f, b.buildMethod = some f → f.body = [] ∧ f.parameters = []

/-- The properties of the builder have the names of those of the class. -/
theorem IsFor.names {b : BuilderModel} {set : PropertySet} (hb : b.IsFor set) :
    b.properties.map (·.name) = set.properties.map (·.name) := by
  have h := congrArg (List.map Prod.fst) hb.properties
  rwa [List.map_map, List.map_map] at h

theorem isFor_of_ofElement? {builder value : TypeElement} {set : PropertySet} {b : BuilderModel}
    {log log' : Log} (h : (ofElement? builder value set).runOn log = (.ok (some b), log')) :
    b.IsFor set := by
  obtain ⟨hproperties, entries, hfor, holds⟩ := exists_entries h
  -- each place of the model is filled by an entry, which tells what it was made from
  refine ⟨hproperties, fun i p hp f hf => ?_, fun p hp s hs => ?_, ?_, fun f hf => ?_⟩
  · obtain ⟨m, -, htarget, htoFunction⟩ :=
      exists_of_mem_forall₂ hfor ((holds.mem_setters hp).mp hf)
    have hspec := Method.toFunction_spec htoFunction
    exact ⟨hspec.2.1, hspec.1 ▸ htarget⟩
  · obtain ⟨i, hi⟩ := List.getElem?_of_mem hp
    obtain ⟨m, -, htarget, hm, htoFunction, -⟩ :=
      exists_of_mem_forall₂ hfor (holds.mem_of_subBuilder hi hs)
    have hspec := Method.toFunction_spec htoFunction
    refine ⟨hspec.2.1, hspec.2.2 hm, ?_⟩
    have hname := (congrArg (·[i]?) hproperties).symm
    rw [List.getElem?_map, List.getElem?_map, hi, Option.map_some] at hname
    obtain ⟨q, hq, hpair⟩ := Option.map_eq_some_iff.mp hname
    rw [hspec.1, ← (Prod.mk.inj hpair).1]
    exact PropertySet.name_of_subBuilderTarget? htarget hq
  · obtain ⟨m, -, -, hm, htoFunction⟩ := exists_of_mem_forall₂ hfor holds.finalizer_mem
    have hspec := Method.toFunction_spec htoFunction
    exact ⟨hspec.2.1, hspec.2.2 hm⟩
  · obtain ⟨m, -, -, hm, htoFunction⟩ := exists_of_mem_forall₂ hfor (holds.mem_of_buildMethod hf)
    have hspec := Method.toFunction_spec htoFunction
    exact ⟨hspec.2.1, hspec.2.2 hm⟩

/-- Properties that can be set by functions of one name are one property. -/
theorem IsFor.eq_of_setter {b : BuilderModel} {set : PropertySet} (hb : b.IsFor set)
    {p q : BuilderProperty} (hp : p ∈ b.properties) (hq : q ∈ b.properties) {f g : Function}
    (hf : f ∈ p.setters) (hg : g ∈ q.setters) (hname : f.name = g.name) : p = q := by
  obtain ⟨i, hi⟩ := List.getElem?_of_mem hp
  obtain ⟨j, hj⟩ := List.getElem?_of_mem hq
  have hfi := (hb.setters i p hi f hf).2
  rw [hname, (hb.setters j q hj g hg).2] at hfi
  obtain rfl := Option.some.inj hfi
  exact Option.some.inj (hi.symm.trans hj)

/-- The declaration of the builder, by its parts. -/
theorem toDeclaration_spec {b : BuilderModel} {valueClass : ClassName} {decl : TypeDecl}
    (h : b.toDeclaration valueClass = .ok decl) :
    ∃ zeros : List (BuilderProperty × Option Code), zeros.map (·.1) = b.properties ∧
      decl.name = b.name ∧ decl.kind = .classDecl ∧
      (∃ modifiers, decl.constructor =
        some ⟨modifiers, zeros.map fun p => p.1.constructorVariable p.2⟩) ∧
      decl.properties = b.properties.flatMap (·.fields) ∧
      decl.functions = b.properties.flatMap (·.functions) ++ b.buildFunction?.toList ++
        [b.finalizeFunction valueClass (zeros.map fun p => p.1.argument p.2)] ++
        (placeholder? b.unrecognized).toList := by
  obtain ⟨zeros, hzeros, h⟩ := bind_ok_iff.mp h
  obtain rfl := Except.ok.inj h
  refine ⟨zeros, ?_, rfl, rfl, ⟨_, rfl⟩, rfl, rfl⟩
  refine (map_of_mapM (fun p pair hpair => ?_) hzeros).trans (List.map_id _)
  obtain ⟨zero, -, hpair⟩ := bind_ok_iff.mp hpair
  rw [← Except.ok.inj hpair]
  rfl

/-- The functions in the declaration of a builder that take anything are its setters. -/
theorem setter_of_mem_functions {b : BuilderModel} {set : PropertySet} (hb : b.IsFor set)
    {valueClass : ClassName} {decl : TypeDecl} (h : b.toDeclaration valueClass = .ok decl)
    {f : Function} (hf : f ∈ decl.functions) (hparameters : f.parameters ≠ []) :
    ∃ p ∈ b.properties, ∃ s ∈ p.setters, f = p.setterFunction s := by
  obtain ⟨zeros, -, -, -, -, -, hfunctions⟩ := toDeclaration_spec h
  rw [hfunctions] at hf
  simp only [List.mem_append, List.mem_flatMap, Option.mem_toList, List.mem_singleton] at hf
  obtain ((⟨p, hp, hf⟩ | hf) | rfl) | hf := hf
  · rcases List.mem_append.mp hf with hf | hf
    · obtain ⟨s, hs, rfl⟩ := List.mem_map.mp hf
      exact ⟨p, hp, s, hs, rfl⟩
    · obtain ⟨s, hs, rfl⟩ := List.mem_map.mp hf
      exact absurd (hb.subBuilders p hp s (Option.mem_toList.mp hs)).2.1 hparameters
  · obtain ⟨hook, hhook, rfl⟩ := Option.map_eq_some_iff.mp hf
    exact absurd (hb.buildMethod hook hhook).2 hparameters
  · exact absurd hb.finalizeMethod.2 hparameters
  · rw [placeholder?] at hf
    split at hf
    · cases hf
    · obtain rfl := Option.some.inj hf
      exact absurd rfl hparameters

end BuilderModel

namespace ClassModel

/-- What is known of the builder of a class. -/
theorem builder_of_context {c : ClassContext} (h : match c.element.nestedTypes.find? (·.isBuilder) with
      | none => c.builder = none
      | some builder => ∃ b log₁ log₂,
        (BuilderModel.ofElement? builder c.element c.properties).runOn log₁ = (.ok (some b), log₂) ∧
          c.builder = some (b, c.cls.nested b.name))
    {b : BuilderModel} {cls : ClassName} (hb : c.builder = some (b, cls)) :
    cls = c.cls.nested b.name ∧
      ∃ builder, c.element.nestedTypes.find? (·.isBuilder) = some builder ∧ ∃ log₁ log₂,
      (BuilderModel.ofElement? builder c.element c.properties).runOn log₁ = (.ok (some b), log₂) := by
  cases hfound : c.element.nestedTypes.find? (·.isBuilder) with
  | none =>
    rw [hfound] at h
    rw [h] at hb
    cases hb
  | some builder =>
    rw [hfound] at h
    obtain ⟨b', log₁, log₂, hb', hpair⟩ := h
    obtain ⟨rfl, rfl⟩ := Prod.mk.inj (Option.some.inj (hpair.symm.trans hb))
    exact ⟨rfl, builder, rfl, log₁, log₂, hb'⟩

/-- The builder of a class is made from the first nested type that is one, and the properties of the
class. -/
theorem found_builder_of_ofElement? {e : TypeElement} {enumChildren : List String}
    {model : ClassModel} {log log' : Log}
    (h : (ofElement? e enumChildren).runOn log = (.ok (some model), log')) {b : BuilderModel}
    (hb : model.builder = some b) :
    ∃ builder, e.nestedTypes.find? (·.isBuilder) = some builder ∧ ∃ log₁ log₂,
      (BuilderModel.ofElement? builder e model.properties).runOn log₁ = (.ok (some b), log₂) := by
  obtain ⟨c, rfl, -, -, hproperties, hbuilder, hmodel⟩ := context_of_ofElement? h
  obtain ⟨fits, -⟩ := exists_entries_of_ofContext hproperties
    (fun b cls hb => (builder_of_context hbuilder hb).1) hmodel
  rw [fits.properties]
  exact (builder_of_context hbuilder (by rw [fits.builder, hb]; rfl)).2

/-- The builder of a class is made from a nested type and the properties of the class. -/
theorem builder_of_ofElement? {e : TypeElement} {enumChildren : List String} {model : ClassModel}
    {log log' : Log} (h : (ofElement? e enumChildren).runOn log = (.ok (some model), log'))
    {b : BuilderModel} (hb : model.builder = some b) : ∃ builder ∈ e.nestedTypes, ∃ log₁ log₂,
      (BuilderModel.ofElement? builder e model.properties).runOn log₁ = (.ok (some b), log₂) := by
  obtain ⟨builder, hfound, hmodel⟩ := found_builder_of_ofElement? h hb
  exact ⟨builder, List.mem_of_find?_eq_some hfound, hmodel⟩

/-- What the functions of a value class are made from. -/
theorem functions_of_ofElement? {e : TypeElement} {enumChildren : List String} {model : ClassModel}
    {log log' : Log} (h : (ofElement? e enumChildren).runOn log = (.ok (some model), log')) :
    (∀ b, model.builder = some b → b.IsFor model.properties) ∧
    (∀ f ∈ model.toBuilders, ∃ b, model.builder = some b ∧
      f.body = [.code (model.builderFromProperties b)] ∧ f.parameters = []) ∧
    ∀ w ∈ model.withers, ∃ p ∈ model.properties.properties, ∃ name selfType,
      w = model.witherFor name p selfType := by
  obtain ⟨c, rfl, hcls, hname, hproperties, hbuilder, hmodel⟩ := context_of_ofElement? h
  obtain ⟨fits, entries, hfor, holds⟩ := exists_entries_of_ofContext hproperties
    (fun b cls hb => (builder_of_context hbuilder hb).1) hmodel
  refine ⟨fun b hb => ?_, fun f hf => ?_, fun w hw => ?_⟩
  · obtain ⟨builder, -, log₁, log₂, hb⟩ := builder_of_ofElement? h hb
    exact BuilderModel.isFor_of_ofElement? hb
  · obtain ⟨m, -, b, hb, hm, k, hk, rfl⟩ := exists_of_mem_forall₂ hfor (holds.mem_toBuilders.mp hf)
    have hspec := Method.toFunction_spec hk
    refine ⟨b, hb, ?_, hspec.2.2 hm⟩
    rw [Function.doing, hspec.2.1, List.nil_append]
  · obtain ⟨m, -, rest, p, selfType, -, hp, rfl⟩ :=
      exists_of_mem_forall₂ hfor (holds.mem_withers.mp hw)
    exact ⟨p, List.mem_of_find?_eq_some hp, m.name, selfType, rfl⟩

/-- The declaration of a value class, by its parts. -/
theorem toDeclaration_spec {c : ClassModel} {d : TypeDecl} (h : c.toDeclaration = .ok d) :
    (∃ constructor, d.constructor = some constructor ∧
      constructor.properties.map (·.property.name) = c.properties.properties.map (·.name)) ∧
    d.properties = [] ∧ (∀ f ∈ c.toBuilders, f ∈ d.functions) ∧
    (∀ b, c.builder = some b → ∃ decl ∈ d.types, b.toDeclaration c.cls = .ok decl) ∧
    ∀ decl ∈ d.types, decl.kind = .classDecl →
      ∃ b, c.builder = some b ∧ b.toDeclaration c.cls = .ok decl := by
  obtain ⟨builders, hbuilders, htypes⟩ := types_of_toDeclaration h
  obtain ⟨properties, hproperties, h⟩ := bind_ok_iff.mp h
  obtain ⟨builder, -, h⟩ := bind_ok_iff.mp h
  obtain rfl := Except.ok.inj h
  refine ⟨⟨_, rfl, map_of_mapM (fun p q hq => ?_) hproperties⟩, rfl, fun f hf => ?_, fun b hb => ?_,
    fun decl hmem hkind => ?_⟩
  · obtain ⟨default, -, hq⟩ := bind_ok_iff.mp hq
    rw [← Except.ok.inj hq]
    rfl
  · exact List.mem_append_right _ hf
  · rw [hb] at hbuilders
    obtain ⟨decl, rest, hdecl, -, rfl⟩ := List.forall₂_cons_left_iff.mp hbuilders
    exact ⟨decl, htypes ▸ List.mem_append_left _ List.mem_cons_self, hdecl⟩
  · rw [htypes] at hmem
    obtain hmem | hmem := List.mem_append.mp hmem
    · obtain ⟨b, hb, hdecl⟩ := exists_of_mem_forall₂ hbuilders hmem
      exact ⟨b, Option.mem_toList.mp hb, hdecl⟩
    · -- the companion object is no class
      rw [(of_companion? (Option.mem_toList.mp hmem)).1] at hkind
      cases hkind

end ClassModel

end DataClassGen
