import DataClassGen.Model.Class
import DataClassGen.Proofs.Model.BuilderMethods

/-!
# The methods of a value class

The model of a value class has lists of its properties, of the functions that give a builder, of
those that change a property and so on. Each of these is the list of what the methods of one kind
became: every method has one entry in one of the lists, and the entries of a list stand in the order
of their methods (`every_method_has_an_entry`). The same holds of the builder and its methods.

The methods are sorted in three passes: the accessors are collected first, then each method is given
a role by its own signature, and those without a role are looked at once more. The three are
followed side by side, method by method (`ClassContext.exists_entries`).
-/

namespace DataClassGen

open Source

/-! ### Entries of the model of a class -/

namespace ClassModel

/-- The class of the builder. -/
def builderClass (c : ClassModel) (b : BuilderModel) : ClassName := c.cls.nested b.name

/-- The statement that gives a new builder with the values of the properties. -/
def builderFromProperties (c : ClassModel) (b : BuilderModel) : Code :=
  Code.lit "return " ++ Code.classed (c.builderClass b) ++ Code.lit "(" ++
    c.properties.forwardingArguments none ++ Code.lit ")"

/-- The function that gives the builder a value came from and takes nothing, if there is one. -/
def plainToBuilder? (c : ClassModel) : Option Function :=
  c.toBuilders.find? (·.parameters.isEmpty)

/-- The function of this name that changes a property. -/
def witherFor (c : ClassModel) (name : String) (p : ValueProperty) (selfType : TypeName) :
    Function :=
  { name
    parameters := [{ name := p.name, type := p.type }]
    returns := some selfType
    body := [.code (witherBody p.name c.properties
      (c.builder.map fun b => (b, c.builderClass b)) c.plainToBuilder?)] }

end ClassModel

/-- What a method of a value class became, and in which list of the model it stands. -/
inductive ClassEntry where
  | property (property : ValueProperty)
  | builderFactory (function : Function)
  | toBuilder (function : Function)
  | creator (creator : Creator)
  | wither (function : Function)
  | unrecognized (signature : String)

namespace ClassEntry

/-- The property, if the entry is one. -/
@[simp]
def property? : ClassEntry → Option ValueProperty
  | .property p => some p
  | _ => none

/-- The function that gives a builder, if the entry is one. -/
@[simp]
def builderFactory? : ClassEntry → Option Function
  | .builderFactory f => some f
  | _ => none

/-- The function that gives the builder a value came from, if the entry is one. -/
@[simp]
def toBuilder? : ClassEntry → Option Function
  | .toBuilder f => some f
  | _ => none

/-- The method that gives a value, if the entry is one. -/
@[simp]
def creator? : ClassEntry → Option Creator
  | .creator k => some k
  | _ => none

/-- The function that changes a property, if the entry is one. -/
@[simp]
def wither? : ClassEntry → Option Function
  | .wither f => some f
  | _ => none

/-- The signature of a method to be moved by hand, if the entry is one. -/
@[simp]
def unrecognized? : ClassEntry → Option String
  | .unrecognized s => some s
  | _ => none

/-- The entry is what the method becomes in the model `c`. -/
def IsFor (c : ClassModel) (m : Method) : ClassEntry → Prop
  | .property p => ∃ name, ValueProperty.ofAccessor name m = .ok p
  | .builderFactory f => ∃ g, m.toFunction = .ok g ∧ f = g.doing (todo replaceTodo)
  | .toBuilder f => ∃ b, c.builder = some b ∧ m.parameters = [] ∧
      ∃ g, m.toFunction = .ok g ∧ f = g.doing (c.builderFromProperties b)
  | .creator k => Creator.ofMethod c.cls c.properties m = .ok k
  | .wither f => ∃ rest p selfType, Text.after? "with" m.name = some rest ∧
      c.properties.find? (lowercaseFirst rest) = some p ∧ f = c.witherFor m.name p selfType
  | .unrecognized s => s = m.signature

theorem toBuilder?_eq_some_iff {e : ClassEntry} {f : Function} :
    e.toBuilder? = some f ↔ e = .toBuilder f := by
  cases e <;> simp

theorem wither?_eq_some_iff {e : ClassEntry} {f : Function} :
    e.wither? = some f ↔ e = .wither f := by
  cases e <;> simp

/-- Entries are as many as those of all kinds together. -/
theorem length_eq (entries : List ClassEntry) :
    (entries.filterMap property?).length + (entries.filterMap builderFactory?).length +
      (entries.filterMap toBuilder?).length + (entries.filterMap creator?).length +
      (entries.filterMap wither?).length + (entries.filterMap unrecognized?).length =
        entries.length := by
  induction entries with
  | nil => rfl
  | cons e es ih =>
    cases e <;>
      simp [List.filterMap_cons] <;> omega

end ClassEntry

/-- What a method becomes by its own signature, if that tells it. -/
def MethodRole.entry? : MethodRole → Option ClassEntry
  | .builderFactory f => some (.builderFactory f)
  | .toBuilder f => some (.toBuilder f)
  | .creator k => some (.creator k)
  | .accessor | .other => none

theorem MethodRole.property?_of_entry? {role : MethodRole} {e : ClassEntry}
    (h : role.entry? = some e) : e.property? = none := by
  cases role <;> cases h <;> rfl

/-- The lists of the model are these entries, kind by kind. -/
structure ClassModel.Holds (c : ClassModel) (entries : List ClassEntry) : Prop where
  properties : c.properties.properties = entries.filterMap ClassEntry.property?
  builderFactories : c.builderFactories = entries.filterMap ClassEntry.builderFactory?
  toBuilders : c.toBuilders = entries.filterMap ClassEntry.toBuilder?
  creators : c.creators = entries.filterMap ClassEntry.creator?
  withers : c.withers = entries.filterMap ClassEntry.wither?
  unrecognized : c.unrecognized = entries.filterMap ClassEntry.unrecognized?

theorem ClassModel.Holds.mem_toBuilders {c : ClassModel} {entries : List ClassEntry}
    (holds : c.Holds entries) {f : Function} : f ∈ c.toBuilders ↔ .toBuilder f ∈ entries := by
  rw [holds.toBuilders, List.mem_filterMap]
  simp only [ClassEntry.toBuilder?_eq_some_iff, exists_eq_right]

theorem ClassModel.Holds.mem_withers {c : ClassModel} {entries : List ClassEntry}
    (holds : c.Holds entries) {f : Function} : f ∈ c.withers ↔ .wither f ∈ entries := by
  rw [holds.withers, List.mem_filterMap]
  simp only [ClassEntry.wither?_eq_some_iff, exists_eq_right]

/-- The lists are as long together as the list of entries. -/
theorem ClassModel.Holds.length_eq {c : ClassModel} {entries : List ClassEntry}
    (holds : c.Holds entries) :
    c.properties.properties.length + c.builderFactories.length + c.toBuilders.length +
      c.creators.length + c.withers.length + c.unrecognized.length = entries.length := by
  rw [holds.properties, holds.builderFactories, holds.toBuilders, holds.creators, holds.withers,
    holds.unrecognized, ClassEntry.length_eq]

/-! ### The methods of a class -/

namespace ClassContext

variable {c : ClassContext} {model : ClassModel}

/-- The model goes by what is known of the class. -/
structure Fits (c : ClassContext) (model : ClassModel) : Prop where
  cls : model.cls = c.cls
  properties : model.properties = c.properties
  builder : c.builder = model.builder.map fun b => (b, model.builderClass b)

/-- A static method that gives a value is entered as such, if it has no role of another kind. -/
theorem isFor_of_creatorOrOther (fits : c.Fits model) {m : Method} {role : MethodRole}
    (h : roleOf.creatorOrOther c m = .ok role) :
    role = .other ∨ ∃ e, role.entry? = some e ∧ e.IsFor model m := by
  rw [roleOf.creatorOrOther] at h
  split at h
  · obtain ⟨k, hk, h⟩ := bind_ok_iff.mp h
    obtain rfl := Except.ok.inj h
    refine Or.inr ⟨.creator k, rfl, ?_⟩
    rw [ClassEntry.IsFor, fits.cls, fits.properties]
    exact hk
  · exact Or.inl (Except.ok.inj h).symm

/-- The accessors have the role of accessors; any other method is left for later, or is entered for
what its role says. -/
theorem isFor_of_roleOf (fits : c.Fits model) {m : Method} {role : MethodRole}
    (h : c.roleOf m = .ok role) :
    if m.isAccessor c.builderName then role = .accessor
    else role = .other ∨ ∃ e, role.entry? = some e ∧ e.IsFor model m := by
  rw [roleOf] at h
  split at h
  · next haccessor =>
    rw [if_pos haccessor]
    exact (Except.ok.inj h).symm
  · next haccessor =>
    rw [if_neg haccessor]
    split at h
    · obtain ⟨g, hg, h⟩ := bind_ok_iff.mp h
      obtain rfl := Except.ok.inj h
      exact Or.inr ⟨.builderFactory _, rfl, g, hg, rfl⟩
    · split at h
      · next b builderClass hbuilder =>
        split at h
        · next htoBuilder =>
          obtain ⟨g, hg, h⟩ := bind_ok_iff.mp h
          obtain rfl := Except.ok.inj h
          obtain ⟨b', hb', hpair⟩ := Option.map_eq_some_iff.mp (fits.builder.symm.trans hbuilder)
          obtain ⟨rfl, rfl⟩ := Prod.mk.inj hpair
          simp only [Bool.and_eq_true, List.isEmpty_iff] at htoBuilder
          refine Or.inr ⟨.toBuilder _, rfl, b', hb', htoBuilder.2, g, hg, ?_⟩
          rw [ClassModel.builderFromProperties, fits.properties]
        · exact isFor_of_creatorOrOther fits h
      · exact isFor_of_creatorOrOther fits h

/-- A method that changes a property is entered among those. -/
theorem isFor_of_wither? (fits : c.Fits model) {m : Method} {f : Function}
    (h : c.wither? model.plainToBuilder? m = .ok (some f)) :
    (ClassEntry.wither f).IsFor model m := by
  rw [wither?] at h
  split at h
  · cases h
  · next p hp =>
    obtain ⟨rest, hrest, hp⟩ := Option.bind_eq_some_iff.mp hp
    obtain ⟨parameters, -, h⟩ := bind_ok_iff.mp h
    obtain ⟨resultType, -, h⟩ := bind_ok_iff.mp h
    split at h
    · obtain rfl := Option.some.inj (Except.ok.inj h)
      refine ⟨rest, p, c.selfType, hrest, fits.properties ▸ hp, ?_⟩
      rw [ClassModel.witherFor, fits.properties, fits.builder]
    · cases h

theorem leftOver_cons_other (m : Method) (methods : List Method) (roles : List MethodRole) :
    leftOver (m :: methods) (.other :: roles) = m :: leftOver methods roles := rfl

theorem leftOver_cons {role : MethodRole} (h : role ≠ .other) (m : Method) (methods : List Method)
    (roles : List MethodRole) : leftOver (m :: methods) (role :: roles) = leftOver methods roles := by
  rw [leftOver, List.zip_cons_cons, List.filter_cons_of_neg (by simpa using h), leftOver]

/-- The three passes over the methods together enter each of them once, and the accessors as
properties. -/
theorem exists_entries (fits : c.Fits model) {name : Method → String} {methods : List Method}
    {properties : List ValueProperty} {roles : List MethodRole} {withers : List (Option Function)}
    (hproperties : (methods.filter (Method.isAccessor c.builderName)).mapM
      (fun m => ValueProperty.ofAccessor (name m) m) = .ok properties)
    (hroles : methods.mapM c.roleOf = .ok roles)
    (hwithers : (leftOver methods roles).mapM (c.wither? model.plainToBuilder?) = .ok withers) :
    ∃ entries, methods.Forall₂ (fun m e => ClassEntry.IsFor model m e ∧
        e.property?.isSome = m.isAccessor c.builderName) entries ∧
      properties = entries.filterMap ClassEntry.property? ∧
      roles.filterMap MethodRole.builderFactory? = entries.filterMap ClassEntry.builderFactory? ∧
      roles.filterMap MethodRole.toBuilder? = entries.filterMap ClassEntry.toBuilder? ∧
      roles.filterMap MethodRole.creator? = entries.filterMap ClassEntry.creator? ∧
      withers.filterMap id = entries.filterMap ClassEntry.wither? ∧
      (((leftOver methods roles).zip withers).filter (·.2.isNone)).map (·.1.signature) =
        entries.filterMap ClassEntry.unrecognized? := by
  induction methods generalizing properties roles withers with
  | nil =>
    cases hproperties
    cases hroles
    cases hwithers
    exact ⟨[], .nil, rfl, rfl, rfl, rfl, rfl, rfl⟩
  | cons m methods ih =>
    rw [List.mapM_cons] at hroles
    obtain ⟨role, hrole, hroles⟩ := bind_ok_iff.mp hroles
    obtain ⟨rest, hrest, hroles⟩ := bind_ok_iff.mp hroles
    obtain rfl := Except.ok.inj hroles
    have hentry := isFor_of_roleOf fits hrole
    by_cases haccessor : m.isAccessor c.builderName
    · rw [if_pos haccessor] at hentry
      subst hentry
      rw [List.filter_cons_of_pos haccessor, List.mapM_cons] at hproperties
      obtain ⟨p, hp, hproperties⟩ := bind_ok_iff.mp hproperties
      obtain ⟨ps, hps, hproperties⟩ := bind_ok_iff.mp hproperties
      obtain rfl := Except.ok.inj hproperties
      rw [leftOver_cons (by simp)] at hwithers ⊢
      obtain ⟨entries, hfor, hlists⟩ := ih hps hrest hwithers
      refine ⟨.property p :: entries, .cons ⟨⟨name m, hp⟩, haccessor.symm⟩ hfor, ?_⟩
      simpa [List.filterMap_cons, MethodRole.builderFactory?, MethodRole.toBuilder?,
        MethodRole.creator?] using hlists
    · rw [if_neg haccessor] at hentry
      rw [List.filter_cons_of_neg haccessor] at hproperties
      have hnone : ∀ {e : ClassEntry}, e.property? = none →
          e.property?.isSome = m.isAccessor c.builderName := fun he => by
        rw [he, Bool.eq_false_of_not_eq_true haccessor]
        rfl
      rcases hentry with rfl | ⟨e, he, hfor⟩
      · rw [leftOver_cons_other, List.mapM_cons] at hwithers
        obtain ⟨wither, hwither, hwithers⟩ := bind_ok_iff.mp hwithers
        obtain ⟨ws, hws, hwithers⟩ := bind_ok_iff.mp hwithers
        obtain rfl := Except.ok.inj hwithers
        obtain ⟨entries, hfor, hlists⟩ := ih hproperties hrest hws
        cases wither with
        | none =>
          refine ⟨.unrecognized m.signature :: entries, .cons ⟨rfl, hnone rfl⟩ hfor, ?_⟩
          simpa [List.filterMap_cons, MethodRole.builderFactory?, MethodRole.toBuilder?,
            MethodRole.creator?, leftOver_cons_other] using hlists
        | some f =>
          refine ⟨.wither f :: entries, .cons ⟨isFor_of_wither? fits hwither, hnone rfl⟩ hfor, ?_⟩
          simpa [List.filterMap_cons, MethodRole.builderFactory?, MethodRole.toBuilder?,
            MethodRole.creator?, leftOver_cons_other] using hlists
      · have hother : role ≠ .other := by
          rintro rfl
          cases he
        rw [leftOver_cons hother] at hwithers ⊢
        obtain ⟨entries, hfors, hlists⟩ := ih hproperties hrest hwithers
        refine ⟨e :: entries, .cons ⟨hfor, hnone (MethodRole.property?_of_entry? he)⟩ hfors, ?_⟩
        cases role <;> cases he <;>
          simpa [List.filterMap_cons, MethodRole.builderFactory?, MethodRole.toBuilder?,
            MethodRole.creator?] using hlists

end ClassContext

/-! ### Models of classes -/

namespace ClassModel

/-- The model goes by what is known of the class, and every method has an entry in it, the accessors
as properties. -/
theorem exists_accessor_entries_of_ofContext {c : ClassContext} {enumChildren : List String}
    {model : ClassModel} (hproperties : PropertySet.ofElement c.builderName c.element = .ok c.properties)
    (hbuilder : ∀ b cls, c.builder = some (b, cls) → cls = c.cls.nested b.name)
    (h : ofContext c enumChildren = .ok model) :
    c.Fits model ∧
      ∃ entries, c.element.methods.Forall₂ (fun m e => ClassEntry.IsFor model m e ∧
          e.property?.isSome = m.isAccessor c.builderName) entries ∧
        model.Holds entries := by
  obtain ⟨roles, changing, made⟩ := isMadeFrom_of_ofContext h
  have fits : c.Fits model := by
    refine ⟨made.cls, made.properties, ?_⟩
    cases hb : c.builder with
    | none =>
      rw [made.builder, hb]
      rfl
    | some pair =>
      obtain ⟨b, cls⟩ := pair
      rw [made.builder, hb, hbuilder b cls hb, ← made.cls]
      rfl
  rw [PropertySet.ofElement] at hproperties
  obtain ⟨properties, haccessors, hset⟩ := bind_ok_iff.mp hproperties
  obtain ⟨entries, hfor, h₁, h₂, h₃, h₄, h₅, h₆⟩ :=
    ClassContext.exists_entries fits haccessors made.roleOf made.wither
  refine ⟨fits, entries, hfor, {
    properties := ?_
    builderFactories := made.builderFactories.trans h₂
    toBuilders := made.toBuilders.trans h₃
    creators := made.creators.trans h₄
    withers := made.withers.trans h₅
    unrecognized := made.unrecognized.trans h₆ }⟩
  rw [fits.properties, ← Except.ok.inj hset, h₁]

/-- The model goes by what is known of the class, and every method has an entry in it. -/
theorem exists_entries_of_ofContext {c : ClassContext} {enumChildren : List String}
    {model : ClassModel} (hproperties : PropertySet.ofElement c.builderName c.element = .ok c.properties)
    (hbuilder : ∀ b cls, c.builder = some (b, cls) → cls = c.cls.nested b.name)
    (h : ofContext c enumChildren = .ok model) :
    c.Fits model ∧
      ∃ entries, c.element.methods.Forall₂ (ClassEntry.IsFor model) entries ∧
        model.Holds entries := by
  obtain ⟨fits, entries, hfor, hholds⟩ :=
    exists_accessor_entries_of_ofContext hproperties hbuilder h
  exact ⟨fits, entries, hfor.imp fun _ _ hentry => hentry.1, hholds⟩

/-- Every method has one entry in the model of its class: each list of the model is the list of the
entries of one kind, in the order of the methods. So it is with the methods of the builder, which
the model has one of if the class does: each sets a property, gives access to a builder of one, is
one of the two that finish a value, or is left to be moved by hand. -/
theorem every_method_has_an_entry {e : TypeElement} {enumChildren : List String} {model : ClassModel}
    {log log' : Log} (h : (ofElement? e enumChildren).runOn log = (.ok (some model), log')) :
    (∃ entries, e.methods.Forall₂ (ClassEntry.IsFor model) entries ∧ model.Holds entries ∧
      model.properties.properties.length + model.builderFactories.length + model.toBuilders.length +
        model.creators.length + model.withers.length + model.unrecognized.length =
          e.methods.length) ∧
    model.builder.isSome = (e.nestedTypes.find? (·.isBuilder)).isSome ∧
    ∀ builder b, e.nestedTypes.find? (·.isBuilder) = some builder → model.builder = some b →
      b.properties.map (·.name) = model.properties.properties.map (·.name) ∧
      ∃ entries, builder.methods.Forall₂ (BuilderEntry.IsFor model.properties) entries ∧
        b.Holds entries ∧
        (b.properties.flatMap (·.setters)).length + (b.properties.filterMap (·.subBuilder)).length +
          [b.finalizeMethod].length + b.buildMethod.toList.length + b.unrecognized.length =
            builder.methods.length := by
  obtain ⟨c, rfl, hcls, hname, hproperties, hbuilder, hmodel⟩ := context_of_ofElement? h
  generalize c.element.nestedTypes.find? (·.isBuilder) = found at hbuilder ⊢
  cases found with
  | none =>
    obtain ⟨fits, entries, hfor, hholds⟩ := exists_entries_of_ofContext hproperties
      (fun b cls hb => by rw [hbuilder] at hb; cases hb) hmodel
    have hnone : model.builder = none :=
      Option.map_eq_none_iff.mp (fits.builder.symm.trans hbuilder)
    refine ⟨⟨entries, hfor, hholds, hholds.length_eq.trans hfor.length_eq.symm⟩, ?_, ?_⟩
    · rw [hnone]
      rfl
    · rintro builder b ⟨⟩
  | some builder =>
    obtain ⟨b, log₁, log₂, hb, hpair⟩ := hbuilder
    obtain ⟨fits, entries, hfor, hholds⟩ := exists_entries_of_ofContext hproperties
      (fun b' cls hb' => by rw [hpair] at hb'; cases hb'; rfl) hmodel
    obtain ⟨b', hb', hpair'⟩ := Option.map_eq_some_iff.mp (fits.builder.symm.trans hpair)
    obtain ⟨rfl, -⟩ := Prod.mk.inj hpair'
    refine ⟨⟨entries, hfor, hholds, hholds.length_eq.trans hfor.length_eq.symm⟩, ?_, ?_⟩
    · rw [hb']
      rfl
    rintro builder' b' h' h''
    obtain rfl := Option.some.inj h'
    obtain rfl := Option.some.inj (hb'.symm.trans h'')
    obtain ⟨hproperties, entries, hfor, hholds⟩ := BuilderModel.exists_entries hb
    rw [← fits.properties] at hproperties hfor
    have hnames := congrArg (List.map Prod.fst) hproperties
    rw [List.map_map, List.map_map] at hnames
    have hcount := congrArg List.length hproperties
    rw [List.length_map, List.length_map] at hcount
    exact ⟨hnames, entries, hfor, hholds, (hholds.length_eq
      (hcount ▸ BuilderEntry.isWithin_of_forall₂ hfor)).trans hfor.length_eq.symm⟩

/-- A value class with a method of every kind, and a builder with one of every kind too. -/
def pointElement : TypeElement :=
  let point : TypeUse := .declared "test.Point" []
  let builder : TypeUse := .declared "test.Point.Builder" []
  let string : TypeUse := .declared "java.lang.String" []
  let newX : Variable := { name := "newX", type := .primitive .int }
  { qualifiedName := "test.Point"
    package := "test"
    annotations := [{ typeName := valueClassMarker }]
    methods := [
      { name := "x", modifiers := [.abstract], returnType := .primitive .int },
      { name := "builder", modifiers := [.static], returnType := builder },
      { name := "withX", modifiers := [.abstract], returnType := point, parameters := [newX] },
      { name := "tags", modifiers := [.abstract],
        returnType := .declared "com.google.common.collect.ImmutableList" [string] },
      { name := "toBuilder", modifiers := [.abstract], returnType := builder },
      { name := "norm", returnType := .primitive .int },
      { name := "origin", modifiers := [.static], returnType := point }]
    nestedTypes := [{
      qualifiedName := "test.Point.Builder"
      package := "test"
      annotations := [{ typeName := builderMarker }]
      methods := [
        { name := "autoBuild", modifiers := [.abstract], returnType := point },
        { name := "setX", modifiers := [.abstract], returnType := builder, parameters := [newX] },
        { name := "tagsBuilder", modifiers := [.abstract],
          returnType := .declared "com.google.common.collect.ImmutableList.Builder" [string] },
        { name := "reset", returnType := builder },
        { name := "build", returnType := point }] }] }

/-- Seven methods of the class and five of its builder. -/
theorem point_methods_have_entries :
    ∃ model b log, (ofElement? pointElement []).runOn [] = (.ok (some model), log) ∧
      model.builder = some b ∧ b.properties.map (·.name) = ["x", "tags"] ∧
      model.properties.properties.length + model.builderFactories.length + model.toBuilders.length +
        model.creators.length + model.withers.length + model.unrecognized.length = 7 ∧
      (b.properties.flatMap (·.setters)).length + (b.properties.filterMap (·.subBuilder)).length +
        [b.finalizeMethod].length + b.buildMethod.toList.length + b.unrecognized.length = 5 := by
  have hok : ((ofElement? pointElement []).runOn []).1.map (·.map fun model =>
      model.properties.properties.map (·.name)) = .ok (some ["x", "tags"]) := by decide +kernel
  obtain ⟨builder, hbuilder⟩ : ∃ builder, pointElement.nestedTypes.find? (·.isBuilder) =
    some builder := ⟨_, rfl⟩
  have hmethods : builder.methods.length = 5 := by
    obtain rfl := Option.some.inj hbuilder
    rfl
  rcases hrun : (ofElement? pointElement []).runOn [] with ⟨failure | model | model, log⟩
  · rw [hrun] at hok
    cases hok
  · rw [hrun] at hok
    cases hok
  · rw [hrun] at hok
    obtain ⟨⟨_, -, -, hclass⟩, hsome, hentries⟩ := every_method_has_an_entry hrun
    rw [hbuilder] at hsome
    obtain ⟨b, hb⟩ := Option.isSome_iff_exists.mp hsome
    obtain ⟨hnames, _, -, -, hlength⟩ := hentries builder b hbuilder hb
    exact ⟨model, b, log, rfl, hb, hnames.trans (Option.some.inj (Except.ok.inj hok)), hclass,
      hlength.trans hmethods⟩

end ClassModel

end DataClassGen
