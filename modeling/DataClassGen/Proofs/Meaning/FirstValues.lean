import DataClassGen.Proofs.Meaning.Builders
import DataClassGen.Proofs.Model.Accessors

/-!
# First values

A property that may be null starts as null, and one of a primitive type starts as the zero of that
type (`IsFirstValue`). The constructor of the data class leaves the others without a default. The
builder cannot: it makes the variable nullable, and checks when the value is finished that it was
set (`Filling.Suits`). Both look up the same zeros, so the check stands exactly where null could
come from a variable for a property that must not have it.
-/

namespace DataClassGen

open Source

/-! ### Zeros -/

/-- The zero of a primitive type, as it is written. -/
def PrimitiveKind.zeroText : PrimitiveKind → String
  | .boolean => "false"
  | .byte => "0.toByte()"
  | .short => "0.toShort()"
  | .char => "0.toChar()"
  | .int => "0"
  | .long => "0L"
  | .float => "0f"
  | .double => "0.0"

/-- What something of a type can start from: null where the type has it, or else the zero of the
primitive type that it is. -/
inductive IsFirstValue : TypeName → Code → Prop where
  | null {t : TypeName} (h : t.isNullable = true) : IsFirstValue t (Code.lit "null")
  | zero (kind : PrimitiveKind) :
    IsFirstValue (.builtin kind.builtinName) (Code.lit kind.zeroText)

namespace Source.TypeName

theorem eq_builtin {t : TypeName} {name : String} (h : t.isBuiltin name = true)
    (hnull : t.isNullable = false) : t = .builtin name := by
  rcases t with ⟨cls, _ | ⟨arg, args⟩, isNullable⟩ | ⟨parameter, bounds, isNullable⟩
  · obtain rfl : cls = .builtin name := beq_iff_eq.mp h
    obtain rfl : isNullable = false := hnull
    rfl
  · cases h
  · cases h

/-- The zeros that are looked up are those of the primitive types. -/
theorem mem_zeroValues {name zero : String} (h : (name, zero) ∈ zeroValues) :
    ∃ kind : PrimitiveKind, name = kind.builtinName ∧ zero = kind.zeroText := by
  have hkinds : zeroValues = [PrimitiveKind.boolean, .char, .byte, .short, .int, .float, .long,
      .double].map fun kind => (kind.builtinName, kind.zeroText) := rfl
  rw [hkinds] at h
  obtain ⟨kind, -, heq⟩ := List.mem_map.mp h
  obtain ⟨rfl, rfl⟩ := Prod.mk.inj heq
  exact ⟨kind, rfl, rfl⟩

theorem zero?_primitive (kind : PrimitiveKind) :
    (TypeName.builtin kind.builtinName).zero? = .ok (some (Code.lit kind.zeroText)) := by
  cases kind <;> rfl

/-- The zero of a type is a first value for it, and the type is not nullable. -/
theorem isFirstValue_of_zero? {t : TypeName} {zero : Code} (h : t.zero? = .ok (some zero)) :
    IsFirstValue t zero ∧ t.isNullable = false := by
  rw [zero?] at h
  split at h
  · cases h
  · split at h
    · cases h
    · next hnull =>
      have hnull : t.isNullable = false := by simpa using hnull
      obtain ⟨⟨name, text⟩, hfind, rfl⟩ := Option.map_eq_some_iff.mp (Except.ok.inj h)
      have hname := List.find?_some hfind
      obtain ⟨kind, rfl, rfl⟩ := mem_zeroValues (List.mem_of_find?_eq_some hfind)
      obtain rfl := eq_builtin hname hnull
      exact ⟨.zero kind, hnull⟩

/-- A type without a zero that is not nullable has no first value at all. -/
theorem not_isFirstValue {t : TypeName} (hzero : t.zero? = .ok none) (hnull : t.isNullable = false)
    (value : Code) : ¬ IsFirstValue t value := by
  rintro (hnullable | kind)
  · rw [hnull] at hnullable
    cases hnullable
  · rw [zero?_primitive] at hzero
    cases hzero

/-- Null or else a zero is found just where there is a first value, and it is one. -/
theorem nullOrZero_spec {t : TypeName} {first : Option Code}
    (h : (if t.isNullable then .ok (some (Code.lit "null")) else t.zero?) = Except.ok first) :
    (∀ value ∈ first, IsFirstValue t value) ∧ (first ≠ none ↔ ∃ value, IsFirstValue t value) := by
  have of_some : ∀ {value}, first = some value → IsFirstValue t value →
      (∀ value ∈ first, IsFirstValue t value) ∧
        (first ≠ none ↔ ∃ value, IsFirstValue t value) := by
    rintro value rfl hvalue
    refine ⟨fun other hother => ?_, iff_of_true (by simp) ⟨value, hvalue⟩⟩
    rwa [← Option.some.inj hother]
  split at h
  · next hnull => exact of_some (Except.ok.inj h).symm (.null hnull)
  · next hnull =>
    cases first with
    | some zero => exact of_some rfl (isFirstValue_of_zero? h).1
    | none =>
      refine ⟨by simp, iff_of_false (by simp) ?_⟩
      rintro ⟨value, hvalue⟩
      exact not_isFirstValue h (by simpa using hnull) value hvalue

/-- The default of a property in the constructor is a first value for its type. There is one where
the constructor has to have them, if the type has any. -/
theorem constructorDefault?_spec {t : TypeName} {hasBuilder needsAdapter : Bool}
    {default : Option Code} (h : t.constructorDefault? hasBuilder needsAdapter = .ok default) :
    (∀ value ∈ default, IsFirstValue t value) ∧
    (default ≠ none ↔
      (hasBuilder && !needsAdapter) = false ∧ ∃ value, IsFirstValue t value) := by
  rw [constructorDefault?] at h
  cases hleft : hasBuilder && !needsAdapter with
  | true =>
    rw [hleft, if_pos rfl] at h
    obtain rfl := Except.ok.inj h
    simp
  | false =>
    rw [hleft, if_neg (by decide)] at h
    simpa using nullOrZero_spec h

end Source.TypeName

/-! ### The constructor of the data class -/

namespace ClassModel

/-- The constructor of the data class declares the property with its type and, unless the builder
has the defaults for itself, with a first value as its default if there is one. -/
structure DeclaresProperty (c : ClassModel) (p : ValueProperty) (q : ConstructorProperty) :
    Prop where
  name : q.property.name = p.name
  type : q.property.type = p.type
  first : ∀ value ∈ q.default, IsFirstValue p.type value
  present : q.default ≠ none ↔
    (c.builder.isSome && !c.wantsAdapter) = false ∧ ∃ value, IsFirstValue p.type value

theorem declaresProperty_of_toDeclaration {c : ClassModel} {d : TypeDecl}
    (h : c.toDeclaration = .ok d) : ∃ constructor, d.constructor = some constructor ∧
      c.properties.properties.Forall₂ c.DeclaresProperty constructor.properties := by
  obtain ⟨properties, hproperties, h⟩ := bind_ok_iff.mp h
  obtain ⟨builder, -, h⟩ := bind_ok_iff.mp h
  obtain rfl := Except.ok.inj h
  refine ⟨_, rfl, (forall₂_of_mapM hproperties).imp fun p q hq => ?_⟩
  obtain ⟨default, hdefault, hq⟩ := bind_ok_iff.mp hq
  obtain rfl := Except.ok.inj hq
  obtain ⟨hfirst, hpresent⟩ := TypeName.constructorDefault?_spec hdefault
  exact ⟨rfl, rfl, hfirst, hpresent⟩

end ClassModel

/-! ### Finishing a value -/

namespace Meaning

section NotNull

variable {α : Type} {P : Program α} {send : Value α → String → List (Value α) → Run α (Value α)}
  {sc : Scope α}

/-- Where there is something else instead of null, null can come from that only. -/
theorem not_gives_null_orElse {head : Head} {suffixes : List Suffix} {other : Expr}
    (h : ∀ heap heap', ¬ Gives (other.eval P send sc) heap .null heap') (heap heap' : Heap α) :
    ¬ Gives (Expr.eval P send sc (.orElse head suffixes other)) heap .null heap' := by
  intro hgives
  simp only [Expr.eval, gives_bind_iff] at hgives
  obtain ⟨_, heap₁, -, w, heap₂, -, hgives⟩ := hgives
  split at hgives
  · exact h heap₂ heap' hgives
  · next hpresent =>
    obtain ⟨rfl, -⟩ := gives_pure_iff.mp hgives
    exact hpresent rfl

theorem not_gives_fail {e : Expr} (v : Value α) (heap heap' : Heap α) :
    ¬ Gives (Expr.eval P send sc (.value (.fail e) [])) heap v heap' := by
  intro hgives
  simp only [Expr.eval, Head.eval, gives_bind_iff] at hgives
  obtain ⟨_, heap₁, ⟨w, heap₂, -, hfails⟩, -⟩ := hgives
  split at hfails
  · exact (fails_failing _).not_gives hfails
  · exact (fails_failing _).not_gives hfails

theorem not_gives_null_named {n : String}
    (h : ∀ heap heap', ¬ Gives (sc.find n) heap .null heap') (heap heap' : Heap α) :
    ¬ Gives (Expr.eval P send sc (named n)) heap .null heap' := by
  intro hgives
  simp only [named, Expr.eval, Head.eval, Suffix.evalAll, gives_bind_iff, gives_pure_iff] at hgives
  obtain ⟨_, heap₁, hfind, rfl, -⟩ := hgives
  exact h heap heap₁ hfind

/-- What the builder has for a property: the variable, and the argument when the value is finished,
as it is written and as it is read. -/
structure Filling where
  holder : ConstructorProperty
  code : Code
  argument : Argument

/-- The code ends in a check that something else than null was there for the property. -/
def EndsInCheck (name : String) (code : Code) : Prop :=
  Code.lit " ?: error(" ++ Code.str (name ++ " == null") ++ Code.lit ")" <:+ code

/-- What the builder has for a property suits it. -/
structure Filling.Suits (p : ValueProperty) (f : Filling) : Prop where
  name : f.holder.property.name = p.name
  type : f.holder.property.type = p.type ∨ f.holder.property.type = p.type.withNull true
  first : ∃ value, f.holder.default = some value ∧ IsFirstValue f.holder.property.type value
  /-- It is checked that the property is there just where only the variable can be null. -/
  checked : EndsInCheck p.name f.code ↔
    f.holder.property.type.isNullable = true ∧ p.type.isNullable = false
  /-- The argument is for the property, and is not null if the property cannot be: as long as the
  variable is null only if its type has null. -/
  safe : ∀ {α : Type} {P : Program α} {send : Value α → String → List (Value α) → Run α (Value α)}
    {sc : Scope α} {heap heap' : Heap α} {label : Option String} {v : Value α},
    (f.holder.property.type.isNullable = false →
      ∀ heap heap', ¬ Gives (sc.find p.name) heap .null heap') →
    Gives (f.argument.eval P send sc) heap (label, v) heap' →
    label = some p.name ∧ (p.type.isNullable = false → v ≠ .null)

/-- What the builder has for a property with this zero. -/
def Filling.ofProperty (q : BuilderProperty) (zero : Option Code) : Filling where
  holder := q.constructorVariable zero
  code := q.argument zero
  argument := builtArgument q zero

variable {q : BuilderProperty} {zero : Option Code}

theorem isNullable_constructorVariable : (q.constructorVariable zero).property.type.isNullable =
    (zero.isNone || q.type.isNullable) := by
  cases zero with
  | none => exact TypeName.isNullable_withNull true q.type
  | some zero => rfl

theorem isFirstValue_constructorVariable (h : q.zero? = .ok zero) :
    ∃ value, (q.constructorVariable zero).default = some value ∧
      IsFirstValue (q.constructorVariable zero).property.type value := by
  cases zero with
  | none => exact ⟨_, rfl, .null (TypeName.isNullable_withNull true q.type)⟩
  | some zero =>
    rw [BuilderProperty.zero?] at h
    split at h
    · cases h
    · exact ⟨zero, rfl, (TypeName.isFirstValue_of_zero? h).1⟩

theorem not_endsInCheck_ident (name : String) (front : Code) (n : String) :
    ¬ EndsInCheck name (front ++ Code.ident n) := by
  rintro ⟨rest, heq⟩
  have hlast := congrArg List.getLast? heq
  simp [Code.lit, Code.str, Code.ident] at hlast

theorem endsInCheck_argument_iff : EndsInCheck q.name (q.argument zero) ↔
    zero.isNone = true ∧ q.type.isNullable = false := by
  rw [← Bool.not_eq_true', ← Bool.and_eq_true, EndsInCheck, BuilderProperty.argument]
  cases zero.isNone && !q.type.isNullable with
  | true => exact iff_of_true (List.suffix_append _ _) rfl
  | false =>
    rw [if_neg (by decide), List.append_nil]
    exact iff_of_false (not_endsInCheck_ident _ _ _) (by decide)

theorem not_gives_null_builtArgument (hnull : q.type.isNullable = false)
    (hvariable : (q.constructorVariable zero).property.type.isNullable = false →
      ∀ heap heap', ¬ Gives (sc.find q.name) heap .null heap') (heap heap' : Heap α)
    (label : Option String) :
    ¬ Gives ((builtArgument q zero).eval P send sc) heap (label, .null) heap' := by
  have hgiven : ∀ heap heap', ¬ Gives (Expr.eval P send sc
      (if zero.isNone && !q.type.isNullable then .orElse (.name q.name) []
        (.value (.fail (.value (.text (q.name ++ " == null")) [])) []) else named q.name))
      heap .null heap' := by
    split
    · exact not_gives_null_orElse (not_gives_fail .null)
    · next hunchecked =>
      refine not_gives_null_named (hvariable ?_)
      rw [isNullable_constructorVariable, hnull, Bool.or_false]
      simpa [hnull, Option.isSome_iff_ne_none] using hunchecked
  intro hgives
  rw [builtArgument, Argument.eval, gives_bind_iff] at hgives
  obtain ⟨w, heap₁, hgives, hpair⟩ := hgives
  obtain rfl := (Prod.mk.inj (gives_pure_iff.mp hpair).1).2
  cases hbuilder : q.subBuilder with
  | none =>
    rw [hbuilder] at hgives
    exact hgiven heap heap₁ hgives
  | some s =>
    rw [hbuilder] at hgives
    exact not_gives_null_orElse hgiven heap heap₁ hgives

theorem Filling.suits_ofProperty {p : ValueProperty} (hname : q.name = p.name)
    (htype : q.type = p.type) (hzero : q.zero? = .ok zero) : (ofProperty q zero).Suits p where
  name := hname
  type := by
    rw [← htype]
    cases zero with
    | none => exact .inr rfl
    | some zero => exact .inl rfl
  first := isFirstValue_constructorVariable hzero
  checked := by
    rw [← hname, ← htype]
    refine endsInCheck_argument_iff.trans (and_congr_left fun hnull => ?_)
    rw [ofProperty, isNullable_constructorVariable, hnull, Bool.or_false]
  safe := by
    intro α P send sc heap heap' label v hvariable hgives
    rw [← hname] at hvariable ⊢
    rw [← htype]
    refine ⟨?_, ?_⟩
    · rw [ofProperty, builtArgument, Argument.eval, gives_bind_iff] at hgives
      obtain ⟨w, heap₁, -, hpair⟩ := hgives
      exact (Prod.mk.inj (gives_pure_iff.mp hpair).1).1
    · rintro hnull rfl
      exact not_gives_null_builtArgument hnull hvariable heap heap' label hgives

end NotNull

end Meaning

/-! ### The builder -/

namespace BuilderModel

open Meaning

variable {b : BuilderModel} {valueClass : ClassName} {decl : TypeDecl}

/-- The declaration of the builder has for each property what it has for it with its zero. -/
theorem exists_fillings (h : b.toDeclaration valueClass = .ok decl) :
    ∃ zeros : List (BuilderProperty × Option Code), zeros.map (·.1) = b.properties ∧
      (∀ entry ∈ zeros, entry.1.zero? = .ok entry.2) ∧
      decl.constructor = some ⟨[.internalAccess],
        (zeros.map fun entry => Filling.ofProperty entry.1 entry.2).map (·.holder)⟩ ∧
      b.finalizeFunction valueClass
        ((zeros.map fun entry => Filling.ofProperty entry.1 entry.2).map (·.code)) ∈
          decl.functions := by
  obtain ⟨zeros, hzeros, h⟩ := bind_ok_iff.mp h
  obtain rfl := Except.ok.inj h
  have hentries : b.properties.Forall₂ (fun p entry => entry.1 = p ∧ entry.1.zero? = .ok entry.2)
      zeros := by
    refine (forall₂_of_mapM hzeros).imp fun p entry hentry => ?_
    obtain ⟨zero, hzero, hentry⟩ := bind_ok_iff.mp hentry
    obtain rfl := Except.ok.inj hentry
    exact ⟨rfl, hzero⟩
  refine ⟨zeros, ?_, fun entry hentry => ?_, ?_, ?_⟩
  · exact (map_of_forall₂ (fun p entry hentry => hentry.1) hentries).trans (List.map_id _)
  · obtain ⟨p, -, -, hzero⟩ := exists_of_mem_forall₂ hentries hentry
    exact hzero
  · rw [List.map_map]
    rfl
  · rw [List.map_map]
    simp [Function.comp_def, Filling.ofProperty]

/-- What a builder has for its properties suits those of the class, place by place. -/
theorem IsFor.suits {set : PropertySet} (hb : b.IsFor set)
    {zeros : List (BuilderProperty × Option Code)} (hzeros : zeros.map (·.1) = b.properties)
    (hzero : ∀ entry ∈ zeros, entry.1.zero? = .ok entry.2) :
    set.properties.Forall₂ (fun p f => Filling.Suits p f)
      (zeros.map fun entry => Filling.ofProperty entry.1 entry.2) := by
  have hsame := hb.properties
  rw [← hzeros, List.map_map] at hsame
  generalize set.properties = properties at hsame ⊢
  clear hzeros hb
  induction zeros generalizing properties with
  | nil =>
    rw [List.map_nil, eq_comm, List.map_eq_nil_iff] at hsame
    rw [hsame]
    exact .nil
  | cons entry zeros ih =>
    obtain ⟨hentry, hrest⟩ := List.forall_mem_cons.mp hzero
    rw [List.map_cons, eq_comm] at hsame
    obtain ⟨p, rest, rfl, hp, hsame⟩ := List.map_eq_cons_iff.mp hsame
    obtain ⟨hname, htype⟩ := Prod.mk.inj hp
    exact .cons (Filling.suits_ofProperty hname.symm htype.symm hentry) (ih hrest _ hsame.symm)

/-- The fields that a builder has besides its variables start from first values, too. -/
theorem isFirstValue_of_mem_fields {p : BuilderProperty} {field : Property}
    (h : field ∈ p.fields) :
    ∃ value, field.initializer = some value ∧ IsFirstValue field.type value := by
  rw [BuilderProperty.fields] at h
  split at h
  · cases h
  · next s hs =>
    rcases List.mem_cons.mp h with rfl | h
    · exact ⟨_, rfl, .null (TypeName.isNullable_withNull true s.type)⟩
    · split at h
      · cases h
      · rw [List.mem_singleton.mp h]
        exact ⟨_, rfl, .zero .boolean⟩

end BuilderModel

/-! ### Value classes -/

namespace ClassModel

open Meaning

variable {e : TypeElement} {enumChildren : List String} {model : ClassModel} {log log' : Log}
  {d : TypeDecl}

/-- **Defaults and checks suit the types.** Where a value class has a declaration, every default of
its constructor is a first value for the type of its property. For its builder, every variable has
one for its own type, and so have the other fields. When the builder finishes a value, it checks a
property just where the variable may be null and the property may not. So null is never passed for
a property that must not have it, if the variables keep to their types. -/
theorem first_values_suit_types
    (h : (ofElement? e enumChildren).runOn log = (.ok (some model), log'))
    (hd : model.toDeclaration = .ok d) :
    (∃ constructor, d.constructor = some constructor ∧
      model.properties.properties.Forall₂ model.DeclaresProperty constructor.properties) ∧
    ∀ b, model.builder = some b → ∃ decl ∈ d.types, b.toDeclaration model.cls = .ok decl ∧
      ∃ fillings : List Filling,
        model.properties.properties.Forall₂ (fun p f => Filling.Suits p f) fillings ∧
        decl.constructor = some ⟨[.internalAccess], fillings.map (·.holder)⟩ ∧
        b.finalizeFunction model.cls (fillings.map (·.code)) ∈ decl.functions ∧
        stepsOf? (b.finalizeFunction model.cls (fillings.map (·.code))) =
          some [.giveBack (.value (.make (.ofClass model.cls) (fillings.map (·.argument))) [])] ∧
        ∀ field ∈ decl.properties,
          ∃ value, field.initializer = some value ∧ IsFirstValue field.type value := by
  refine ⟨declaresProperty_of_toDeclaration hd, fun b hb => ?_⟩
  have hfor := (functions_of_ofElement? h).1 b hb
  obtain ⟨-, -, -, hbuilders, -⟩ := toDeclaration_spec hd
  obtain ⟨decl, hmem, hdecl⟩ := hbuilders b hb
  obtain ⟨zeros, hzeros, hzero, hconstructor, hfinalize⟩ := BuilderModel.exists_fillings hdecl
  refine ⟨decl, hmem, hdecl, _, hfor.suits hzeros hzero, hconstructor, hfinalize, ?_,
    fun field hfield => ?_⟩
  · rw [List.map_map, List.map_map]
    exact stepsOf?_finalizeFunction hfor zeros
  · obtain ⟨_, -, -, -, -, hproperties, -⟩ := BuilderModel.toDeclaration_spec hdecl
    rw [hproperties] at hfield
    obtain ⟨p, -, hfield⟩ := List.mem_flatMap.mp hfield
    exact BuilderModel.isFirstValue_of_mem_fields hfield

/-- A value class with a builder that asks for a JSON adapter. One of its properties may be null,
one is of a primitive type, and one must be given. -/
def gaugeElement : TypeElement :=
  let text := TypeUse.declared "java.lang.String" []
  { qualifiedName := "test.Gauge"
    package := "test"
    annotations := [
      { typeName := valueClassMarker },
      { typeName := jsonClassAnnotation, members := [("generateAdapter", .bool true)] }]
    methods := [
      { name := "note", modifiers := [.abstract], returnType := text
        annotations := [{ typeName := "javax.annotation.Nullable" }] },
      { name := "level", modifiers := [.abstract], returnType := .primitive .int },
      { name := "unit", modifiers := [.abstract], returnType := text }]
    nestedTypes := [{
      qualifiedName := "test.Gauge.Builder"
      package := "test"
      modifiers := [.static]
      annotations := [{ typeName := builderMarker }]
      methods := [
        { name := "build", modifiers := [.abstract]
          returnType := .declared "test.Gauge" [] }] }] }

/-- It has a declaration, with a constructor and a builder of which this holds. -/
theorem gauge_first_values : ∃ model d log,
    (ofElement? gaugeElement []).runOn [] = (.ok (some model), log) ∧ model.toDeclaration = .ok d ∧
    model.properties.types =
      [(TypeName.builtin "String").withNull true, .builtin "Int", .builtin "String"] ∧
    (∃ constructor, d.constructor = some constructor ∧
      model.properties.properties.Forall₂ model.DeclaresProperty constructor.properties) ∧
    ∃ b ∈ model.builder, ∃ decl ∈ d.types, b.toDeclaration model.cls = .ok decl ∧
      ∃ fillings : List Filling,
        model.properties.properties.Forall₂ (fun p f => Filling.Suits p f) fillings ∧
        decl.constructor = some ⟨[.internalAccess], fillings.map (·.holder)⟩ := by
  have hrun : ((ofElement? gaugeElement []).runOn []).1.map (·.map fun model =>
      (model.builder.isSome, model.properties.types)) =
        .ok (some (true,
          [(TypeName.builtin "String").withNull true, .builtin "Int", .builtin "String"])) := by
    decide +kernel
  obtain ⟨model, d, log, hmodel, hd⟩ := exists_of_hasDeclaration gaugeElement (by decide +kernel)
  rw [hmodel] at hrun
  obtain ⟨hsome, htypes⟩ := Prod.mk.inj (Option.some.inj (Except.ok.inj hrun))
  obtain ⟨b, hb⟩ := Option.isSome_iff_exists.mp hsome
  obtain ⟨hconstructor, hbuilder⟩ := first_values_suit_types hmodel hd
  obtain ⟨decl, hmem, hdecl, fillings, hsuits, hfillings, -⟩ := hbuilder b hb
  exact ⟨model, d, log, hmodel, hd, htypes, hconstructor, b, hb, decl, hmem, hdecl, fillings,
    hsuits, hfillings⟩

end ClassModel

end DataClassGen
