import DataClassGen.Model.Class
import DataClassGen.Model.Enum
import DataClassGen.Proofs.Failing

/-!
# The declarations of models

A class has a declaration unless a default is wanted for a type without values: nothing else can go
wrong once there is a model. The declaration that a class becomes has the class's own name, and the
only types in it are its builder and its companion object. An enum always has a declaration: one with
its name and its constants, and with the declarations of the enums nested in it.
-/

namespace DataClassGen

open Source

/-- A default was wanted for a type without values. -/
def Failure.IsIllegalDefault (failure : Failure) : Prop := ∃ shown, failure = .illegalDefault shown

theorem Source.TypeName.failsAs_zero? (t : TypeName) : FailsAs Failure.IsIllegalDefault t.zero? := by
  intro failure h
  rw [zero?] at h
  split at h
  · exact ⟨_, (Except.error.inj h).symm⟩
  · split at h <;> cases h

theorem Source.TypeName.failsAs_constructorDefault? (t : TypeName) (hasBuilder needsAdapter : Bool) :
    FailsAs Failure.IsIllegalDefault (t.constructorDefault? hasBuilder needsAdapter) := by
  rw [constructorDefault?]
  split
  · exact FailsAs.ok _
  · split
    · exact FailsAs.ok _
    · exact t.failsAs_zero?

theorem BuilderModel.failsAs_toDeclaration (b : BuilderModel) (valueClass : ClassName) :
    FailsAs Failure.IsIllegalDefault (b.toDeclaration valueClass) := by
  refine (FailsAs.mapM (fun p => ?_) _).bind fun _ => FailsAs.ok _
  refine FailsAs.bind ?_ fun _ => FailsAs.ok _
  rw [BuilderProperty.zero?]
  split
  · exact FailsAs.ok _
  · exact p.type.failsAs_zero?

/-- A class has a declaration unless a default is wanted for a type without values. -/
theorem ClassModel.failsAs_toDeclaration (model : ClassModel) :
    FailsAs Failure.IsIllegalDefault model.toDeclaration :=
  (FailsAs.mapM (fun p =>
    (p.type.failsAs_constructorDefault? _ _).bind fun _ => FailsAs.ok _) _).bind fun _ =>
      (FailsAs.option_mapM (fun b => b.failsAs_toDeclaration _) _).bind fun _ => FailsAs.ok _

/-! ### What is written of a model -/

/-- The type is what is written of the enum: an enum of its name with its constants, and in it, in
order, what is written of the enums nested in it. -/
inductive EnumModel.IsWrittenAs : EnumModel → TypeDecl → Prop
  | intro {e : EnumModel} {type : TypeDecl} (kind : type.kind = .enumDecl)
      (name : type.name = e.cls.simpleName) (modifiers : type.modifiers = [e.visibility])
      (annotations : type.annotations = e.annotations) (doc : type.doc = e.doc)
      (entries : type.entries = e.entries)
      (nested : e.nested.Forall₂ EnumModel.IsWrittenAs type.types) : IsWrittenAs e type

mutual

/-- The declaration of an enum is what is written of it. -/
theorem EnumModel.isWrittenAs_toDeclaration : ∀ e : EnumModel, e.IsWrittenAs e.toDeclaration
  | ⟨_, _, _, _, _, nested⟩ =>
    .intro rfl rfl rfl rfl rfl rfl (forall₂_isWrittenAs_toDeclarations nested)

theorem EnumModel.forall₂_isWrittenAs_toDeclarations :
    ∀ es : List EnumModel, es.Forall₂ IsWrittenAs (toDeclarations es)
  | [] => .nil
  | e :: es => .cons e.isWrittenAs_toDeclaration (forall₂_isWrittenAs_toDeclarations es)

end

/-- The type is a class of the builder's name without types in it. -/
structure BuilderModel.IsWrittenAs (b : BuilderModel) (type : TypeDecl) : Prop where
  kind : type.kind = .classDecl
  name : type.name = b.name
  types : type.types = []

theorem BuilderModel.isWrittenAs_of_toDeclaration {b : BuilderModel} {valueClass : ClassName}
    {type : TypeDecl} (h : b.toDeclaration valueClass = .ok type) : b.IsWrittenAs type := by
  obtain ⟨zeros, -, h⟩ := bind_ok_iff.mp h
  obtain rfl := Except.ok.inj h
  exact ⟨rfl, rfl, rfl⟩

/-- The type is a class of the model's name. In it is first what is written of the builder, if there
is one, then the companion object, if there is one, and then the types `nested`. -/
structure ClassModel.IsWrittenAs (model : ClassModel) (type : TypeDecl) (nested : List TypeDecl) :
    Prop where
  kind : type.kind = .classDecl
  name : type.name = model.cls.simpleName
  types : ∃ (builders : List TypeDecl) (companion : Option TypeDecl),
    model.builder.toList.Forall₂ BuilderModel.IsWrittenAs builders ∧
    (∀ t ∈ companion, t.kind = .companion ∧ t.types = []) ∧
    type.types = builders ++ companion.toList ++ nested

/-- The companion object is one, and has no types in it. -/
theorem ClassModel.of_companion? {model : ClassModel} {t : TypeDecl} (h : model.companion? = some t) :
    t.kind = .companion ∧ t.types = [] := by
  obtain ⟨-, h⟩ := Option.ite_none_right_eq_some.mp h
  obtain rfl := Option.some.inj h
  exact ⟨rfl, rfl⟩

/-- The types in the declaration of a class are the declaration of the builder, if there is one, and
the companion object, if there is one. -/
theorem ClassModel.types_of_toDeclaration {model : ClassModel} {own : TypeDecl}
    (h : model.toDeclaration = .ok own) :
    ∃ builders, model.builder.toList.Forall₂
        (fun b type => b.toDeclaration model.cls = .ok type) builders ∧
      own.types = builders ++ model.companion?.toList := by
  obtain ⟨properties, -, h⟩ := bind_ok_iff.mp h
  obtain ⟨builder, hbuilder, h⟩ := bind_ok_iff.mp h
  refine ⟨builder.toList, ?_, by rw [← Except.ok.inj h]⟩
  cases hb : model.builder with
  | none =>
    rw [hb] at hbuilder
    obtain rfl := Except.ok.inj hbuilder
    exact .nil
  | some b =>
    rw [hb] at hbuilder
    obtain ⟨type, htype, hbuilder⟩ := bind_ok_iff.mp hbuilder
    obtain rfl := Except.ok.inj hbuilder
    exact .cons htype .nil

/-- The declaration of a class, with other types put behind its own, is what is written of it with
these types. -/
theorem ClassModel.isWrittenAs_of_toDeclaration {model : ClassModel} {own : TypeDecl}
    (h : model.toDeclaration = .ok own) (nested : List TypeDecl) :
    model.IsWrittenAs { own with types := own.types ++ nested } nested := by
  obtain ⟨builders, hbuilders, htypes⟩ := types_of_toDeclaration h
  obtain ⟨hkind, hname⟩ : own.kind = .classDecl ∧ own.name = model.cls.simpleName := by
    obtain ⟨properties, -, h⟩ := bind_ok_iff.mp h
    obtain ⟨builder, -, h⟩ := bind_ok_iff.mp h
    rw [← Except.ok.inj h]
    exact ⟨rfl, rfl⟩
  exact ⟨hkind, hname, builders, model.companion?,
    hbuilders.imp fun _ _ => BuilderModel.isWrittenAs_of_toDeclaration,
    fun _ ht => of_companion? ht, by rw [htypes]⟩

end DataClassGen
