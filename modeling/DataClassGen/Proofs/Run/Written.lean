import DataClassGen.Proofs.Model.Declaration
import DataClassGen.Proofs.Run.Composition

/-!
# What is written of an outline

A declaration is built like its outline. For each class and each enum of the outline there is a type
in the declaration, of the model's kind and with the model's simple name, and it stands in the type
that is written of the class around it. The classes bring their builders and companion objects with
them and the enums the enums nested in them; there are no other types.
-/

namespace DataClassGen

open Source

namespace Outline

/-- The type is what is written of the outline: an enum with its constants, or a class, and in that,
behind the types of the class itself, what is written of the outlines in it, in order. -/
inductive IsWrittenAs : Outline → TypeDecl → Prop
  | cls {model : ClassModel} {inner : List Outline} {type : TypeDecl} {nested : List TypeDecl}
      (written : model.IsWrittenAs type nested) (inside : inner.Forall₂ IsWrittenAs nested) :
      IsWrittenAs (.cls model inner) type
  | enum {model : EnumModel} {type : TypeDecl} (written : model.IsWrittenAs type) :
      IsWrittenAs (.enum model) type

mutual

/-- The declaration of an outline is what is written of it. -/
theorem isWrittenAs_of_declaration : ∀ {outline : Outline} {type : TypeDecl},
    outline.declaration = .ok type → outline.IsWrittenAs type
  | .cls model inner, type, h => by
    rw [declaration] at h
    obtain ⟨own, hown, h⟩ := bind_ok_iff.mp h
    obtain ⟨types, htypes, h⟩ := bind_ok_iff.mp h
    obtain rfl := Except.ok.inj h
    exact .cls (ClassModel.isWrittenAs_of_toDeclaration hown types)
      (forall₂_isWrittenAs_of_declarations htypes)
  | .enum model, type, h => by
    obtain rfl := Except.ok.inj h
    exact .enum model.isWrittenAs_toDeclaration

theorem forall₂_isWrittenAs_of_declarations : ∀ {outlines : List Outline} {types : List TypeDecl},
    declarations outlines = .ok types → outlines.Forall₂ IsWrittenAs types
  | [], types, h => by
    obtain rfl := Except.ok.inj h
    exact .nil
  | outline :: outlines, types, h => by
    rw [declarations] at h
    obtain ⟨type, htype, h⟩ := bind_ok_iff.mp h
    obtain ⟨others, hothers, h⟩ := bind_ok_iff.mp h
    obtain rfl := Except.ok.inj h
    exact .cons (isWrittenAs_of_declaration htype) (forall₂_isWrittenAs_of_declarations hothers)

end

/-- The declaration of an outline has the name of its class. -/
theorem name_of_declaration {model : ClassModel} {inner : List Outline} {root : TypeDecl}
    (h : (cls model inner).declaration = .ok root) : root.name = model.cls.simpleName := by
  cases isWrittenAs_of_declaration h with
  | cls written => exact written.name

end Outline

end DataClassGen
