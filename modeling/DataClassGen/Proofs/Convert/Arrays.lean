import DataClassGen.Convert.Signature
import DataClassGen.Proofs.Convert.Types

/-!
# Arrays and their components

A parameter that stands for any number of arguments is an array in the value class, and has the type
of its components in the data class. Arrays are converted to two kinds of types, those of primitive
types to classes of their own; from either kind the component comes back as it is converted alone
(`componentOf?_of_convert`). It is never the array again (`componentOf?_ne_self`).
-/

namespace DataClassGen

open Source

theorem componentOf?_withNull (isNullable : Bool) (t : TypeName) :
    componentOf? (t.withNull isNullable) = componentOf? t := by
  cases t with
  | named cls args _ => cases args <;> rfl
  | parameter name bounds _ => rfl

theorem componentOf?_primitive (kind : PrimitiveKind) :
    componentOf? (.builtin (kind.builtinName ++ "Array")) = some (.builtin kind.builtinName) := by
  cases kind <;> decide +kernel

theorem componentOf?_array (component : TypeName) :
    componentOf? (.named (.builtin "Array") [component] false) = some component := by
  rw [componentOf?, if_pos rfl]

/-- An array is converted if its components are, and they come back from it. -/
theorem componentOf?_of_convert {use : TypeUse} {t : TypeName}
    (h : (TypeUse.array use).convert = .ok t) :
    ∃ component, use.convert = .ok component ∧ componentOf? t = some component := by
  rcases TypeUse.convert_array h with ⟨kind, rfl, rfl⟩ | ⟨-, component, hcomponent, rfl⟩
  · exact ⟨_, rfl, componentOf?_primitive kind⟩
  · exact ⟨component, hcomponent, componentOf?_array component⟩

/-- A class whose name ends with `Array` is not the one that the rest of its name stands for. -/
theorem ne_builtin_of_before? {cls : ClassName} {primitive : String}
    (h : Text.before? "Array" cls.simpleName = some primitive) : cls ≠ .builtin primitive := by
  rintro rfl
  have happend : primitive = primitive ++ "Array" := Text.eq_append_of_before? h
  have hlength := congrArg String.length happend
  simp at hlength

/-- No type is made of itself. -/
theorem componentOf?_ne_self (t : TypeName) : componentOf? t ≠ some t := by
  intro h
  unfold componentOf? at h
  split at h
  · next cls component rest isNullable =>
    split at h
    · have hsize := congrArg sizeOf (Option.some.inj h)
      simp at hsize
      omega
    · cases h
  · next cls isNullable =>
    split at h
    · split at h
      · next primitive hprimitive =>
        split at h
        · cases h
        · obtain ⟨hcls, -, -⟩ := TypeName.named.inj (Option.some.inj h)
          exact ne_builtin_of_before? hprimitive hcls.symm
      · cases h
    · cases h
  · cases h

end DataClassGen
