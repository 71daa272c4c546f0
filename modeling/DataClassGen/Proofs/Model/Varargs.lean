import DataClassGen.Proofs.Convert.Arrays
import DataClassGen.Proofs.Model.Overloads

/-!
# Methods with any number of arguments

The function of a method with any number of arguments is that of the same method without, but for
its last parameter: this has the type that the components of the array are converted to, however
deep the arrays are nested and whether or not they may be null, and it alone is marked
(`varargs_undo_arrays`).
-/

namespace DataClassGen

open Source

theorem lastVararg_concat (front : List Parameter) (p : Parameter) :
    lastVararg (front ++ [p]) = front ++ [p.toVararg] := by
  rw [lastVararg_eq, List.dropLast_concat, List.getLast?_concat]
  rfl

namespace Method

/-- The method, with as many arguments as it has parameters. -/
def withoutVarargs (m : Method) : Method := { m with isVarargs := false }

/-- The function of a method with any number of arguments is that of the method without, but for the
last parameter. -/
theorem toFunction_of_varargs {m : Method} {f : Function} (hvarargs : m.isVarargs = true)
    (h : m.toFunction = .ok f) : ∃ plain, m.withoutVarargs.toFunction = .ok plain ∧
      f = { plain with parameters := lastVararg plain.parameters } := by
  obtain ⟨typeParameters, htypeParameters, h⟩ := bind_ok_iff.mp h
  obtain ⟨returns, hreturns, h⟩ := bind_ok_iff.mp h
  obtain ⟨parameters, hparameters, h⟩ := bind_ok_iff.mp h
  obtain ⟨thrown, hthrown, h⟩ := bind_ok_iff.mp h
  obtain rfl := Except.ok.inj h
  refine ⟨_, bind_ok_iff.mpr ⟨_, htypeParameters, bind_ok_iff.mpr ⟨_, hreturns,
    bind_ok_iff.mpr ⟨_, hparameters, bind_ok_iff.mpr ⟨_, hthrown, rfl⟩⟩⟩⟩, ?_⟩
  rw [hvarargs]
  rfl

end Method

/-- The components of an array that is converted come back from it as they are converted themselves.
So in the function of a method with any number of arguments, the last parameter has the type of the
components and is marked. Otherwise the function is that of the method without, where no parameter
is marked. -/
theorem varargs_undo_arrays (use : TypeUse) :
    (∀ array isNullable, (TypeUse.array use).convert = .ok array → ∃ component,
      use.convert = .ok component ∧
        componentOf? (array.withNull isNullable) = some component) ∧
    ∀ (m : Method) f others v, m.isVarargs = true → m.toFunction = .ok f →
      m.parameters = others ++ [v] → v.type = .array use →
      ∃ plain front last component, m.withoutVarargs.toFunction = .ok plain ∧
        plain.parameters = front ++ [last] ∧ front.length = others.length ∧
        (∀ p ∈ plain.parameters, .vararg ∉ p.modifiers) ∧ use.convert = .ok component ∧
        f = { plain with
          parameters := front ++ [{ last with type := component, modifiers := [.vararg] }] } := by
  have hcomponents : ∀ array isNullable, (TypeUse.array use).convert = .ok array → ∃ component,
      use.convert = .ok component ∧
        componentOf? (array.withNull isNullable) = some component := by
    intro array isNullable harray
    rw [componentOf?_withNull]
    exact componentOf?_of_convert harray
  refine ⟨hcomponents, fun m f others v hvarargs h hparameters hv => ?_⟩
  obtain ⟨plain, hplain, rfl⟩ := Method.toFunction_of_varargs hvarargs h
  obtain ⟨-, -, parameters, hconverted, hplainParameters⟩ := Method.signature_of_toFunction hplain
  obtain rfl : plain.parameters = parameters := hplainParameters
  have hbare : ∀ p ∈ plain.parameters, p.modifiers = [] := by
    intro p hp
    obtain ⟨v, -, hv⟩ := exists_of_mem_forall₂ (forall₂_of_mapM hconverted) hp
    exact Variable.modifiers_of_toParameter hv
  have hconverted : (others ++ [v]).mapM Variable.toParameter = .ok plain.parameters :=
    hparameters ▸ hconverted
  obtain ⟨front, last, hfront, hlast, hends⟩ := exists_of_mapM_concat hconverted
  obtain ⟨array, harray, hlast⟩ := bind_ok_iff.mp hlast
  rw [hv] at harray
  obtain ⟨component, hcomponent, hof⟩ := hcomponents array (isMarkedNullable v.annotations) harray
  have hvararg : last.toVararg = { last with type := component, modifiers := [.vararg] } := by
    have hmodifiers := hbare last (hends ▸ List.mem_append_right _ List.mem_cons_self)
    rw [Parameter.toVararg, hmodifiers, ← Except.ok.inj hlast]
    simp only [hof, Option.getD_some, List.nil_append]
  refine ⟨plain, front, last, component, hplain, hends, (forall₂_of_mapM hfront).length_eq.symm,
    fun p hp => ?_, hcomponent, ?_⟩
  · rw [hbare p hp]
    exact List.not_mem_nil
  · rw [hends, lastVararg_concat, hvararg]

/-- A method that takes a label and any number of rows of numbers, or null for them. -/
def mergeMethod : Method :=
  { name := "merge"
    modifiers := [.publicAccess, .static]
    returnType := .void
    parameters := [
      { name := "label", type := .declared "java.lang.String" [] },
      { name := "rows", type := .array (.array (.primitive .int))
        annotations := [{ typeName := "javax.annotation.Nullable" }] }]
    isVarargs := true }

/-- It comes to take rows, and its first parameter is left as it is. -/
theorem merge_takes_rows : ∃ f plain front last, mergeMethod.toFunction = .ok f ∧
    mergeMethod.withoutVarargs.toFunction = .ok plain ∧ plain.parameters = front ++ [last] ∧
    front.length = 1 ∧ (∀ p ∈ plain.parameters, .vararg ∉ p.modifiers) ∧
    f = { plain with parameters :=
      front ++ [{ last with type := .builtin "IntArray", modifiers := [.vararg] }] } := by
  have hok : (mergeMethod.toFunction.map fun f => f.name) = .ok "merge" := by decide +kernel
  cases hf : mergeMethod.toFunction with
  | error failure =>
    rw [hf] at hok
    cases hok
  | ok f =>
    obtain ⟨plain, front, last, component, hplain, hends, hlength, hunmarked, hcomponent, rfl⟩ :=
      (varargs_undo_arrays (.array (.primitive .int))).2 mergeMethod f [_] _ rfl hf rfl rfl
    obtain rfl := Except.ok.inj hcomponent
    exact ⟨_, plain, front, last, rfl, hplain, hends, hlength, hunmarked, rfl⟩

end DataClassGen
