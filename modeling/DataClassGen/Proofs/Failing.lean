import DataClassGen.Failure
import Mathlib.Data.List.Forall2

/-!
# Computations that may fail

A computation that does one thing after the other succeeds if each part does, and fails as the first
of its parts that fails.
-/

namespace DataClassGen

variable {ε α β : Type}

/-- One computation after another succeeds just when each does. -/
theorem bind_ok_iff {x : Except ε α} {next : α → Except ε β} {b : β} :
    (x >>= next) = .ok b ↔ ∃ a, x = .ok a ∧ next a = .ok b := by
  constructor
  · intro h
    cases x with
    | error failure => cases h
    | ok a => exact ⟨a, rfl, h⟩
  · rintro ⟨a, rfl, h⟩
    exact h

/-- Each result comes from what stands in its place. -/
theorem forall₂_of_mapM {f : α → Except ε β} {as : List α} {bs : List β}
    (h : as.mapM f = .ok bs) : as.Forall₂ (fun a b => f a = .ok b) bs := by
  induction as generalizing bs with
  | nil =>
    obtain rfl := Except.ok.inj h
    exact .nil
  | cons a as ih =>
    rw [List.mapM_cons] at h
    obtain ⟨b, hb, h⟩ := bind_ok_iff.mp h
    obtain ⟨rest, hrest, h⟩ := bind_ok_iff.mp h
    obtain rfl := Except.ok.inj h
    exact .cons hb (ih hrest)

/-- The last result comes from what stands last. -/
theorem exists_of_mapM_concat {f : α → Except ε β} {as : List α} {a : α} {bs : List β}
    (h : (as ++ [a]).mapM f = .ok bs) :
    ∃ front last, as.mapM f = .ok front ∧ f a = .ok last ∧ bs = front ++ [last] := by
  rw [List.mapM_append] at h
  obtain ⟨front, hfront, h⟩ := bind_ok_iff.mp h
  obtain ⟨lasts, hlasts, h⟩ := bind_ok_iff.mp h
  obtain rfl := Except.ok.inj h
  rw [List.mapM_cons] at hlasts
  obtain ⟨last, hlast, hlasts⟩ := bind_ok_iff.mp hlasts
  obtain rfl := Except.ok.inj hlasts
  exact ⟨front, last, hfront, hlast, rfl⟩

/-! ### The failure of a computation -/

/-- The failure of a computation that fails. -/
def failure? : Except ε α → Option ε
  | .error failure => some failure
  | .ok _ => none

theorem failure?_eq_some_iff {x : Except ε α} {failure : ε} :
    failure? x = some failure ↔ x = .error failure := by
  cases x <;> simp [failure?]

theorem failure?_eq_none_iff {x : Except ε α} : failure? x = none ↔ ∃ a, x = .ok a := by
  cases x <;> simp [failure?]

/-- Putting together what was computed changes nothing of how that fails. -/
theorem failure?_bind_ok (x : Except ε α) (f : α → β) :
    failure? (x >>= fun a => .ok (f a)) = failure? x := by
  cases x <;> rfl

/-- If a computation fails in the same way whatever came before it, then the two fail as the first
of them that fails. -/
theorem failure?_bind {next : α → Except ε β} {later : Option ε} (x : Except ε α)
    (h : ∀ a, failure? (next a) = later) : failure? (x >>= next) = (failure? x).or later := by
  cases x with
  | error failure => rfl
  | ok a => exact h a

/-- A computation for each of some values fails as the first one that fails. -/
theorem failure?_mapM (f : α → Except ε β) (as : List α) :
    failure? (as.mapM f) = as.findSome? fun a => failure? (f a) := by
  induction as with
  | nil => rfl
  | cons a as ih =>
    have hrest : ∀ b, failure? (as.mapM f >>= fun bs => .ok (b :: bs)) =
        as.findSome? fun a => failure? (f a) :=
      fun b => (failure?_bind_ok _ _).trans ih
    rw [List.mapM_cons, List.findSome?_cons]
    refine (failure?_bind (f a) hrest).trans ?_
    cases failure? (f a) <;> rfl

theorem failure?_option_mapM (f : α → Except ε β) (a? : Option α) :
    failure? (a?.mapM f) = a?.bind fun a => failure? (f a) := by
  cases a? with
  | none => rfl
  | some a => exact failure?_bind_ok (f a) some

/-! ### The ways in which a computation can fail -/

/-- The computation fails in these ways only. -/
def FailsAs (P : ε → Prop) (x : Except ε α) : Prop := ∀ failure, x = .error failure → P failure

namespace FailsAs

variable {P : ε → Prop}

theorem ok (a : α) : FailsAs P (.ok a) := fun _ h => nomatch h

theorem bind {x : Except ε α} {f : α → Except ε β} (hx : FailsAs P x)
    (hf : ∀ a, FailsAs P (f a)) : FailsAs P (x >>= f) := by
  intro failure h
  cases x with
  | error failure' =>
    obtain rfl : failure' = failure := Except.error.inj h
    exact hx _ rfl
  | ok a => exact hf a failure h

theorem mapM {f : α → Except ε β} (hf : ∀ a, FailsAs P (f a)) (as : List α) :
    FailsAs P (as.mapM f) := by
  induction as with
  | nil => exact ok []
  | cons a as ih =>
    rw [List.mapM_cons]
    exact (hf a).bind fun _ => ih.bind fun _ => ok _

theorem option_mapM {f : α → Except ε β} (hf : ∀ a, FailsAs P (f a)) (a? : Option α) :
    FailsAs P (a?.mapM f) := by
  cases a? with
  | none => exact ok none
  | some a => exact (hf a).bind fun b => ok (some b)

end FailsAs

end DataClassGen
