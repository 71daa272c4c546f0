import DataClassGen.Proofs.Run.Output
import DataClassGen.Proofs.Run.Trees

/-!
# Complete rounds

A round is complete if all that its types are declared in is part of the round, and if their names
say so: a type at the top has the name of its package and its own, a nested type the name of the
type around it and its own. So it is made of trees, and what is read off a name there can be read
off it here.
-/

namespace DataClassGen

open Source

namespace TypeElement

/-- The type and all that is nested in it are of the package, do not say what they are declared in,
and are named for where they are declared. -/
inductive IsComplete (package : String) : Option String → TypeElement → Prop
  | intro {outer : Option String} {e : TypeElement} (simpleName : String)
      (enclosing : e.enclosing = none) (inPackage : e.package = package)
      (simple : IsSimpleName simpleName)
      (name : e.qualifiedName = nameIn package outer simpleName)
      (nested : ∀ t ∈ e.nestedTypes, IsComplete package (some e.qualifiedName) t) :
      IsComplete package outer e

theorem IsComplete.isTree {package : String} {outer : Option String} {e : TypeElement}
    (h : e.IsComplete package outer) : e.IsTree package := by
  induction h with
  | intro simpleName enclosing inPackage simple name nested ih =>
    refine .intro enclosing inPackage (fun u hu => ?_) ih
    cases nested u hu with
    | intro simpleName enclosing inPackage simple name => exact ⟨simpleName, simple.2, name⟩

end TypeElement

open TypeElement

/-- All rounds are complete, and no two types have one name. -/
structure CompleteRounds (rounds : List Round) : Prop where
  complete : ∀ round ∈ rounds, ∀ e ∈ round.elements, e.IsComplete e.package none
  distinct : ((rounds.flatMap Round.types).map (·.qualifiedName)).Nodup

namespace CompleteRounds

variable {rounds : List Round} {t u : TypeElement}

theorem exists_simpleName (h : CompleteRounds rounds) {round : Round} (hround : round ∈ rounds)
    {e : TypeElement} (he : e ∈ round.elements) : ∃ simpleName, IsSimpleName simpleName ∧
      e.qualifiedName = nameIn e.package none simpleName := by
  cases h.complete round hround e he with
  | intro simpleName enclosing inPackage simple name => exact ⟨simpleName, simple, name⟩

theorem trees (h : CompleteRounds rounds) : TreeRounds rounds where
  trees := fun round hround e he => (h.complete round hround e he).isTree
  tops := fun round hround e he => by
    obtain ⟨simpleName, simple, name⟩ := h.exists_simpleName hround he
    exact ⟨simpleName, simple.2, name⟩
  distinct := h.distinct

theorem topsNamed (h : CompleteRounds rounds) : TopsNamed rounds := by
  intro round hround e he
  obtain ⟨simpleName, simple, name⟩ := h.exists_simpleName hround he
  rw [simpleName_of_top simple.2 name]
  exact simple.1

theorem keepsName (h : CompleteRounds rounds) (ht : t ∈ rounds.flatMap Round.types) :
    t.KeepsName := h.trees.keepsName h.topsNamed ht

/-- There is one type of a name. -/
theorem eq_of_name (h : CompleteRounds rounds) {t' : TypeElement}
    (ht : t ∈ rounds.flatMap Round.types) (ht' : t' ∈ rounds.flatMap Round.types)
    (hname : t.qualifiedName = t'.qualifiedName) : t = t' := h.trees.eq_of_name ht ht' hname

/-- A nested type is one of the rounds', declared in the type it is nested in. -/
theorem nested (h : CompleteRounds rounds) (ht : t ∈ rounds.flatMap Round.types)
    (hu : u ∈ t.nestedTypes) :
    u.declaredIn (some t.asEnclosing) ∈ rounds.flatMap Round.types ∧
      (u.declaredIn (some t.asEnclosing)).enclosing = some t.asEnclosing :=
  h.trees.nested h.topsNamed ht hu

theorem keepsName_nested (h : CompleteRounds rounds) (ht : t ∈ rounds.flatMap Round.types)
    (hu : u ∈ t.nestedTypes) : u.KeepsName := h.trees.keepsName_nested h.topsNamed ht hu

/-- No type has two nested types of one name. -/
theorem nodup_nested (h : CompleteRounds rounds) (ht : t ∈ rounds.flatMap Round.types) :
    (t.nestedTypes.map (·.qualifiedName)).Nodup := h.trees.nodup_nested ht

/-- Types with one name are nested in one type. -/
theorem eq_of_nested_name (h : CompleteRounds rounds) {t' u' : TypeElement}
    (ht : t ∈ rounds.flatMap Round.types) (ht' : t' ∈ rounds.flatMap Round.types)
    (hu : u ∈ t.nestedTypes) (hu' : u' ∈ t'.nestedTypes)
    (hname : u.qualifiedName = u'.qualifiedName) : t = t' :=
  h.trees.eq_of_nested_name h.topsNamed ht ht' hu hu' hname

theorem distinctNames (h : CompleteRounds rounds) : DistinctNames rounds := by
  intro t ht t' ht' u hu u' hu' hname
  rw [h.eq_of_nested_name ht ht' hu hu' hname]

/-- A nested type is in the same outermost type as the one it is nested in. -/
theorem outermostSimpleName_nested (h : CompleteRounds rounds)
    (ht : t ∈ rounds.flatMap Round.types) (hu : u ∈ t.nestedTypes) :
    u.outermostSimpleName = t.outermostSimpleName :=
  h.trees.outermostSimpleName_nested h.topsNamed ht hu

/-- A type is at the top, where it is named by itself, or nested in another type, which has the same
outermost type and a name that comes before its own. -/
theorem cases (h : CompleteRounds rounds) (ht : t ∈ rounds.flatMap Round.types) :
    (t.enclosing = none ∧ IsSimpleName t.simpleName ∧
        t.qualifiedName = nameIn t.package none t.simpleName) ∨
      ∃ p ∈ rounds.flatMap Round.types, t.enclosing = some p.asEnclosing ∧
        (∃ u ∈ p.nestedTypes, t = u.declaredIn (some p.asEnclosing)) ∧
        p.qualifiedName < t.qualifiedName ∧ t.outermostSimpleName = p.outermostSimpleName :=
  h.trees.cases h.topsNamed ht

end CompleteRounds

theorem Round.mixed_isComplete : ∀ e ∈ Round.mixed.elements, e.IsComplete e.package none := by
  intro e he
  rcases List.mem_pair.mp he with rfl | rfl
  · refine .intro "A" rfl rfl ⟨by decide, by decide⟩ rfl fun t ht => ?_
    obtain rfl := List.mem_singleton.mp ht
    refine .intro "B" rfl rfl ⟨by decide, by decide⟩ rfl fun t ht => ?_
    obtain rfl := List.mem_singleton.mp ht
    exact .intro "E" rfl rfl ⟨by decide, by decide⟩ rfl fun t ht => nomatch ht
  · refine .intro "P" rfl rfl ⟨by decide, by decide⟩ rfl fun t ht => ?_
    obtain rfl := List.mem_singleton.mp ht
    refine .intro "Q" rfl rfl ⟨by decide, by decide⟩ rfl fun t ht => ?_
    obtain rfl := List.mem_singleton.mp ht
    exact .intro "R" rfl rfl ⟨by decide, by decide⟩ rfl fun t ht => nomatch ht

end DataClassGen
