import DataClassGen.Lifecycle
import DataClassGen.Model.Class
import DataClassGen.Model.Enum

/-!
# The registry

The models of a run and the states of its declarations, by canonical name. A name that is known
keeps what it has: a declaration seen again does not replace its first model.

Composing a file takes the root's model out of the registry, and with it the models of the classes
and enums nested in it, however deep. Each step down takes out a class first, so composing ends
even if the lists of children go round in circles: `Composed` carries along that no classes are
added.
-/

namespace DataClassGen

open Source

/-- The models of a run and the states of its declarations. -/
structure Registry where
  classes : List (String × ClassModel) := []
  enums : List (String × EnumModel) := []
  states : List (String × Lifecycle) := []

namespace Registry

/-! ### States -/

/-- The state of a declaration, if it is known. -/
def state? (r : Registry) (name : String) : Option Lifecycle := r.states.lookup name

/-- The registry with a declaration discovered, and whether it is new. -/
def discover (r : Registry) (name : String) : Bool × Registry :=
  match r.state? name with
  | some _ => (false, r)
  | none => (true, { r with states := insertByKey name .discovered r.states })

/-- The registry with a declaration in a state that may follow on the one it is in. -/
def transition (r : Registry) (name : String) (target : Lifecycle) : Except Failure Registry :=
  match r.state? name with
  | none => .error (.invalidTransition name "Unknown" target.title)
  | some source =>
    if source.allows target then .ok { r with states := insertByKey name target r.states }
    else .error (.invalidTransition name source.title target.title)

theorem classes_of_transition {r r' : Registry} {name : String} {target : Lifecycle}
    (h : r.transition name target = .ok r') : r'.classes = r.classes := by
  unfold transition at h
  split at h
  · simp at h
  · split at h
    · injection h with h
      subst h
      rfl
    · simp at h

/-- How many declarations are known. -/
def discoveredCount (r : Registry) : Nat := r.states.length

/-- The declarations in a state, in order. -/
def inState (r : Registry) (state : Lifecycle) : List String :=
  (r.states.filter (·.2 == state)).map (·.1)

/-- The declarations that are neither emitted nor skipped, in order. -/
def unfinished (r : Registry) : List String :=
  (r.states.filter (!·.2.isFinal)).map (·.1)

/-! ### Models -/

/-- The registry with the model of a class, and whether its name was free. -/
def registerClass (r : Registry) (model : ClassModel) : Bool × Registry :=
  match r.classes.lookup model.qualifiedName with
  | some _ => (false, r)
  | none => (true, { r with classes := insertByKey model.qualifiedName model r.classes })

/-- The registry with the model of an enum, and the model that its name has then. -/
def registerEnum (r : Registry) (model : EnumModel) : EnumModel × Registry :=
  match r.enums.lookup model.qualifiedName with
  | some known => (known, r)
  | none => (model, { r with enums := insertByKey model.qualifiedName model r.enums })

/-- The classes with files of their own, in order. -/
def roots (r : Registry) : List String :=
  (r.classes.filter (·.2.isTopLevel)).map (·.1)

/-- The registry without the model of a class. -/
def withoutClass (r : Registry) (name : String) : Registry :=
  { r with classes := eraseKey name r.classes }

/-- The registry without the model of an enum. -/
def withoutEnum (r : Registry) (name : String) : Registry :=
  { r with enums := eraseKey name r.enums }

/-! ### Composing -/

/-- What comes of composing, and the registry it leaves, with at most `bound` classes. -/
structure Composed (α : Type) (bound : Nat) where
  result : Except Failure α
  registry : Registry
  length_le : registry.classes.length ≤ bound

/-- The end of composing a class: its nested types take their places behind its own, and it is
composed. -/
def Composed.close {bound : Nat} (inner : Composed (List TypeDecl) bound) (name : String)
    (declaration : TypeDecl) : Composed TypeDecl bound :=
  match inner.result with
  | .error failure => ⟨.error failure, inner.registry, inner.length_le⟩
  | .ok types =>
    match h : inner.registry.transition name .composed with
    | .error failure => ⟨.error failure, inner.registry, inner.length_le⟩
    | .ok registry =>
      ⟨.ok { declaration with types := declaration.types ++ types }, registry,
        classes_of_transition h ▸ inner.length_le⟩

/-- The declarations of the children of a class: of an enum, or of a class with its own children.
A skipped child has none. -/
def composeChildren (r : Registry) (parent : String) :
    List String → Composed (List TypeDecl) r.classes.length
  | [] => ⟨.ok [], r, Nat.le_refl _⟩
  | child :: rest =>
    match r.enums.lookup child with
    | some model =>
      let others := composeChildren (r.withoutEnum child) parent rest
      ⟨others.result.map (model.toDeclaration :: ·), others.registry, others.length_le⟩
    | none =>
      if r.state? child = some .skipped then composeChildren r parent rest
      else
        match hchild : r.classes.lookup child with
        | none => ⟨.error (.missingChild child parent), r, Nat.le_refl _⟩
        | some model =>
          have taken : (r.withoutClass child).classes.length < r.classes.length :=
            length_eraseKey_lt hchild
          match model.toDeclaration with
          | .error failure => ⟨.error failure, r.withoutClass child, Nat.le_of_lt taken⟩
          | .ok declaration =>
            let inner :=
              (composeChildren (r.withoutClass child) model.qualifiedName model.children).close
                model.qualifiedName declaration
            have inner_lt : inner.registry.classes.length < r.classes.length :=
              Nat.lt_of_le_of_lt inner.length_le taken
            match inner.result with
            | .error failure => ⟨.error failure, inner.registry, Nat.le_of_lt inner_lt⟩
            | .ok type =>
              let others := composeChildren inner.registry parent rest
              ⟨others.result.map (type :: ·), others.registry,
                Nat.le_trans others.length_le (Nat.le_of_lt inner_lt)⟩
termination_by children => (r.classes.length, children.length)
decreasing_by
  · exact Prod.Lex.right _ (by simp)
  · exact Prod.Lex.right _ (by simp)
  · exact Prod.Lex.left _ _ taken
  · exact Prod.Lex.left _ _ inner_lt

/-- The file of a class, with all that is nested in it, and the registry without them. -/
def compose (r : Registry) (root : String) : Except Failure SourceFile × Registry :=
  match r.classes.lookup root with
  | none => (.error (.missingChild root "<root>"), r)
  | some model =>
    match model.toDeclaration with
    | .error failure => (.error failure, r.withoutClass root)
    | .ok declaration =>
      let inner :=
        (composeChildren (r.withoutClass root) model.qualifiedName model.children).close
          model.qualifiedName declaration
      (inner.result.map fun type => { package := model.cls.package, root := type }, inner.registry)

/-! ### What is left over -/

/-- The registry without these classes, each of which must have a skipped parent and is skipped
with it. -/
def skipAll (r : Registry) : List (String × ClassModel) → Except Failure Unit × Registry
  | [] => (.ok (), r)
  | (name, model) :: rest =>
    if model.parent.bind r.state? = some .skipped then
      match (r.withoutClass name).transition name .skipped with
      | .error failure => (.error failure, r.withoutClass name)
      | .ok r => skipAll r rest
    else (.error (.orphanedChild name), r)

/-- The registry without the classes that no file took in, in the order of their names, and without
any enums. -/
def drain (r : Registry) : Except Failure Unit × Registry :=
  match r.skipAll r.classes with
  | (.ok (), r) => (.ok (), { r with enums := [] })
  | (.error failure, r) => (.error failure, r)

end Registry

end DataClassGen
