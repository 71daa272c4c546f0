import DataClassGen.Proofs.Run.Generation

/-!
# Composing within a bound

Composing goes no deeper than there are classes. With that number as a bound, composing is a
recursion on the bound and, at each depth, on the children, and so is generating
(`generate_eq_bounded`). What comes of given rounds can be evaluated in this form.
-/

namespace DataClassGen

open Source

namespace Registry

/-- The declarations of children, with those of their own children composed by `composing`. -/
def composingBy (composing : Composing) (parent : String) :
    List String → Registry → Except Failure (List TypeDecl) × Registry
  | [], r => (.ok [], r)
  | child :: rest, r =>
    match r.enums.lookup child with
    | some model =>
      let (others, r') := composingBy composing parent rest (r.withoutEnum child)
      (others.map (model.toDeclaration :: ·), r')
    | none =>
      if r.state? child = some .skipped then composingBy composing parent rest r
      else
        match r.classes.lookup child with
        | none => (.error (.missingChild child parent), r)
        | some model =>
          match closing composing (r.withoutClass child) model with
          | (.error failure, r₁) => (.error failure, r₁)
          | (.ok type, r₁) =>
            let (others, r') := composingBy composing parent rest r₁
            (others.map (type :: ·), r')

/-- The declarations of children, no deeper than the bound. -/
def composingWithin : Nat → Composing
  | 0, r, parent, children => composingBy (fun r _ _ => (.ok [], r)) parent children r
  | bound + 1, r, parent, children => composingBy (composingWithin bound) parent children r

theorem closing_eq {composing : Composing} {r : Registry} {model : ClassModel}
    (h : composing r model.qualifiedName model.children =
      r.composing model.qualifiedName model.children) :
    closing composing r model = r.composingClass model := by
  simp only [composingClass, closing, h]

/-- Composing each class as it should be composes the children as they should be. -/
theorem composingBy_eq {composing : Composing} {parent : String} {children : List String}
    {r : Registry} (h : ∀ (r' : Registry) (name : String) (model : ClassModel),
      r'.classes.length ≤ r.classes.length → r'.classes.lookup name = some model →
        closing composing (r'.withoutClass name) model =
          (r'.withoutClass name).composingClass model) :
    composingBy composing parent children r = r.composing parent children := by
  induction children generalizing r with
  | nil => rw [composing_nil]; rfl
  | cons child rest ih =>
    rw [composing_cons, composingBy]
    cases henum : r.enums.lookup child with
    | some model =>
      have hrest := ih (r := r.withoutEnum child) h
      simp only [hrest]
    | none =>
      simp only
      split
      · exact ih h
      · cases hchild : r.classes.lookup child with
        | none => rfl
        | some model =>
          simp only [h r child model (Nat.le_refl _) hchild]
          rcases hclass : (r.withoutClass child).composingClass model with ⟨failure | type, r₁⟩
          · rfl
          · have hle : r₁.classes.length ≤ r.classes.length := by
              have := length_composingClass_le (r.withoutClass child) model
              rw [hclass] at this
              exact Nat.le_trans this (length_eraseKey_le child r.classes)
            have hrest := ih (r := r₁) fun r' name model hr' =>
              h r' name model (Nat.le_trans hr' hle)
            simp only [hrest]

theorem composingWithin_eq {bound : Nat} {r : Registry} {parent : String} {children : List String}
    (h : r.classes.length ≤ bound) :
    composingWithin bound r parent children = r.composing parent children := by
  induction bound generalizing r parent children with
  | zero =>
    refine composingBy_eq fun r' name model hr' hname => ?_
    have := length_eraseKey_lt hname
    omega
  | succ bound ih =>
    refine composingBy_eq fun r' name model hr' hname => closing_eq (ih ?_)
    have : (r'.withoutClass name).classes.length < r'.classes.length := length_eraseKey_lt hname
    omega

/-- The file of a class, composed no deeper than there are classes. -/
def composeBounded (r : Registry) (root : String) : Except Failure SourceFile × Registry :=
  match r.classes.lookup root with
  | none => (.error (.missingChild root "<root>"), r)
  | some model =>
    let (type, r') := closing (composingWithin r.classes.length) (r.withoutClass root) model
    (type.map fun type => { package := model.cls.package, root := type }, r')

theorem compose_eq_bounded (r : Registry) (root : String) : r.compose root = r.composeBounded root := by
  rw [compose_eq, composeBounded]
  cases r.classes.lookup root with
  | none => rfl
  | some model =>
    simp only
    rw [closing_eq (composingWithin_eq (length_eraseKey_le root r.classes))]

end Registry

namespace Session

/-- The files of the classes that are registered, composed no deeper than there are classes. -/
def generateBounded : Step (List GeneratedFile) := do
  if (← get).candidates = 0 then
    reportNoValueClasses
    return []
  else
    let files ← (← get).registry.roots.mapM fun root => do
      let file ← .ofRegistry fun registry => registry.composeBounded root
      return ({
        path := Path.ofSource (← get).options.srcDir file.package file.root.name
        qualifiedName := root
        contents := file.emit } : GeneratedFile)
    .ofRegistry Registry.drain
    return files

/-- No bound but the number of classes is needed. -/
theorem generate_eq_bounded : generate = generateBounded := by
  have hfile : generateFile = fun root => (do
      let file ← .ofRegistry fun registry => registry.composeBounded root
      return ({
        path := Path.ofSource (← get).options.srcDir file.package file.root.name
        qualifiedName := root
        contents := file.emit } : GeneratedFile)) := by
    funext root
    rw [generateFile]
    simp only [Registry.compose_eq_bounded]
  rw [generate, generateBounded, hfile]

/-- Where generating within the bound succeeds, generating does, with the same files. -/
theorem runOn_generate_ok {β : Type} {view : List GeneratedFile → β} {s : Session} {b : β}
    (h : (generateBounded.runOn s).1.map view = .ok b) :
    ∃ files g, generate.runOn s = (.ok files, g) ∧ view files = b := by
  rw [generate_eq_bounded]
  rcases hresult : generateBounded.runOn s with ⟨failure | files, g⟩
  · rw [hresult] at h
    cases h
  · rw [hresult] at h
    exact ⟨files, g, rfl, Except.ok.inj h⟩

end Session

end DataClassGen
