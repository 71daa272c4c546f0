import DataClassGen.Proofs.Entries
import DataClassGen.Proofs.Run.Generation
import DataClassGen.Proofs.Run.Leftovers
import Mathlib.Data.List.Perm.Subperm

/-!
# Composing ends

The children that classes list need not form a tree: a class may list itself, or one that it is
nested in, or one child twice. So what composing does is written down here without a measure, rule
by rule: `ClassRun` for a class that was taken out of the registry, `ChildrenRun` for the children
of a class one by one, and `FileRun` for a file. A run is finite by itself; it tells the classes
that were taken out and composed, in their order, with the result and the registry that is left,
whether composing succeeds or stops.

There is just one run from every registry (`composing_ends`). A class is taken out before it is
composed, and none is put back (`Takes`), so a run composes no more classes than are registered, and
none of them twice.
-/

namespace DataClassGen.Registry

open Source

/-! ### Runs -/

/-- What there is under the name of a child. -/
inductive Child where
  | enum (model : EnumModel)
  /-- A class that is left out. -/
  | skipped
  /-- Nothing, or nothing any more. -/
  | missing
  | cls (model : ClassModel)

/-- What there is under the name of a child: an enum goes before a class. -/
def child (r : Registry) (name : String) : Child :=
  match r.enums.lookup name with
  | some model => .enum model
  | none =>
    if r.state? name = some .skipped then .skipped
    else
      match r.classes.lookup name with
      | none => .missing
      | some model => .cls model

mutual

/-- Composing a class that was taken out: its own declaration, then its children, then its state. -/
inductive ClassRun : Registry → ClassModel → List (String × ClassModel) →
    Except Failure TypeDecl → Registry → Prop where
  /-- The class has no declaration. -/
  | undeclared {r : Registry} {model : ClassModel} {failure : Failure}
      (undeclared : model.toDeclaration = .error failure) :
      ClassRun r model [] (.error failure) r
  /-- Composing stops at a child, or inside one. -/
  | stopped {r r₁ : Registry} {model : ClassModel} {declaration : TypeDecl}
      {taken : List (String × ClassModel)} {failure : Failure}
      (declared : model.toDeclaration = .ok declaration)
      (inside : ChildrenRun r model.qualifiedName model.children taken (.error failure) r₁) :
      ClassRun r model taken (.error failure) r₁
  /-- The class is in a state that it cannot be composed in. -/
  | notEntered {r r₁ : Registry} {model : ClassModel} {declaration : TypeDecl}
      {taken : List (String × ClassModel)} {types : List TypeDecl} {failure : Failure}
      (declared : model.toDeclaration = .ok declaration)
      (inside : ChildrenRun r model.qualifiedName model.children taken (.ok types) r₁)
      (notEntered : r₁.transition model.qualifiedName .composed = .error failure) :
      ClassRun r model taken (.error failure) r₁
  /-- The class is composed. -/
  | composed {r r₁ r₂ : Registry} {model : ClassModel} {declaration : TypeDecl}
      {taken : List (String × ClassModel)} {types : List TypeDecl}
      (declared : model.toDeclaration = .ok declaration)
      (inside : ChildrenRun r model.qualifiedName model.children taken (.ok types) r₁)
      (entered : r₁.transition model.qualifiedName .composed = .ok r₂) :
      ClassRun r model taken (.ok { declaration with types := declaration.types ++ types }) r₂

/-- Composing the children of the class `parent`, from the first on. -/
inductive ChildrenRun : Registry → String → List String → List (String × ClassModel) →
    Except Failure (List TypeDecl) → Registry → Prop where
  | done (r : Registry) (parent : String) : ChildrenRun r parent [] [] (.ok []) r
  /-- An enum takes its place. -/
  | enum {r r' : Registry} {parent name : String} {rest : List String} {model : EnumModel}
      {taken : List (String × ClassModel)} {result : Except Failure (List TypeDecl)}
      (found : r.child name = .enum model)
      (after : ChildrenRun (r.withoutEnum name) parent rest taken result r') :
      ChildrenRun r parent (name :: rest) taken (result.map (model.toDeclaration :: ·)) r'
  /-- A skipped class has no place. -/
  | skipped {r r' : Registry} {parent name : String} {rest : List String}
      {taken : List (String × ClassModel)} {result : Except Failure (List TypeDecl)}
      (found : r.child name = .skipped) (after : ChildrenRun r parent rest taken result r') :
      ChildrenRun r parent (name :: rest) taken result r'
  /-- Composing stops where nothing is found. -/
  | missing {r : Registry} {parent name : String} {rest : List String}
      (found : r.child name = .missing) :
      ChildrenRun r parent (name :: rest) [] (.error (.missingChild name parent)) r
  /-- Composing stops at a class that it has taken out. -/
  | stopped {r r' : Registry} {parent name : String} {rest : List String} {model : ClassModel}
      {taken : List (String × ClassModel)} {failure : Failure} (found : r.child name = .cls model)
      (inside : ClassRun (r.withoutClass name) model taken (.error failure) r') :
      ChildrenRun r parent (name :: rest) ((name, model) :: taken) (.error failure) r'
  /-- A class that is taken out and composed takes its place. -/
  | cls {r r₁ r' : Registry} {parent name : String} {rest : List String} {model : ClassModel}
      {inner taken : List (String × ClassModel)} {type : TypeDecl}
      {result : Except Failure (List TypeDecl)} (found : r.child name = .cls model)
      (inside : ClassRun (r.withoutClass name) model inner (.ok type) r₁)
      (after : ChildrenRun r₁ parent rest taken result r') :
      ChildrenRun r parent (name :: rest) ((name, model) :: (inner ++ taken))
        (result.map (type :: ·)) r'

end

/-- Composing the file of a class. -/
inductive FileRun : Registry → String → List (String × ClassModel) → Except Failure SourceFile →
    Registry → Prop where
  | missing {r : Registry} {root : String} (missing : r.classes.lookup root = none) :
      FileRun r root [] (.error (.missingChild root "<root>")) r
  | cls {r r' : Registry} {root : String} {model : ClassModel}
      {taken : List (String × ClassModel)} {result : Except Failure TypeDecl}
      (found : r.classes.lookup root = some model)
      (inside : ClassRun (r.withoutClass root) model taken result r') :
      FileRun r root ((root, model) :: taken)
        (result.map fun type => { package := model.cls.package, root := type }) r'

variable {r r₁ r₂ r' : Registry} {name root : String} {model : ClassModel}
  {taken taken' : List (String × ClassModel)}

theorem lookup_of_child (h : r.child name = .cls model) : r.classes.lookup name = some model := by
  rw [child] at h
  split at h
  · cases h
  · split at h
    · cases h
    · split at h
      · cases h
      · next hmodel =>
        rw [hmodel, Child.cls.inj h]

theorem composing_cons_child (r : Registry) (parent name : String) (rest : List String) :
    r.composing parent (name :: rest) =
      match r.child name with
      | .enum model =>
        ((((r.withoutEnum name).composing parent rest).1).map (model.toDeclaration :: ·),
          ((r.withoutEnum name).composing parent rest).2)
      | .skipped => r.composing parent rest
      | .missing => (.error (.missingChild name parent), r)
      | .cls model =>
        match (r.withoutClass name).composingClass model with
        | (.error failure, r₁) => (.error failure, r₁)
        | (.ok type, r₁) =>
          (((r₁.composing parent rest).1).map (type :: ·), (r₁.composing parent rest).2) := by
  rw [composing_cons, child]
  cases r.enums.lookup name with
  | some model => rfl
  | none =>
    simp only
    split
    · rfl
    · cases r.classes.lookup name <;> rfl

/-! ### Every composition is a run -/

theorem exists_classRun_of_childrenRun
    (h : ∃ taken, ChildrenRun r model.qualifiedName model.children taken
      (r.composing model.qualifiedName model.children).1
      (r.composing model.qualifiedName model.children).2) :
    ∃ taken, ClassRun r model taken (r.composingClass model).1 (r.composingClass model).2 := by
  obtain ⟨taken, h⟩ := h
  rw [composingClass, closing]
  cases hdeclared : model.toDeclaration with
  | error failure => exact ⟨[], .undeclared hdeclared⟩
  | ok declaration =>
    rcases hinside : r.composing model.qualifiedName model.children with ⟨failure | types, r₁⟩
    · rw [hinside] at h
      exact ⟨taken, .stopped hdeclared h⟩
    · rw [hinside] at h
      simp only
      cases hentered : r₁.transition model.qualifiedName .composed with
      | error failure => exact ⟨taken, .notEntered hdeclared h hentered⟩
      | ok r₂ => exact ⟨taken, .composed hdeclared h hentered⟩

/-- There is a run for children. The induction is on the number of classes, which a class that is
taken out makes smaller, and then on the children. -/
theorem exists_childrenRun (r : Registry) (parent : String) (children : List String) :
    ∃ taken, ChildrenRun r parent children taken (r.composing parent children).1
      (r.composing parent children).2 := by
  induction hn : r.classes.length using Nat.strong_induction_on generalizing r parent children with
  | _ n ihClasses =>
  induction children generalizing r with
  | nil => exact ⟨[], by rw [composing_nil]; exact .done r parent⟩
  | cons name rest ihRest =>
    rw [composing_cons_child]
    cases hfound : r.child name with
    | enum model =>
      obtain ⟨taken, hrest⟩ := ihRest (r.withoutEnum name) hn
      exact ⟨taken, .enum hfound hrest⟩
    | skipped =>
      obtain ⟨taken, hrest⟩ := ihRest r hn
      exact ⟨taken, .skipped hfound hrest⟩
    | missing => exact ⟨[], .missing hfound⟩
    | cls model =>
      have hlt : (r.withoutClass name).classes.length < n :=
        hn ▸ length_eraseKey_lt (lookup_of_child hfound)
      obtain ⟨inner, hinside⟩ := exists_classRun_of_childrenRun
        (ihClasses _ hlt (r.withoutClass name) model.qualifiedName model.children rfl)
      have hle := length_composingClass_le (r.withoutClass name) model
      rcases hclass : (r.withoutClass name).composingClass model with ⟨failure | type, r₁⟩
      · rw [hclass] at hinside
        simp only [hclass]
        exact ⟨_, .stopped hfound hinside⟩
      · rw [hclass] at hinside hle
        simp only [hclass]
        obtain ⟨taken, hrest⟩ := ihClasses _ (Nat.lt_of_le_of_lt hle hlt) r₁ parent rest rfl
        exact ⟨_, .cls hfound hinside hrest⟩

theorem exists_fileRun (r : Registry) (root : String) :
    ∃ taken, FileRun r root taken (r.compose root).1 (r.compose root).2 := by
  rw [compose_eq]
  cases hroot : r.classes.lookup root with
  | none => exact ⟨[], .missing hroot⟩
  | some model =>
    obtain ⟨taken, hinside⟩ := exists_classRun_of_childrenRun
      (exists_childrenRun (r.withoutClass root) model.qualifiedName model.children)
    exact ⟨_, .cls hroot hinside⟩

/-! ### There is no other run -/

mutual

/-- A run of a class ends as composing the class does. -/
theorem ClassRun.composingClass_eq : ∀ {r model taken result r'},
    ClassRun r model taken result r' → r.composingClass model = (result, r')
  | _, _, _, _, _, .undeclared undeclared => by
    rw [composingClass, closing, undeclared]
  | _, _, _, _, _, .stopped declared inside => by
    rw [composingClass, closing, declared]
    simp only [inside.composing_eq]
  | _, _, _, _, _, .notEntered declared inside notEntered => by
    rw [composingClass, closing, declared]
    simp only [inside.composing_eq, notEntered]
  | _, _, _, _, _, .composed declared inside entered => by
    rw [composingClass, closing, declared]
    simp only [inside.composing_eq, entered]

/-- A run of children ends as composing them does. -/
theorem ChildrenRun.composing_eq : ∀ {r parent children taken result r'},
    ChildrenRun r parent children taken result r' → r.composing parent children = (result, r')
  | _, _, _, _, _, _, .done r parent => composing_nil r parent
  | _, _, _, _, _, _, .enum found after => by
    rw [composing_cons_child, found]
    simp only [after.composing_eq]
  | _, _, _, _, _, _, .skipped found after => by
    rw [composing_cons_child, found]
    exact after.composing_eq
  | _, _, _, _, _, _, .missing found => by
    rw [composing_cons_child, found]
  | _, _, _, _, _, _, .stopped found inside => by
    rw [composing_cons_child, found]
    simp only [inside.composingClass_eq]
  | _, _, _, _, _, _, .cls found inside after => by
    rw [composing_cons_child, found]
    simp only [inside.composingClass_eq, after.composing_eq]

end

/-- A run of a file ends as composing the file does. -/
theorem FileRun.compose_eq {result : Except Failure SourceFile}
    (h : FileRun r root taken result r') : r.compose root = (result, r') := by
  rw [Registry.compose_eq]
  cases h with
  | missing missing => rw [missing]
  | cls found inside =>
    rw [found]
    simp only [inside.composingClass_eq]

mutual

/-- Runs of a class take out the same classes. -/
theorem ClassRun.taken_eq : ∀ {r model taken result r'}, ClassRun r model taken result r' →
    ∀ {taken' result' r''}, ClassRun r model taken' result' r'' → taken' = taken
  | _, _, _, _, _, .undeclared undeclared, _, _, _, other => by
    cases other with
    | undeclared => rfl
    | stopped declared | notEntered declared | composed declared =>
      cases undeclared.symm.trans declared
  | _, _, _, _, _, .stopped declared inside, _, _, _, other
  | _, _, _, _, _, .notEntered declared inside _, _, _, _, other
  | _, _, _, _, _, .composed declared inside _, _, _, _, other => by
    cases other with
    | undeclared undeclared => cases undeclared.symm.trans declared
    | stopped _ inside' | notEntered _ inside' | composed _ inside' => exact inside.taken_eq inside'

/-- Runs of children take out the same classes. -/
theorem ChildrenRun.taken_eq : ∀ {r parent children taken result r'},
    ChildrenRun r parent children taken result r' →
    ∀ {taken' result' r''}, ChildrenRun r parent children taken' result' r'' → taken' = taken
  | _, _, _, _, _, _, .done .., _, _, _, .done .. => rfl
  | _, _, _, _, _, _, .enum found after, _, _, _, other => by
    cases other with
    | enum _ after' => exact after.taken_eq after'
    | skipped found' | missing found' | stopped found' | cls found' =>
      cases found.symm.trans found'
  | _, _, _, _, _, _, .skipped found after, _, _, _, other => by
    cases other with
    | skipped _ after' => exact after.taken_eq after'
    | enum found' | missing found' | stopped found' | cls found' => cases found.symm.trans found'
  | _, _, _, _, _, _, .missing found, _, _, _, other => by
    cases other with
    | missing => rfl
    | enum found' | skipped found' | stopped found' | cls found' => cases found.symm.trans found'
  | _, _, _, _, _, _, .stopped found inside, _, _, _, other => by
    cases other with
    | enum found' | skipped found' | missing found' => cases found.symm.trans found'
    | stopped found' inside' =>
      obtain rfl := Child.cls.inj (found.symm.trans found')
      rw [inside.taken_eq inside']
    | cls found' inside' =>
      obtain rfl := Child.cls.inj (found.symm.trans found')
      cases inside.composingClass_eq.symm.trans inside'.composingClass_eq
  | _, _, _, _, _, _, .cls found inside after, _, _, _, other => by
    cases other with
    | enum found' | skipped found' | missing found' => cases found.symm.trans found'
    | stopped found' inside' =>
      obtain rfl := Child.cls.inj (found.symm.trans found')
      cases inside.composingClass_eq.symm.trans inside'.composingClass_eq
    | cls found' inside' after' =>
      obtain rfl := Child.cls.inj (found.symm.trans found')
      obtain rfl := (Prod.mk.inj (inside.composingClass_eq.symm.trans inside'.composingClass_eq)).2
      rw [inside.taken_eq inside', after.taken_eq after']

end

/-- Runs of a file take out the same classes. -/
theorem FileRun.taken_eq {result result' : Except Failure SourceFile}
    (h : FileRun r root taken result r₁) (other : FileRun r root taken' result' r₂) :
    taken' = taken := by
  cases h with
  | missing missing =>
    cases other with
    | missing => rfl
    | cls found => cases missing.symm.trans found
  | cls found inside =>
    cases other with
    | missing missing => cases missing.symm.trans found
    | cls found' inside' =>
      obtain rfl := Option.some.inj (found.symm.trans found')
      rw [inside.taken_eq inside']

/-! ### What a run takes out -/

/-- The registry `r'` has the classes of `r` but for `taken`, each of which was registered in `r`;
no name is taken twice. -/
structure Takes (r : Registry) (taken : List (String × ClassModel)) (r' : Registry) : Prop where
  registered : ∀ entry ∈ taken, r.classes.lookup entry.1 = some entry.2
  nodup : (taken.map (·.1)).Nodup
  classes : r'.classes = r.classes.filter fun entry => entry.1 ∉ taken.map (·.1)

namespace Takes

theorem nothing (h : r'.classes = r.classes) : Takes r [] r' where
  registered := fun _ hentry => nomatch hentry
  nodup := List.nodup_nil
  classes := by simp [h]

/-- What is registered afterwards was registered, and is not taken. -/
theorem lookup_classes (h : Takes r taken r') (name : String) :
    r'.classes.lookup name = if name ∈ taken.map (·.1) then none else r.classes.lookup name := by
  rw [h.classes, lookup_filter (fun name => decide (name ∉ taken.map (·.1)))]
  by_cases hname : name ∈ taken.map (·.1)
  · simp [hname]
  · simp [hname]

theorem append (h : Takes r taken r₁) (h' : Takes r₁ taken' r₂) :
    Takes r (taken ++ taken') r₂ where
  registered := by
    intro entry hentry
    rcases List.mem_append.mp hentry with hentry | hentry
    · exact h.registered entry hentry
    · have hlookup := h'.registered entry hentry
      rw [h.lookup_classes] at hlookup
      split at hlookup
      · cases hlookup
      · exact hlookup
  nodup := by
    rw [List.map_append]
    refine h.nodup.append h'.nodup fun name hname hname' => ?_
    obtain ⟨entry, hentry, rfl⟩ := List.mem_map.mp hname'
    have hlookup := h'.registered entry hentry
    rw [h.lookup_classes, if_pos hname] at hlookup
    cases hlookup
  classes := by
    rw [h'.classes, h.classes, List.filter_filter]
    refine List.filter_congr fun entry _ => ?_
    rw [List.map_append]
    simp only [List.mem_append, not_or, Bool.decide_and, Bool.and_comm]

theorem one (h : r.classes.lookup name = some model) :
    Takes r [(name, model)] (r.withoutClass name) where
  registered := List.forall_mem_singleton.mpr h
  nodup := List.nodup_singleton _
  classes := List.filter_congr fun entry _ => by simp [bne, beq_eq_decide]

/-- No more is taken than is registered. -/
theorem subperm (h : Takes r taken r') : taken.Subperm r.classes :=
  List.subperm_of_subset (.of_map _ h.nodup) fun entry hentry =>
    mem_of_lookup (h.registered entry hentry)

/-- No model is taken twice if the classes are registered under their own names. -/
theorem nodup_models (h : Takes r taken r') (named : r.ClassesNamed) : (taken.map (·.2)).Nodup := by
  have hnames : taken.map (·.1) = (taken.map (·.2)).map ClassModel.qualifiedName := by
    rw [List.map_map]
    exact List.map_congr_left fun entry hentry => (named _ _ (h.registered entry hentry)).symm
  exact .of_map ClassModel.qualifiedName (hnames ▸ h.nodup)

end Takes

mutual

/-- A run of a class takes out the classes that it tells. -/
theorem ClassRun.takes : ∀ {r model taken result r'}, ClassRun r model taken result r' →
    Takes r taken r'
  | _, _, _, _, _, .undeclared _ => .nothing rfl
  | _, _, _, _, _, .stopped _ inside => inside.takes
  | _, _, _, _, _, .notEntered _ inside _ => inside.takes
  | _, _, _, _, _, .composed _ inside entered => by
    simpa using inside.takes.append (.nothing (classes_of_transition entered))

/-- A run of children takes out the classes that it tells. -/
theorem ChildrenRun.takes : ∀ {r parent children taken result r'},
    ChildrenRun r parent children taken result r' → Takes r taken r'
  | _, _, _, _, _, _, .done .. => .nothing rfl
  | _, _, _, _, _, _, .enum _ after =>
    ⟨after.takes.registered, after.takes.nodup, after.takes.classes⟩
  | _, _, _, _, _, _, .skipped _ after => after.takes
  | _, _, _, _, _, _, .missing _ => .nothing rfl
  | _, _, _, _, _, _, .stopped found inside =>
    (Takes.one (lookup_of_child found)).append inside.takes
  | _, _, _, _, _, _, .cls found inside after =>
    (Takes.one (lookup_of_child found)).append (inside.takes.append after.takes)

end

theorem FileRun.takes {result : Except Failure SourceFile} (h : FileRun r root taken result r') :
    Takes r taken r' := by
  cases h with
  | missing => exact .nothing rfl
  | cls found inside => exact (Takes.one found).append inside.takes

/-- Composing the file of a class ends, whatever children the registered classes list: it has one
run, which succeeds or stops as composing does. It composes no more classes than are registered:
each is one that was registered and is gone afterwards, no name has its turn twice, and so no class
if all are registered under their own names. -/
theorem composing_ends (r : Registry) (root : String) :
    ∃ taken, FileRun r root taken (r.compose root).1 (r.compose root).2 ∧
      (∀ taken' result r', FileRun r root taken' result r' →
        taken' = taken ∧ r.compose root = (result, r')) ∧
      taken.length ≤ r.classes.length ∧ (taken.map (·.1)).Nodup ∧
      (∀ entry ∈ taken, r.classes.lookup entry.1 = some entry.2) ∧
      (r.compose root).2.classes = r.classes.filter (fun entry => entry.1 ∉ taken.map (·.1)) ∧
      (r.ClassesNamed → (taken.map (·.2)).Nodup) := by
  obtain ⟨taken, hrun⟩ := exists_fileRun r root
  have htakes := hrun.takes
  exact ⟨taken, hrun, fun taken' result r' other => ⟨hrun.taken_eq other, other.compose_eq⟩,
    htakes.subperm.length_le, htakes.nodup, htakes.registered, htakes.classes,
    htakes.nodup_models⟩

/-- Two classes that list each other, the second one itself before that. -/
def knot : Registry where
  classes :=
    [("test.A", { memberless ⟨"test", ["A"]⟩ "test.B" with children := ["test.B"] }),
      ("test.B", { memberless ⟨"test", ["B"]⟩ "test.A" with children := ["test.B", "test.A"] })]
  states := [("test.A", .modeled), ("test.B", .modeled)]

theorem knot_isNamed : knot.ClassesNamed := by
  intro name model hmodel
  rcases List.mem_cons.mp (mem_of_lookup hmodel) with heq | hmem
  · rw [(Prod.mk.inj heq).1, (Prod.mk.inj heq).2]
    decide +kernel
  · rw [(Prod.mk.inj (List.mem_singleton.mp hmem)).1, (Prod.mk.inj (List.mem_singleton.mp hmem)).2]
    decide +kernel

/-- Composing takes out the first and then the second, and stops where that lists itself. -/
theorem knot_is_followed_once : knot.ClassesNamed ∧ ∃ taken r',
    FileRun knot "test.A" taken (.error (.missingChild "test.B" "test.B")) r' ∧
    taken.map (·.1) = ["test.A", "test.B"] ∧ (taken.map (·.2)).Nodup ∧
    knot.compose "test.A" = (.error (.missingChild "test.B" "test.B"), r') ∧ r'.classes = [] := by
  have declared : ∀ entry ∈ knot.classes, ∃ declaration,
      entry.2.toDeclaration = .ok declaration := by
    have hall : (knot.classes.all fun entry => entry.2.toDeclaration.toBool) = true := by
      decide +kernel
    intro entry hentry
    have hbool := List.all_eq_true.mp hall entry hentry
    cases hd : entry.2.toDeclaration with
    | error failure => rw [hd] at hbool; cases hbool
    | ok declaration => exact ⟨declaration, rfl⟩
  obtain ⟨first, hfirst⟩ := declared _ List.mem_cons_self
  obtain ⟨second, hsecond⟩ := declared _ (List.mem_cons_of_mem _ List.mem_cons_self)
  have hrun : FileRun knot "test.A" _ (.error (.missingChild "test.B" "test.B")) _ :=
    .cls rfl <| .stopped hfirst <| .stopped rfl <| .stopped hsecond <| .missing rfl
  obtain ⟨taken, -, hunique, -, -, -, hclasses, hmodels⟩ := composing_ends knot "test.A"
  obtain ⟨rfl, hcompose⟩ := hunique _ _ _ hrun
  rw [hcompose] at hclasses
  exact ⟨knot_isNamed, _, _, hrun, rfl, hmodels knot_isNamed, hcompose, hclasses⟩

end DataClassGen.Registry
