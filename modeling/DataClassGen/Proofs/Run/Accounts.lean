import DataClassGen.Proofs.Model.Contexts
import DataClassGen.Proofs.Model.Enums
import DataClassGen.Proofs.Names
import DataClassGen.Proofs.Run.Intake
import DataClassGen.Proofs.Run.Rounds

/-!
# What a registry accounts for

After a run over rounds, the registry knows the value classes of the rounds that are to be converted
and no other declarations. Each is modeled or skipped, and the modeled ones are those that are
registered, each with the model of one of the value classes of its name, and with the enums of that
class (`Registry.Accounts`). The two maps of the registry have their keys in different ways: a state
stands under the name of the class, a model under the canonical name that is put together from its
package and its simple names. Where the names do not fall apart in this way (`KeepsName`), both are
the same.
-/

namespace DataClassGen

open Source

namespace TypeElement

/-- The type's package and simple names make up its name again. -/
def KeepsName (e : TypeElement) : Prop :=
  (ClassName.inPackage e.package e.qualifiedName).canonical = e.qualifiedName

theorem keepsName_of_not_beginsWith {e : TypeElement}
    (h : Text.beginsWith "." e.qualifiedName = false) : e.KeepsName :=
  ClassName.canonical_inPackage e.package h

/-- A nested type keeps its name if the types of the rounds do: what it is declared in makes no
difference to it. -/
theorem keepsName_of_nested {rounds : List Round}
    (keeps : ∀ t ∈ rounds.flatMap Round.types, t.KeepsName) {t u : TypeElement}
    (ht : t ∈ rounds.flatMap Round.types) (hu : u ∈ t.nestedTypes) : u.KeepsName := by
  have hdeclared := keeps _ (Round.nested_mem_types ht hu)
  exact hdeclared

/-- The model is one that the class is given in a run with these options. -/
structure IsModeledBy (options : Options) (e : TypeElement) (model : ClassModel) : Prop where
  cls : model.cls = .inPackage e.package e.qualifiedName
  parent : model.parent = e.enclosing.map (·.qualifiedName)
  children : model.children =
    (e.nestedTypes.filter (·.isValueClass)).map (·.qualifiedName) ++
      e.enumModels.map (·.qualifiedName)
  place : (e.placement options).1 = if model.isTopLevel then .ownFile else .insideEnclosing

theorem IsModeledBy.qualifiedName {options : Options} {e : TypeElement} {model : ClassModel}
    (h : e.IsModeledBy options model) (keeps : e.KeepsName) :
    model.qualifiedName = e.qualifiedName := by
  rw [ClassModel.qualifiedName, h.cls]
  exact keeps

/-! ### Enums of a class -/

/-- The enums that come along with a class are nested in it and have their own names. -/
theorem exists_nested_of_mem_enumModels {e : TypeElement} {enum : EnumModel}
    (keeps : ∀ u ∈ e.nestedTypes, u.KeepsName) (h : enum ∈ e.enumModels) :
    ∃ u ∈ e.nestedTypes, u.isEnum = true ∧ (EnumModel.ofElement? u).1 = some enum ∧
      enum.qualifiedName = u.qualifiedName := by
  obtain ⟨u, hu, hmodel⟩ := List.mem_filterMap.mp h
  obtain ⟨hnested, hisEnum⟩ := List.mem_filter.mp hu
  refine ⟨u, hnested, hisEnum, hmodel, ?_⟩
  rw [EnumModel.qualifiedName, EnumModel.cls_of_ofElement? hmodel]
  exact keeps u hnested

/-- The names of the enums that come along with a class are among those of the types nested in it, in
the same order. -/
theorem enumModels_names_sublist {e : TypeElement} (keeps : ∀ u ∈ e.nestedTypes, u.KeepsName) :
    (e.enumModels.map (·.qualifiedName)).Sublist (e.nestedTypes.map (·.qualifiedName)) := by
  suffices hmodels : ∀ us : List TypeElement, (∀ u ∈ us, u.KeepsName) →
      ((us.filterMap fun t => (EnumModel.ofElement? t).1).map (·.qualifiedName)).Sublist
        (us.map (·.qualifiedName)) by
    refine (hmodels _ fun u hu => keeps u (List.mem_filter.mp hu).1).trans ?_
    exact List.filter_sublist.map _
  intro us
  induction us with
  | nil => exact fun _ => List.Sublist.refl []
  | cons u us ih =>
    intro keeps
    have hrest := ih fun u' hu' => keeps u' (List.mem_cons_of_mem _ hu')
    rw [List.filterMap_cons]
    cases hmodel : (EnumModel.ofElement? u).1 with
    | none => exact hrest.cons _
    | some enum =>
      have hname : enum.qualifiedName = u.qualifiedName := by
        rw [EnumModel.qualifiedName, EnumModel.cls_of_ofElement? hmodel]
        exact keeps u List.mem_cons_self
      simp only [List.map_cons, hname]
      exact hrest.cons_cons _

/-- The children of a class are types that are nested in it. -/
theorem IsModeledBy.exists_nested {options : Options} {e : TypeElement} {model : ClassModel}
    (h : e.IsModeledBy options model) (keeps : ∀ u ∈ e.nestedTypes, u.KeepsName) {child : String}
    (hchild : child ∈ model.children) : ∃ u ∈ e.nestedTypes, u.qualifiedName = child := by
  rw [h.children, List.mem_append] at hchild
  rcases hchild with hclass | henum
  · obtain ⟨u, hu, rfl⟩ := List.mem_map.mp hclass
    exact ⟨u, (List.mem_filter.mp hu).1, rfl⟩
  · obtain ⟨enum, hmem, rfl⟩ := List.mem_map.mp henum
    obtain ⟨u, hu, -, -, hname⟩ := exists_nested_of_mem_enumModels keeps hmem
    exact ⟨u, hu, hname.symm⟩

/-! ### Verdicts on a class -/

theorem of_modelVerdict {e : TypeElement} {isTopLevel : Bool} {log : Log} {v : Verdict}
    {model : ClassModel} (h : e.modelVerdict isTopLevel log = .ok v) (hmodel : v.model = some model) :
    v.enums = e.enumModels ∧ model.isTopLevel = isTopLevel ∧
      model.cls = .inPackage e.package e.qualifiedName ∧
      model.parent = e.enclosing.map (·.qualifiedName) ∧
      model.children = (e.nestedTypes.filter (·.isValueClass)).map (·.qualifiedName) ++
        e.enumModels.map (·.qualifiedName) := by
  rw [modelVerdict] at h
  split at h
  · cases h
  · next found modelLog hfound =>
    obtain rfl := Except.ok.inj h
    obtain ⟨original, rfl, rfl⟩ := Option.map_eq_some_iff.mp hmodel
    obtain ⟨hcls, hparent, hchildren⟩ := ClassModel.of_ofElement? hfound
    exact ⟨rfl, rfl, hcls, hparent, hchildren⟩

/-- A class that is not skipped has a model by the verdict on it, and brings its enums along. -/
theorem isModeledBy_of_verdict {options : Options} {e : TypeElement} {v : Verdict}
    {model : ClassModel} (h : e.verdict options = .ok v) (hmodel : v.model = some model) :
    e.IsModeledBy options model ∧ v.enums = e.enumModels := by
  rw [verdict] at h
  split at h
  · obtain rfl := Except.ok.inj h
    cases hmodel
  · next log hplace =>
    obtain ⟨henums, htop, hcls, hparent, hchildren⟩ := of_modelVerdict h hmodel
    exact ⟨⟨hcls, hparent, hchildren, by rw [hplace, htop]; rfl⟩, henums⟩
  · next log hplace =>
    obtain ⟨henums, htop, hcls, hparent, hchildren⟩ := of_modelVerdict h hmodel
    exact ⟨⟨hcls, hparent, hchildren, by rw [hplace, htop]; rfl⟩, henums⟩

/-- Whatever becomes of a class, no enums come with it but its own. -/
theorem enums_of_verdict {options : Options} {e : TypeElement} {v : Verdict}
    (h : e.verdict options = .ok v) : ∀ model ∈ v.enums, model ∈ e.enumModels := by
  have of_modelVerdict : ∀ {isTopLevel : Bool} {log : Log},
      e.modelVerdict isTopLevel log = .ok v → ∀ model ∈ v.enums, model ∈ e.enumModels := by
    intro isTopLevel log h
    rw [modelVerdict] at h
    split at h
    · cases h
    · obtain rfl := Except.ok.inj h
      exact fun model hmem => hmem
  rw [verdict] at h
  split at h
  · obtain rfl := Except.ok.inj h
    exact fun model hmem => absurd hmem List.not_mem_nil
  · exact of_modelVerdict h
  · exact of_modelVerdict h

end TypeElement

/-! ### Verdicts in the registry -/

namespace Registry

/-- The state that a verdict leaves the class in. -/
def stateOf (v : Verdict) : Lifecycle := if v.model.isSome then .modeled else .skipped

theorem states_settle (r : Registry) (name : String) (v : Verdict) :
    (r.settle name v).states = insertByKey name (stateOf v) r.states := by
  rw [settle, stateOf]
  cases v.model with
  | none => rw [withState, withEnums_states]; rfl
  | some model =>
    have hstates : ((r.withEnums v.enums).registerClass model).2.states = r.states := by
      rw [← withEnums_states r v.enums, registerClass]
      split <;> rfl
    simp only [withState, hstates]
    rfl

theorem state?_settle (r : Registry) (name other : String) (v : Verdict) :
    (r.settle name v).state? other = if other = name then some (stateOf v) else r.state? other := by
  rw [state?, states_settle]
  by_cases h : other = name
  · rw [if_pos h, h, lookup_insertByKey_self]
  · rw [if_neg h, lookup_insertByKey_of_ne h]
    rfl

theorem classes_settle (r : Registry) (name : String) (v : Verdict) :
    (r.settle name v).classes =
      match v.model with
      | none => r.classes
      | some model =>
        match r.classes.lookup model.qualifiedName with
        | some _ => r.classes
        | none => insertByKey model.qualifiedName model r.classes := by
  rw [settle]
  cases v.model with
  | none => simp only [classes_withState, withEnums_classes]
  | some model =>
    simp only [classes_withState, registerClass, withEnums_classes]
    cases r.classes.lookup model.qualifiedName with
    | none => rfl
    | some known => exact withEnums_classes r v.enums

/-- A verdict changes nothing about the classes, or it adds the model. -/
theorem classes_settle_cases (r : Registry) (name : String) (v : Verdict) :
    (r.settle name v).classes = r.classes ∨ ∃ model, v.model = some model ∧
      (r.settle name v).classes = insertByKey model.qualifiedName model r.classes := by
  rw [classes_settle]
  cases v.model with
  | none => exact Or.inl rfl
  | some model =>
    simp only
    split
    · exact Or.inl rfl
    · exact Or.inr ⟨model, rfl, rfl⟩

/-- The classes after a verdict: a name that was taken keeps its class. -/
theorem lookup_classes_settle (r : Registry) (name other : String) (v : Verdict) :
    (r.settle name v).classes.lookup other =
      (r.classes.lookup other).or (v.model.filter (·.qualifiedName == other)) := by
  rw [classes_settle]
  cases v.model with
  | none => simp
  | some model =>
    simp only
    by_cases hother : other = model.qualifiedName
    · subst hother
      cases hknown : r.classes.lookup model.qualifiedName with
      | some known => simp [hknown]
      | none => simp [lookup_insertByKey_self, Option.filter_some]
    · have hne : (model.qualifiedName == other) = false := beq_false_of_ne (Ne.symm hother)
      rw [Option.filter_some, hne]
      cases r.classes.lookup model.qualifiedName with
      | some known => simp
      | none => simp [lookup_insertByKey_of_ne hother]

theorem lookup_enums_settle (r : Registry) (name other : String) (v : Verdict) :
    (r.settle name v).enums.lookup other =
      (r.enums.lookup other).or (v.enums.find? (·.qualifiedName == other)) := by
  rw [← lookup_enums_withEnums, settle]
  cases v.model with
  | none => rfl
  | some model =>
    simp only [enums_withState, registerClass]
    split <;> rfl

/-- An enum that is known before a verdict, or that comes with it, is known after it. -/
theorem lookup_enums_settle_ne_none (r : Registry) (name : String) {other : String} {v : Verdict}
    (h : r.enums.lookup other ≠ none ∨ ∃ enum ∈ v.enums, enum.qualifiedName = other) :
    (r.settle name v).enums.lookup other ≠ none := by
  rw [lookup_enums_settle, Ne, Option.or_eq_none_iff, List.find?_eq_none]
  rintro ⟨hunknown, hnew⟩
  rcases h with hknown | ⟨enum, hmem, hname⟩
  · exact hknown hunknown
  · exact hnew enum hmem (beq_iff_eq.mpr hname)

/-- What is registered after a verdict was registered before, or is the model of the verdict. -/
theorem registered_settle_cases {r : Registry} {name other : String} {v : Verdict}
    {model : ClassModel} (h : (r.settle name v).classes.lookup other = some model) :
    r.classes.lookup other = some model ∨
      v.model = some model ∧ model.qualifiedName = other := by
  rw [lookup_classes_settle] at h
  rcases Option.or_eq_some_iff.mp h with hold | ⟨-, hnew⟩
  · exact Or.inl hold
  · obtain ⟨hmodel, hname⟩ := Option.filter_eq_some_iff.mp hnew
    exact Or.inr ⟨hmodel, beq_iff_eq.mp hname⟩

/-- The verdict on a class that keeps its name registers a class under that name only. -/
theorem lookup_classes_settle_of_keepsName (r : Registry) {options : Options} {e : TypeElement}
    {v : Verdict} (keeps : e.KeepsName) (hverdict : e.verdict options = .ok v) (name : String) :
    (r.settle e.qualifiedName v).classes.lookup name =
      (r.classes.lookup name).or (if name = e.qualifiedName then v.model else none) := by
  rw [lookup_classes_settle]
  congr 1
  cases hmodel : v.model with
  | none => simp
  | some model =>
    have hname := (TypeElement.isModeledBy_of_verdict hverdict hmodel).1.qualifiedName keeps
    by_cases heq : name = e.qualifiedName
    · simp [hname, heq]
    · simp [hname, heq, Ne.symm heq]

/-! ### What is registered -/

/-- What a registry has registered after a run has come past some value classes, whatever the names
of the classes are. -/
structure Registers (r : Registry) (done : List TypeElement) : Prop where
  empty : done = [] → r = {}
  ordered_classes : Ordered r.classes
  ordered_states : Ordered r.states
  modeled_or_skipped : ∀ name state, r.state? name = some state →
    state = .modeled ∨ state = .skipped
  /-- A model is of the class of a value class. -/
  cls : ∀ name model, r.classes.lookup name = some model →
    ∃ e ∈ done, model.cls = .inPackage e.package e.qualifiedName

namespace Registers

variable {options : Options} {done : List TypeElement} {r : Registry}

theorem start : Registers {} [] where
  empty := fun _ => rfl
  ordered_classes := List.Pairwise.nil
  ordered_states := List.Pairwise.nil
  modeled_or_skipped := fun _ _ h => nomatch h
  cls := fun _ _ h => nomatch h

theorem pass (h : r.Registers done) (e : TypeElement) : r.Registers (done ++ [e]) where
  empty := fun hnil => by simp at hnil
  ordered_classes := h.ordered_classes
  ordered_states := h.ordered_states
  modeled_or_skipped := h.modeled_or_skipped
  cls := fun name model hmodel => by
    obtain ⟨e', he', hcls⟩ := h.cls name model hmodel
    exact ⟨e', List.mem_append_left _ he', hcls⟩

theorem settle (h : r.Registers done) {e : TypeElement} {v : Verdict}
    (hverdict : e.verdict options = .ok v) :
    (r.settle e.qualifiedName v).Registers (done ++ [e]) where
  empty := fun hnil => by simp at hnil
  ordered_classes := by
    rcases classes_settle_cases r e.qualifiedName v with hclasses | ⟨new, hnew, hclasses⟩
    · rw [hclasses]
      exact h.ordered_classes
    · rw [hclasses]
      exact h.ordered_classes.insert _ _
  ordered_states := by
    rw [states_settle]
    exact h.ordered_states.insert _ _
  modeled_or_skipped := fun name state hstate => by
    rw [state?_settle] at hstate
    split at hstate
    · rw [← Option.some.inj hstate, stateOf]
      split
      · exact Or.inl rfl
      · exact Or.inr rfl
    · exact h.modeled_or_skipped name state hstate
  cls := fun name model hmodel => by
    rcases registered_settle_cases hmodel with hold | ⟨hnew, -⟩
    · exact (h.pass e).cls name model hold
    · exact ⟨e, List.mem_append_right _ List.mem_cons_self,
        (TypeElement.isModeledBy_of_verdict hverdict hnew).1.cls⟩

/-- The classes with files of their own are those that are registered as such. -/
theorem mem_roots (h : r.Registers done) (name : String) :
    name ∈ r.roots ↔ ∃ model, r.classes.lookup name = some model ∧ model.isTopLevel = true := by
  simp only [roots, List.mem_map, List.mem_filter, h.ordered_classes.lookup_eq_some_iff]
  constructor
  · rintro ⟨⟨_, model⟩, ⟨hmem, htop⟩, rfl⟩
    exact ⟨model, hmem, htop⟩
  · rintro ⟨model, hmem, htop⟩
    exact ⟨(name, model), ⟨hmem, htop⟩, rfl⟩

theorem pairwise_roots (h : r.Registers done) : r.roots.Pairwise (· < ·) :=
  List.pairwise_map.mpr (h.ordered_classes.filter fun entry => entry.2.isTopLevel)

theorem nodup_roots (h : r.Registers done) : r.roots.Nodup :=
  h.pairwise_roots.imp fun hlt => ne_of_lt hlt

end Registers

/-! ### The account -/

/-- What a registry knows after a run has come past some value classes. -/
structure Accounts (r : Registry) (options : Options) (done : List TypeElement) : Prop
    extends r.Registers done where
  known : ∀ name, r.state? name ≠ none ↔
    ∃ e ∈ done, e.isWanted options = true ∧ e.qualifiedName = name
  modeled : ∀ name, r.state? name = some .modeled ↔ r.classes.lookup name ≠ none
  /-- A model comes from a value class, and its enums came along with it. -/
  model : ∀ name model, r.classes.lookup name = some model →
    ∃ e ∈ done, e.isWanted options = true ∧ e.qualifiedName = name ∧ e.IsModeledBy options model ∧
      ∀ enum ∈ e.enumModels, r.enums.lookup enum.qualifiedName ≠ none
  enum : ∀ name enum, r.enums.lookup name = some enum → ∃ e ∈ done, enum ∈ e.enumModels

namespace Accounts

variable {options : Options} {done : List TypeElement} {r : Registry}

theorem start : Accounts {} options [] where
  toRegisters := Registers.start
  known := fun name => by simp [state?]
  modeled := fun name => by simp [state?]
  model := fun name model h => nomatch h
  enum := fun name enum h => nomatch h

/-- A class that is passed over was known already, or is none of the run's. -/
theorem pass (h : r.Accounts options done) {e : TypeElement}
    (hpass : e.isWanted options = false ∨ r.state? e.qualifiedName ≠ none) :
    r.Accounts options (done ++ [e]) where
  toRegisters := h.toRegisters.pass e
  known := fun name => by
    rw [h.known]
    constructor
    · rintro ⟨e', he', hwanted, hname⟩
      exact ⟨e', List.mem_append_left _ he', hwanted, hname⟩
    · rintro ⟨e', he', hwanted, hname⟩
      rcases List.mem_append.mp he' with he' | he'
      · exact ⟨e', he', hwanted, hname⟩
      · obtain rfl := List.mem_singleton.mp he'
        rcases hpass with hunwanted | hknown
        · rw [hwanted] at hunwanted
          cases hunwanted
        · rw [← hname]
          exact (h.known _).mp hknown
  modeled := h.modeled
  model := fun name model hmodel => by
    obtain ⟨e', he', hrest⟩ := h.model name model hmodel
    exact ⟨e', List.mem_append_left _ he', hrest⟩
  enum := fun name enum henum => by
    obtain ⟨e', he', hmem⟩ := h.enum name enum henum
    exact ⟨e', List.mem_append_left _ he', hmem⟩

/-- The verdict on a new class keeps the names that are known, and makes the class known. -/
theorem known_settle (h : r.Accounts options done) {e : TypeElement}
    (hwanted : e.isWanted options = true) (v : Verdict) (name : String) :
    (r.settle e.qualifiedName v).state? name ≠ none ↔
      ∃ e' ∈ done ++ [e], e'.isWanted options = true ∧ e'.qualifiedName = name := by
  rw [state?_settle]
  by_cases hname : name = e.qualifiedName
  · rw [if_pos hname]
    exact ⟨fun _ => ⟨e, List.mem_append_right _ List.mem_cons_self, hwanted, hname.symm⟩,
      fun _ => Option.some_ne_none _⟩
  · rw [if_neg hname, h.known]
    constructor
    · rintro ⟨e', he', hrest⟩
      exact ⟨e', List.mem_append_left _ he', hrest⟩
    · rintro ⟨e', he', hwanted', hname'⟩
      rcases List.mem_append.mp he' with he' | he'
      · exact ⟨e', he', hwanted', hname'⟩
      · obtain rfl := List.mem_singleton.mp he'
        exact absurd hname'.symm hname

/-- A class that is unknown is not registered. -/
theorem not_registered_of_unknown (h : r.Accounts options done) {name : String}
    (hunknown : r.state? name = none) : r.classes.lookup name = none := by
  by_contra hregistered
  rw [(h.modeled name).mpr hregistered] at hunknown
  cases hunknown

/-- The verdict on a new class leaves it modeled if and only if it registers it. -/
theorem modeled_settle (h : r.Accounts options done) {e : TypeElement} {v : Verdict}
    (keeps : e.KeepsName) (hunknown : r.state? e.qualifiedName = none)
    (hverdict : e.verdict options = .ok v) (name : String) :
    (r.settle e.qualifiedName v).state? name = some .modeled ↔
      (r.settle e.qualifiedName v).classes.lookup name ≠ none := by
  rw [state?_settle, lookup_classes_settle_of_keepsName r keeps hverdict]
  by_cases hname : name = e.qualifiedName
  · rw [if_pos hname, if_pos hname, hname, h.not_registered_of_unknown hunknown, Option.none_or]
    cases hmodel : v.model with
    | none => simp [stateOf, hmodel]
    | some model => simp [stateOf, hmodel]
  · rw [if_neg hname, if_neg hname, Option.or_none]
    exact h.modeled name

/-- A class that is new is modeled or skipped by the verdict on it. -/
theorem settle (h : r.Accounts options done) {e : TypeElement} {v : Verdict}
    (keeps : e.KeepsName) (hwanted : e.isWanted options = true)
    (hunknown : r.state? e.qualifiedName = none) (hverdict : e.verdict options = .ok v) :
    (r.settle e.qualifiedName v).Accounts options (done ++ [e]) where
  toRegisters := h.toRegisters.settle hverdict
  known := h.known_settle hwanted v
  modeled := h.modeled_settle keeps hunknown hverdict
  model := fun name model hmodel => by
    rcases registered_settle_cases hmodel with hold | ⟨hnew, hname⟩
    · obtain ⟨e', he', hwanted', hname', hmodeled, hkept⟩ := h.model name model hold
      exact ⟨e', List.mem_append_left _ he', hwanted', hname', hmodeled,
        fun enum henum => lookup_enums_settle_ne_none r _ (Or.inl (hkept enum henum))⟩
    · obtain ⟨hmodeled, hbrings⟩ := TypeElement.isModeledBy_of_verdict hverdict hnew
      refine ⟨e, List.mem_append_right _ List.mem_cons_self, hwanted,
        (hmodeled.qualifiedName keeps).symm.trans hname, hmodeled, fun enum henum => ?_⟩
      refine lookup_enums_settle_ne_none r _ (Or.inr ⟨enum, ?_, rfl⟩)
      rwa [hbrings]
  enum := fun name enum henum => by
    rw [lookup_enums_settle] at henum
    rcases Option.or_eq_some_iff.mp henum with hold | ⟨-, hnew⟩
    · obtain ⟨e', he', hmem⟩ := h.enum name enum hold
      exact ⟨e', List.mem_append_left _ he', hmem⟩
    · exact ⟨e, List.mem_append_right _ List.mem_cons_self,
        TypeElement.enums_of_verdict hverdict enum (List.mem_of_find?_eq_some hnew)⟩

/-- A value class that is to be converted is modeled and registered, or skipped. -/
theorem registered_or_skipped (h : r.Accounts options done) {e : TypeElement} (he : e ∈ done)
    (hwanted : e.isWanted options = true) :
    r.classes.lookup e.qualifiedName ≠ none ∨ r.state? e.qualifiedName = some .skipped := by
  have hknown := (h.known e.qualifiedName).mpr ⟨e, he, hwanted, rfl⟩
  obtain ⟨state, hstate⟩ := Option.ne_none_iff_exists'.mp hknown
  rcases h.modeled_or_skipped _ _ hstate with rfl | rfl
  · exact Or.inl ((h.modeled _).mp hstate)
  · exact Or.inr hstate

/-- The classes are registered under their own names. -/
theorem classesNamed (h : r.Accounts options done) (keeps : ∀ e ∈ done, e.KeepsName) :
    r.ClassesNamed := by
  intro name model hmodel
  obtain ⟨e, he, -, hname, hmodeled, -⟩ := h.model name model hmodel
  rw [← hname]
  exact hmodeled.qualifiedName (keeps e he)

end Accounts

end Registry

/-- What is registered after a run comes from the value classes of the rounds. -/
theorem Session.registers_of_processAll {options : Options} {rounds : List Round} {s : Session}
    (h : (processAll rounds).runOn { options } = (.ok (), s)) :
    s.registry.Registers (rounds.flatMap Round.valueClasses) ∧ s.options = options ∧
      s.candidates = (rounds.flatMap Round.valueClasses).length := by
  obtain ⟨hregisters, -, hoptions, hcandidates⟩ := run_induction
    (P := fun done r _ => r.Registers done) Registry.Registers.start
    (fun done e _ _ _ _ hregisters _ => hregisters.pass e)
    (fun done e _ _ _ v _ hregisters _ _ _ hverdict => hregisters.settle hverdict) h
  exact ⟨hregisters, hoptions, hcandidates⟩

/-- After a run the registry accounts for the value classes of the rounds. -/
theorem Session.accounts_of_processAll {options : Options} {rounds : List Round} {s : Session}
    (keeps : ∀ e ∈ rounds.flatMap Round.valueClasses, e.KeepsName)
    (h : (processAll rounds).runOn { options } = (.ok (), s)) :
    s.registry.Accounts options (rounds.flatMap Round.valueClasses) ∧ s.registry.EnumsNamed ∧
      s.options = options ∧ s.candidates = (rounds.flatMap Round.valueClasses).length := by
  refine run_induction (P := fun done r _ => r.Accounts options done) Registry.Accounts.start ?_ ?_ h
  · intro done e rest r _ _ haccounts hpass
    exact haccounts.pass hpass
  · intro done e rest r _ v hall haccounts _ hwanted hunknown hverdict
    refine haccounts.settle (keeps e ?_) hwanted hunknown hverdict
    rw [hall]
    exact List.mem_append_right _ List.mem_cons_self

end DataClassGen
