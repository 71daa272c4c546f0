import DataClassGen.Proofs.Run.States
import Mathlib.Data.List.Induction

/-!
# What becomes of leftover classes

A class that no file took in is skipped if the way outward from it, from each class that is still
registered to the one around it, ends at a skipped declaration (`EndsSkipped`). Draining looks at
the class directly around each one only, but it goes by the names in their order, and a class stands
in front of those nested in it: at each step, a class in front is skipped if it ends skipped
(`parent_skipped_iff`). So draining stops at the first class that does not, if there is one, and the
classes in front of it are skipped by then.
-/

namespace DataClassGen.Registry

/-- What is still registered when the files are composed: modeled classes that are nested in
others. They come in the order of their names, as all entries of a registry do. -/
structure IsLeftOver (r : Registry) : Prop where
  ordered : Ordered r.classes
  modeled : ∀ name model, r.classes.lookup name = some model → r.state? name = some .modeled
  nested : ∀ name model, r.classes.lookup name = some model →
    ∃ parent simple, model.parent = some parent ∧ name = parent ++ "." ++ simple

/-- The way outward from a declaration, through registered classes, ends at a skipped one. -/
inductive EndsSkipped (r : Registry) : String → Prop where
  | here {name : String} (hfree : r.classes.lookup name = none)
    (hskipped : r.state? name = some .skipped) : EndsSkipped r name
  | outward {name parent : String} {model : ClassModel}
    (hmodel : r.classes.lookup name = some model) (hparent : model.parent = some parent)
    (h : EndsSkipped r parent) : EndsSkipped r name

variable {r r₁ : Registry} {name parent : String} {model : ClassModel}

theorem endsSkipped_iff_of_none (hfree : r.classes.lookup name = none) :
    r.EndsSkipped name ↔ r.state? name = some .skipped := by
  refine ⟨fun h => ?_, .here hfree⟩
  cases h with
  | here _ hskipped => exact hskipped
  | outward hmodel => rw [hfree] at hmodel; cases hmodel

theorem endsSkipped_iff_of_some (hmodel : r.classes.lookup name = some model)
    (hparent : model.parent = some parent) : r.EndsSkipped name ↔ r.EndsSkipped parent := by
  refine ⟨fun h => ?_, .outward hmodel hparent⟩
  cases h with
  | here hfree => rw [hfree] at hmodel; cases hmodel
  | outward hmodel' hparent' hends =>
    obtain rfl := Option.some.inj (hmodel'.symm.trans hmodel)
    obtain rfl := Option.some.inj (hparent'.symm.trans hparent)
    exact hends

/-- Skipping classes in two parts. -/
theorem skipAll_append {first : List (String × ClassModel)} (h : r.skipAll first = (.ok (), r₁))
    (rest : List (String × ClassModel)) : r.skipAll (first ++ rest) = r₁.skipAll rest := by
  induction first generalizing r with
  | nil =>
    obtain rfl : r = r₁ := (Prod.mk.inj h).2
    rfl
  | cons entry first ih =>
    rw [skipAll] at h
    rw [List.cons_append, skipAll]
    split at h
    · next hskipped =>
      rw [if_pos hskipped]
      split at h
      · cases h
      · exact ih h
    · cases h

namespace IsLeftOver

variable {done rest : List (String × ClassModel)}

/-- When it is a class's turn, the one around it is skipped just if the way outward ends at a
skipped declaration: if it is registered itself, it stands in front. -/
theorem parent_skipped_iff (h : r.IsLeftOver) (hclasses : r.classes = done ++ (name, model) :: rest)
    (hdone : ∀ entry ∈ done, r.EndsSkipped entry.1) (hskips : Skips r (done.map (·.1)) r₁) :
    model.parent.bind r₁.state? = some .skipped ↔ r.EndsSkipped name := by
  have hmodel : r.classes.lookup name = some model := by
    rw [h.ordered.lookup_eq_some_iff, hclasses]
    exact List.mem_append_right _ List.mem_cons_self
  obtain ⟨parent, simple, hparent, hname⟩ := h.nested name model hmodel
  have hlt : parent < name := by
    rw [hname, String.append_assoc]
    exact Text.lt_append (by simp)
  rw [endsSkipped_iff_of_some hmodel hparent, hparent, Option.bind_some, hskips.state?]
  by_cases hmem : parent ∈ done.map (·.1)
  · obtain ⟨entry, hentry, rfl⟩ := List.mem_map.mp hmem
    rw [if_pos hmem]
    exact iff_of_true rfl (hdone entry hentry)
  · rw [if_neg hmem, endsSkipped_iff_of_none]
    by_contra hregistered
    obtain ⟨outer, houter⟩ := Option.ne_none_iff_exists'.mp hregistered
    rw [h.ordered.lookup_eq_some_iff, hclasses] at houter
    have hordered := h.ordered
    rw [hclasses] at hordered
    have hafter := (List.pairwise_cons.mp (List.pairwise_append.mp hordered).2.1).1
    rcases List.mem_append.mp houter with houter | houter
    · exact hmem (List.mem_map_of_mem (f := (·.1)) houter)
    · rcases List.mem_cons.mp houter with heq | houter
      · rw [(Prod.mk.inj heq).1] at hlt
        exact String.lt_irrefl _ hlt
      · exact String.lt_irrefl _ (String.lt_trans hlt (hafter _ houter))

/-- Classes in front are skipped if the ways outward from them end at skipped declarations. -/
theorem skipAll_front (h : r.IsLeftOver) (hclasses : r.classes = done ++ rest)
    (hdone : ∀ entry ∈ done, r.EndsSkipped entry.1) :
    ∃ r₁, r.skipAll done = (.ok (), r₁) ∧ Skips r (done.map (·.1)) r₁ := by
  induction done using List.reverseRecOn generalizing rest with
  | nil => exact ⟨r, rfl, Skips.refl r⟩
  | append_singleton done entry ih =>
    obtain ⟨name, model⟩ := entry
    rw [List.append_assoc, List.singleton_append] at hclasses
    have hfront : ∀ entry ∈ done, r.EndsSkipped entry.1 := fun entry hentry =>
      hdone entry (List.mem_append_left _ hentry)
    obtain ⟨r₁, hrun, hskips⟩ := ih hclasses hfront
    have hends : r.EndsSkipped name := hdone (name, model) (by simp)
    have hparent := (h.parent_skipped_iff hclasses hfront hskips).mpr hends
    have hstate : (r₁.withoutClass name).state? name = some .modeled := by
      have hordered := h.ordered
      rw [hclasses] at hordered
      have hnot : name ∉ done.map (·.1) := by
        intro hmem
        obtain ⟨entry, hentry, heq⟩ := List.mem_map.mp hmem
        have hlt := (List.pairwise_append.mp hordered).2.2 entry hentry _ List.mem_cons_self
        exact absurd hlt (by simp [heq])
      show r₁.state? name = some .modeled
      rw [hskips.state?, if_neg hnot]
      refine h.modeled name model ((h.ordered.lookup_eq_some_iff name model).mpr ?_)
      rw [hclasses]
      exact List.mem_append_right _ List.mem_cons_self
    have hrun' : r.skipAll (done ++ [(name, model)]) =
        (.ok (), (r₁.withoutClass name).withState name .skipped) := by
      rw [skipAll_append hrun, skipAll, if_pos hparent, transition_of_allows hstate rfl]
      rfl
    exact ⟨_, hrun', skips_of_skipAll hrun'⟩

/-- Where every way outward ends at a skipped declaration, draining succeeds. -/
theorem drain_ok (h : r.IsLeftOver) (hends : ∀ entry ∈ r.classes, r.EndsSkipped entry.1) :
    ∃ r', r.drain = (.ok (), r') := by
  obtain ⟨r₁, hrun, -⟩ := h.skipAll_front (List.append_nil r.classes).symm hends
  exact ⟨_, by rw [drain, hrun]⟩

/-- Draining stops at the first class from which the way outward does not end at a skipped
declaration, with those in front of it skipped. -/
theorem drain_stops (h : r.IsLeftOver) (hclasses : r.classes = done ++ (name, model) :: rest)
    (hdone : ∀ entry ∈ done, r.EndsSkipped entry.1) (hends : ¬ r.EndsSkipped name) :
    ∃ r', r.drain = (.error (.orphanedChild name), r') ∧ Skips r (done.map (·.1)) r' := by
  obtain ⟨r₁, hrun, hskips⟩ := h.skipAll_front hclasses hdone
  have hstops : r.skipAll r.classes = (.error (.orphanedChild name), r₁) := by
    rw [hclasses, skipAll_append hrun, skipAll,
      if_neg (mt (h.parent_skipped_iff hclasses hdone hskips).mp hends)]
  exact ⟨r₁, by rw [drain, hstops], hskips⟩

end IsLeftOver

open Classical in
/-- The classes up to the first from which the way outward does not end at a skipped declaration. -/
theorem exists_first_not_endsSkipped (h : ¬ ∀ entry ∈ r.classes, r.EndsSkipped entry.1) :
    ∃ done name model rest, r.classes = done ++ (name, model) :: rest ∧
      (∀ entry ∈ done, r.EndsSkipped entry.1) ∧ ¬ r.EndsSkipped name := by
  obtain ⟨entry, hentry, hnot⟩ := not_forall₂.mp h
  have hfound : (r.classes.find? fun entry => decide ¬ r.EndsSkipped entry.1).isSome = true :=
    List.find?_isSome.mpr ⟨entry, hentry, decide_eq_true hnot⟩
  obtain ⟨⟨name, model⟩, hfind⟩ := Option.isSome_iff_exists.mp hfound
  obtain ⟨hends, done, rest, hclasses, hdone⟩ := List.find?_eq_some_iff_append.mp hfind
  exact ⟨done, name, model, rest, hclasses, fun entry hentry => by simpa using hdone entry hentry,
    by simpa using hends⟩

/-- Draining settles leftover classes by what is around them. It succeeds just if the way outward
from each ends at a skipped declaration. Then all of them are skipped, nothing is registered any
more, and no other state is changed. If not, it fails with the first class, by name, that does not
follow a skipped one. -/
theorem leftovers_follow_ancestors (h : r.IsLeftOver) :
    ((∃ r', r.drain = (.ok (), r')) ↔ ∀ name ∈ r.classes.map (·.1), r.EndsSkipped name) ∧
    (∀ r', r.drain = (.ok (), r') → r'.classes = [] ∧ r'.enums = [] ∧ ∀ name,
      r'.state? name = if name ∈ r.classes.map (·.1) then some .skipped else r.state? name) ∧
    ∀ failure r', r.drain = (.error failure, r') → ∃ name ∈ r.classes.map (·.1),
      failure = .orphanedChild name ∧ ¬ r.EndsSkipped name ∧
        ∀ other ∈ r.classes.map (·.1), ¬ r.EndsSkipped other → name ≤ other := by
  simp only [List.forall_mem_map]
  by_cases hends : ∀ entry ∈ r.classes, r.EndsSkipped entry.1
  · have hok := h.drain_ok hends
    refine ⟨iff_of_true hok hends, fun r' hdrain => ?_, fun failure r' hdrain => ?_⟩
    · obtain ⟨hclasses, henums, -, hstates⟩ := of_drain hdrain
      exact ⟨hclasses, henums, hstates⟩
    · obtain ⟨_, hdrain'⟩ := hok
      rw [hdrain] at hdrain'
      cases hdrain'
  · obtain ⟨done, name, model, rest, hclasses, hdone, hname⟩ := exists_first_not_endsSkipped hends
    obtain ⟨stopped, hstops, -⟩ := h.drain_stops hclasses hdone hname
    have hfails : ¬ ∃ r', r.drain = (.ok (), r') := by
      rintro ⟨r', hdrain⟩
      rw [hstops] at hdrain
      cases hdrain
    refine ⟨iff_of_false hfails hends, fun r' hdrain => absurd ⟨r', hdrain⟩ hfails,
      fun failure r' hdrain => ?_⟩
    rw [hstops] at hdrain
    obtain ⟨hfailure, -⟩ := Prod.mk.inj hdrain
    refine ⟨name, ?_, (Except.error.inj hfailure).symm, hname, fun other hother hnot => ?_⟩
    · rw [hclasses]
      simp
    · -- those in front follow skipped declarations, and those behind have greater names
      have hordered := h.ordered
      rw [hclasses] at hordered hother
      rcases List.mem_append.mp hother with hother | hother
      · exact absurd (hdone other hother) hnot
      · rcases List.mem_cons.mp hother with rfl | hother
        · exact le_refl _
        · exact le_of_lt <|
            (List.pairwise_cons.mp (List.pairwise_append.mp hordered).2.1).1 other hother

/-- A class without members that is nested in another. -/
def memberless (cls : Source.ClassName) (parent : String) : ClassModel :=
  { cls := cls
    doc := none
    visibility := .publicAccess
    isRedacted := false
    redactedClass := none
    isParcelable := false
    wantsAdapter := false
    superclass := none
    interfaces := []
    typeParameters := []
    annotations := []
    properties := {}
    builder := none
    toBuilders := []
    builderFactories := []
    creators := []
    withers := []
    constants := []
    unrecognized := []
    isTopLevel := false
    parent := some parent
    children := [] }

/-- Two leftover classes, one within the other, in a class that has come as far as `state`. -/
def nestedTwice (state : Lifecycle) : Registry where
  classes :=
    [("test.A.B", memberless ⟨"test", ["A", "B"]⟩ "test.A"),
      ("test.A.B.C", memberless ⟨"test", ["A", "B", "C"]⟩ "test.A.B")]
  states := [("test.A", state), ("test.A.B", .modeled), ("test.A.B.C", .modeled)]

theorem isLeftOver_nestedTwice (state : Lifecycle) : (nestedTwice state).IsLeftOver := by
  have hordered : Ordered (nestedTwice state).classes := by
    simp only [nestedTwice, Ordered, List.pairwise_pair]
    decide
  have hentries : ∀ entry ∈ (nestedTwice state).classes,
      (nestedTwice state).state? entry.1 = some .modeled ∧
      ∃ parent simple, entry.2.parent = some parent ∧ entry.1 = parent ++ "." ++ simple := by
    intro entry hentry
    rcases List.mem_cons.mp hentry with rfl | hentry
    · exact ⟨rfl, "test.A", "B", rfl, rfl⟩
    · rw [List.mem_singleton.mp hentry]
      exact ⟨rfl, "test.A.B", "C", rfl, rfl⟩
  exact ⟨hordered,
    fun name model hmodel => (hentries _ ((hordered.lookup_eq_some_iff name model).mp hmodel)).1,
    fun name model hmodel => (hentries _ ((hordered.lookup_eq_some_iff name model).mp hmodel)).2⟩

/-- Both are skipped with the class around them, the inner one too, whose own parent is skipped only
then. If that class is composed, the outer of them has lost its place. -/
theorem leftovers_nested_twice :
    (nestedTwice .skipped).IsLeftOver ∧ (nestedTwice .composed).IsLeftOver ∧
    (∃ r', (nestedTwice .skipped).drain = (.ok (), r') ∧
      r'.state? "test.A.B.C" = some .skipped) ∧
    ∀ failure r', (nestedTwice .composed).drain = (.error failure, r') →
      failure = .orphanedChild "test.A.B" := by
  have hskipped := isLeftOver_nestedTwice .skipped
  have hcomposed := isLeftOver_nestedTwice .composed
  refine ⟨hskipped, hcomposed, ?_, fun failure r' hdrain => ?_⟩
  · obtain ⟨hok, hstates, -⟩ := leftovers_follow_ancestors hskipped
    have houter : (nestedTwice .skipped).EndsSkipped "test.A.B" :=
      .outward rfl rfl (.here rfl rfl)
    have hinner : (nestedTwice .skipped).EndsSkipped "test.A.B.C" := .outward rfl rfl houter
    obtain ⟨r', hdrain⟩ :=
      hok.mpr (List.forall_mem_cons.mpr ⟨houter, List.forall_mem_singleton.mpr hinner⟩)
    exact ⟨r', hdrain, (hstates r' hdrain).2.2 _⟩
  · obtain ⟨-, -, hfails⟩ := leftovers_follow_ancestors hcomposed
    obtain ⟨name, hname, rfl, -, hleast⟩ := hfails failure r' hdrain
    have houter : ¬ (nestedTwice .composed).EndsSkipped "test.A.B" := by
      have hparent : (nestedTwice .composed).EndsSkipped "test.A.B" ↔
          (nestedTwice .composed).EndsSkipped "test.A" := endsSkipped_iff_of_some rfl rfl
      rw [hparent, endsSkipped_iff_of_none rfl]
      decide
    have hle := hleast "test.A.B" (by decide) houter
    rcases List.mem_cons.mp hname with rfl | hname
    · rfl
    · rw [List.mem_singleton.mp hname] at hle
      exact absurd hle (by decide)

end DataClassGen.Registry
