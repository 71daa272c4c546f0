import DataClassGen.Proofs.Run.Frames

/-!
# Runs over trees that share no names

A run over trees whose names are apart is the union of the runs over the single trees. All trees
share one registry, but each has its own names in it. So the registry of the whole run is at any
time put together from two registries, that of the trees on one side and that of the trees on the
other (`Joins`), and a step on one side leaves the other alone (`Proofs.Run.Frames`). The classes
with files of their own come in the order of their names, in which those of the two sides
interleave; the induction is on this order, and one step of it is a step of one of the sides. What
is left over is drained in the same order, by the same induction.

From two sides to many is an induction on the trees (`run_is_union`). How the trees are divided
into rounds makes no difference, since a run takes in the value classes of its rounds one after
the other.
-/

namespace DataClassGen

namespace Registry

variable {S : String → Bool} {a a' b b' u : Registry}

/-! ### Registries put together -/

/-- The registry `u` has what `a` has under the names in `S`, and what `b` has under all others. -/
structure Joins (S : String → Bool) (a b u : Registry) : Prop where
  inside : AgreeOn S a u
  outside : AgreeOff S b u

theorem AgreeOn.of_off (h : AgreeOff (fun name => !S name) a u) : AgreeOn S a u := by
  simpa only [AgreeOff, Bool.not_not] using h

theorem Joins.swap (h : Joins S a b u) : Joins (fun name => !S name) b a u where
  inside := h.outside
  outside := by simpa only [AgreeOff, Bool.not_not] using h.inside

theorem Joins.of_swap (h : Joins (fun name => !S name) b a u) : Joins S a b u where
  inside := h.outside.of_off
  outside := h.inside

theorem Joins.named (h : Joins S a b u) (ha : a.Named) (hb : b.Named) : u.Named where
  classes := fun name model hmodel => by
    cases hname : S name with
    | true => exact ha.classes name model ((h.inside.classes name hname).trans hmodel)
    | false => exact hb.classes name model ((h.outside.classes name (by simp [hname])).trans hmodel)
  enums := fun name model hmodel => by
    cases hname : S name with
    | true => exact ha.enums name model ((h.inside.enums name hname).trans hmodel)
    | false => exact hb.enums name model ((h.outside.enums name (by simp [hname])).trans hmodel)

/-- A step on the side of `S`. -/
theorem Joins.step (h : Joins S a b u) {u' : Registry} (hinside : AgreeOn S a' u')
    (hoff : AgreeOff S u u') : Joins S a' b u' where
  inside := hinside
  outside := h.outside.trans hoff

/-- The registry is that of one side: it has nothing under other names than those in `S`, and lists
no others. -/
structure IsSide (S : String → Bool) (a : Registry) : Prop where
  named : a.Named
  lists : a.ListsWithin S
  within : AgreeOff S {} a

/-- What has places is gone or composed, and nothing comes in. -/
theorem Effect.isSide {ps : List Place} (h : Effect a ps a') (side : a.IsSide S) :
    a'.IsSide S where
  named := h.named side.named
  lists := h.listsWithin side.lists
  within := {
    classes := fun name hname => by
      rw [h.lookup_classes, ← side.within.classes name hname]
      simp
    enums := fun name hname => by
      rw [h.lookup_enums, ← side.within.enums name hname]
      simp
    states := fun name hname => by
      rw [h.state?, if_neg (h.not_mem_classNames (side.within.classes name hname).symm)]
      exact side.within.states name hname }

/-- The classes of a side are those of the whole that have names in `S`. -/
theorem Joins.classes (h : Joins S a b u) (within : AgreeOff S {} a) (hu : Ordered u.classes)
    (ha : Ordered a.classes) : u.classes.filter (fun entry => S entry.1) = a.classes := by
  refine (hu.filter _).ext ha fun name => ?_
  rw [lookup_filter]
  split
  · next hname => exact (h.inside.classes name hname).symm
  · next hname => exact within.classes name (by simpa using hname)

theorem Joins.roots (h : Joins S a b u) (within : AgreeOff S {} a) (hu : Ordered u.classes)
    (ha : Ordered a.classes) : u.roots.filter S = a.roots := by
  rw [Registry.roots, Registry.roots, ← h.classes within hu ha, List.filter_map, List.filter_filter,
    List.filter_filter]
  refine congrArg _ (List.filter_congr fun entry _ => ?_)
  exact Bool.and_comm _ _

/-! ### Composing -/

theorem Composes.append {outer : Option String} {r r₁ r₂ : Registry} {xs ys : List String}
    {os ps : List Outline} (h : Composes outer r xs os r₁) (h' : Composes outer r₁ ys ps r₂) :
    Composes outer r (xs ++ ys) (os ++ ps) r₂ := by
  induction h with
  | done outer r => exact h'
  | enum found after ih => exact .enum found (ih h')
  | skipped noEnum isSkipped after ih => exact .skipped noEnum isSkipped (ih h')
  | cls must found inside entered after ihInside ihAfter =>
    exact .cls must found inside entered (ihAfter h')

/-- The class whose file comes first is composed by itself, and then the others are. -/
theorem Composes.uncons {r r' : Registry} {root : String} {rest : List String}
    {forest : List Outline} (h : Composes none r (root :: rest) forest r') :
    ∃ outline outlines r₁, forest = outline :: outlines ∧ Composes none r [root] [outline] r₁ ∧
      Composes none r₁ rest outlines r' := by
  cases h with
  | @cls _ _ r₁ r₂ _ _ _ model inner outlines must found inside entered after =>
    exact ⟨_, outlines, r₂, rfl, .cls must found inside entered (.done none r₂), after⟩

/-- A class of one side composes in the whole as it does on its side. -/
theorem Joins.composes (h : Joins S a b u) (side : a.IsSide S) {root : String}
    (hroot : S root = true) {outline : Outline} (hcomposes : Composes none a [root] [outline] a') :
    ∃ u', Composes none u [root] [outline] u' ∧ Joins S a' b u' ∧ a'.IsSide S := by
  obtain ⟨u', hu', hinside, hoff⟩ :=
    hcomposes.frame side.named side.lists.closed (by simpa using hroot) h.inside
  exact ⟨u', hu', h.step hinside hoff, (hcomposes.effect side.named).isSide side⟩

/-- The classes of two sides compose in the whole as they do on their sides, and give the same
files. -/
theorem Joins.composes_all {options : Options} {roots : List String} {φ ψ : List Outline}
    {filesA filesB : List GeneratedFile} (h : Joins S a b u) (sideA : a.IsSide S)
    (sideB : b.IsSide fun name => !S name)
    (composesA : Composes none a (roots.filter S) φ a')
    (composesB : Composes none b (roots.filter fun name => !S name) ψ b')
    (namesA : filesA.map (·.qualifiedName) = roots.filter S)
    (namesB : filesB.map (·.qualifiedName) = roots.filter fun name => !S name)
    (areA : List.Forall₂ (IsFileOf options) filesA φ)
    (areB : List.Forall₂ (IsFileOf options) filesB ψ) :
    ∃ forest files u', Composes none u roots forest u' ∧ Joins S a' b' u' ∧
      files.map (·.qualifiedName) = roots ∧ List.Forall₂ (IsFileOf options) files forest ∧
      files.Perm (filesA ++ filesB) := by
  induction roots generalizing a b u φ ψ filesA filesB with
  | nil =>
    cases composesA
    cases composesB
    cases areA
    cases areB
    exact ⟨[], [], u, .done none u, h, rfl, .nil, .nil⟩
  | cons root rest ih =>
    cases hroot : S root with
    | true =>
      simp only [List.filter_cons, hroot, Bool.not_true, Bool.false_eq_true, if_true, if_false]
        at composesA composesB namesA namesB
      obtain ⟨outline, φ, a₁, rfl, hfirst, hrest⟩ := composesA.uncons
      obtain ⟨u₁, hu₁, hjoins, hside⟩ := h.composes sideA hroot hfirst
      cases areA with
      | @cons file _ filesA _ hfile areA =>
        rw [List.map_cons] at namesA
        obtain ⟨hname, namesA⟩ := List.cons.inj namesA
        obtain ⟨forest, files, u', hforest, hjoins', hnames, hfiles, hperm⟩ :=
          ih hjoins hside sideB hrest composesB namesA namesB areA areB
        exact ⟨outline :: forest, file :: files, u', hu₁.append hforest, hjoins',
          by rw [List.map_cons, hname, hnames], .cons hfile hfiles, hperm.cons file⟩
    | false =>
      have hother : (!S root) = true := by rw [hroot]; rfl
      simp only [List.filter_cons, hroot, Bool.not_false, Bool.false_eq_true, if_true, if_false]
        at composesA composesB namesA namesB
      obtain ⟨outline, ψ, b₁, rfl, hfirst, hrest⟩ := composesB.uncons
      obtain ⟨u₁, hu₁, hjoins, hside⟩ := h.swap.composes sideB hother hfirst
      cases areB with
      | @cons file _ filesB _ hfile areB =>
        rw [List.map_cons] at namesB
        obtain ⟨hname, namesB⟩ := List.cons.inj namesB
        obtain ⟨forest, files, u', hforest, hjoins', hnames, hfiles, hperm⟩ :=
          ih hjoins.of_swap sideA hside composesA hrest namesA namesB areA areB
        exact ⟨outline :: forest, file :: files, u', hu₁.append hforest, hjoins',
          by rw [List.map_cons, hname, hnames], .cons hfile hfiles,
          (hperm.cons file).trans List.perm_middle.symm⟩

/-! ### Draining -/

/-- What is left over on one side is skipped in the whole as it is on its side. -/
theorem Joins.skips (h : Joins S a b u) (within : AgreeOff S {} a) {name : String}
    {model : ClassModel} (hname : S name = true) {rest : List (String × ClassModel)}
    (hskips : a.skipAll ((name, model) :: rest) = (.ok (), a')) :
    ∃ a₁ u₁, a₁.skipAll rest = (.ok (), a') ∧ Joins S a₁ b u₁ ∧ AgreeOff S {} a₁ ∧
      ∀ others, u.skipAll ((name, model) :: others) = u₁.skipAll others := by
  rw [skipAll] at hskips
  split at hskips
  · next hparent =>
    obtain ⟨parent, hmodel, hstate⟩ := Option.bind_eq_some_iff.mp hparent
    have hinside : S parent = true := by
      by_contra hnot
      rw [← within.states parent (by simpa using hnot)] at hstate
      cases hstate
    split at hskips
    · cases hskips
    · next a₁ hstep =>
      obtain ⟨hentered, hagree⟩ := (h.inside.withoutClass name).transition hname hstep
      obtain ⟨source, -, -, rfl⟩ := transition_ok_iff.mp hstep
      have hoff : ∀ r : Registry, AgreeOff S r ((r.withoutClass name).withState name .skipped) :=
        fun r => (AgreeOn.withoutClass_off hname r).trans (AgreeOn.withState_off hname _ _)
      refine ⟨_, _, hskips, h.step hagree (hoff u), within.trans (hoff a), fun others => ?_⟩
      rw [skipAll, hmodel, Option.bind_some, ← h.inside.states parent hinside, if_pos hstate,
        hentered]
  · cases hskips

/-- What is left over on two sides is skipped in the whole. -/
theorem Joins.skips_all {entries : List (String × ClassModel)} (h : Joins S a b u)
    (withinA : AgreeOff S {} a)
    (withinB : AgreeOff (fun name => !S name) {} b)
    (skipsA : a.skipAll (entries.filter fun entry => S entry.1) = (.ok (), a'))
    (skipsB : b.skipAll (entries.filter fun entry => !S entry.1) = (.ok (), b')) :
    ∃ u', u.skipAll entries = (.ok (), u') := by
  induction entries generalizing a b u with
  | nil => exact ⟨u, rfl⟩
  | cons entry rest ih =>
    obtain ⟨name, model⟩ := entry
    cases hname : S name with
    | true =>
      simp only [List.filter_cons, hname, Bool.not_true, Bool.false_eq_true, if_true, if_false]
        at skipsA skipsB
      obtain ⟨a₁, u₁, hrest, hjoins, hwithin, hwhole⟩ := h.skips withinA hname skipsA
      rw [hwhole]
      exact ih hjoins hwithin withinB hrest skipsB
    | false =>
      have hother : (!S name) = true := by rw [hname]; rfl
      simp only [List.filter_cons, hname, Bool.not_false, Bool.false_eq_true, if_true, if_false]
        at skipsA skipsB
      obtain ⟨b₁, u₁, hrest, hjoins, hwithin, hwhole⟩ := h.swap.skips withinB hother skipsB
      rw [hwhole]
      exact ih hjoins.of_swap withinA hwithin skipsA hrest

/-- Where what is left over is drained, all of it is skipped. -/
theorem skipAll_of_drain {r r' : Registry} (h : r.drain = (.ok (), r')) :
    ∃ r₁, r.skipAll r.classes = (.ok (), r₁) := by
  rw [drain] at h
  split at h
  · next r₁ hskips => exact ⟨r₁, hskips⟩
  · cases h

/-- What is left over on two sides is drained from the whole. -/
theorem Joins.drains {r s : Registry} (h : Joins S a b u) (sideA : a.IsSide S)
    (sideB : b.IsSide fun name => !S name) (hu : Ordered u.classes) (ha : Ordered a.classes)
    (hb : Ordered b.classes) (drainsA : a.drain = (.ok (), r)) (drainsB : b.drain = (.ok (), s)) :
    ∃ u', u.drain = (.ok (), u') := by
  obtain ⟨a₁, hskipsA⟩ := skipAll_of_drain drainsA
  obtain ⟨b₁, hskipsB⟩ := skipAll_of_drain drainsB
  rw [← h.classes sideA.within hu ha] at hskipsA
  rw [← h.swap.classes sideB.within hu hb] at hskipsB
  obtain ⟨u₁, hskips⟩ := h.skips_all sideA.within sideB.within hskipsA hskipsB
  exact ⟨{ u₁ with enums := [] }, by rw [drain, hskips]⟩

end Registry

/-! ### The trees of a run -/

namespace TypeElement

/-- The names of a type and of all types nested in it. -/
def treeNames (e : TypeElement) : List String := (e.types none).map (·.qualifiedName)

/-- The names of some types and of all types nested in them. -/
def treeNamesOfAll (es : List TypeElement) : List String :=
  (typesOfAll none es).map (·.qualifiedName)

theorem mem_treeNamesOfAll {es : List TypeElement} {name : String} :
    name ∈ treeNamesOfAll es ↔ ∃ e ∈ es, name ∈ e.treeNames := by
  simp only [treeNamesOfAll, treeNames, List.mem_map, mem_typesOfAll]
  constructor
  · rintro ⟨t, ⟨e, he, ht⟩, rfl⟩
    exact ⟨e, he, t, ht, rfl⟩
  · rintro ⟨e, he, t, ht, rfl⟩
    exact ⟨t, ⟨e, he, ht⟩, rfl⟩

theorem valueClassesOfAll_append (outer : Option EnclosingType) (es es' : List TypeElement) :
    valueClassesOfAll outer (es ++ es') =
      valueClassesOfAll outer es ++ valueClassesOfAll outer es' := by
  induction es with
  | nil => rfl
  | cons e es ih => rw [List.cons_append, valueClassesOfAll, valueClassesOfAll, ih, List.append_assoc]

/-- The value classes of some trees stay among the names of the trees. -/
theorem staysIn_of_mem {S : String → Bool} {es : List TypeElement}
    (hS : ∀ name ∈ treeNamesOfAll es, S name = true)
    (names : ∀ name ∈ treeNamesOfAll es, Text.beginsWith "." name = false) {e : TypeElement}
    (he : e ∈ valueClassesOfAll none es) : e.StaysIn S := by
  rw [valueClassesOfAll_eq_filter] at he
  have htypes := (List.mem_filter.mp he).1
  have hname : e.qualifiedName ∈ treeNamesOfAll es := List.mem_map_of_mem htypes
  have hnested : ∀ u ∈ e.nestedTypes, u.qualifiedName ∈ treeNamesOfAll es := by
    intro u hu
    have hmem := (nested_sublist_typesOfAll es htypes).subset (List.mem_map_of_mem hu)
    exact List.mem_map_of_mem (f := (·.qualifiedName)) hmem
  exact {
    name := hS _ hname
    keeps := keepsName_of_not_beginsWith (names _ hname)
    nested := fun u hu => hS _ (hnested u hu)
    keeps_nested := fun u hu => keepsName_of_not_beginsWith (names _ (hnested u hu)) }

end TypeElement

/-- The value classes of rounds are those of their elements, however these are divided. -/
theorem Round.flatMap_valueClasses (rounds : List Round) :
    rounds.flatMap Round.valueClasses =
      TypeElement.valueClassesOfAll none (rounds.flatMap (·.elements)) := by
  induction rounds with
  | nil => rfl
  | cons round rounds ih =>
    rw [List.flatMap_cons, List.flatMap_cons, TypeElement.valueClassesOfAll_append, ih]
    rfl

namespace Session

open TypeElement (treeNames treeNamesOfAll valueClassesOfAll)

/-- The run over the rounds succeeds and gives these files. -/
def Gives (options : Options) (rounds : List Round) (files : List GeneratedFile) : Prop :=
  ∃ s g, (processAll rounds).runOn { options } = (.ok (), s) ∧ generate.runOn s = (.ok files, g)

variable {options : Options}

theorem processAll_congr {rounds rounds' : List Round}
    (h : rounds.flatMap (·.elements) = rounds'.flatMap (·.elements)) :
    processAll rounds = processAll rounds' := by
  rw [processAll_eq, processAll_eq, Round.flatMap_valueClasses, Round.flatMap_valueClasses, h]

theorem processAll_single (es : List TypeElement) :
    processAll [{ elements := es }] = (valueClassesOfAll none es).forM accept := by
  rw [processAll_eq, Round.flatMap_valueClasses, List.flatMap_singleton]

/-- The files of a run come in the order of their names. -/
theorem Gives.ordered {rounds : List Round} {files : List GeneratedFile}
    (h : Gives options rounds files) :
    files.Pairwise fun file file' => file.qualifiedName < file'.qualifiedName := by
  obtain ⟨s, g, hprocess, hgenerate⟩ := h
  obtain ⟨-, -, -, -, hnames, -⟩ := of_generate hprocess hgenerate
  have hroots := (registers_of_processAll hprocess).1.pairwise_roots
  rw [← hnames] at hroots
  exact List.pairwise_map.mp hroots

/-- A run over trees registers nothing but under their names, and lists nothing else. -/
theorem isSide_of_processAll {S : String → Bool} {es : List TypeElement} {s : Session}
    (stays : ∀ e ∈ valueClassesOfAll none es, e.StaysIn S)
    (h : (processAll [{ elements := es }]).runOn { options } = (.ok (), s)) :
    s.registry.IsSide S := by
  have hclasses : [{ elements := es : Round }].flatMap Round.valueClasses =
      valueClassesOfAll none es := by
    rw [Round.flatMap_valueClasses, List.flatMap_singleton]
  have keeps : ∀ e ∈ [{ elements := es : Round }].flatMap Round.valueClasses, e.KeepsName := by
    rw [hclasses]
    exact fun e he => (stays e he).keeps
  obtain ⟨haccounts, henums, -, -⟩ := accounts_of_processAll keeps h
  rw [hclasses] at haccounts keeps
  rw [processAll_single] at h
  have hstart : MatchOn S { options } { options } :=
    ⟨rfl, Registry.AgreeOn.refl _ _, Registry.enumsNamed_empty, Registry.enumsNamed_empty⟩
  obtain ⟨t, ht, -, hoff⟩ := forM_accept_frame stays hstart h
  obtain rfl : s = t := (Prod.mk.inj (h.symm.trans ht)).2
  refine ⟨⟨haccounts.classesNamed keeps, henums⟩, fun name model hmodel child hchild => ?_, hoff⟩
  obtain ⟨e, he, -, -, hmodeled, -⟩ := haccounts.model name model hmodel
  obtain ⟨u, hu, rfl⟩ := hmodeled.exists_nested (stays e he).keeps_nested hchild
  exact (stays e he).nested u hu

/-- A run over trees on two sides takes in what the runs over the trees on either side take in: it
begins as the run over those on the one side, and goes on as the run over the others does. -/
theorem joins_of_processAll {S : String → Bool} {es es' : List TypeElement} {s s' : Session}
    (stays : ∀ e ∈ valueClassesOfAll none es, e.StaysIn S)
    (stays' : ∀ e ∈ valueClassesOfAll none es', e.StaysIn fun name => !S name)
    (h : (processAll [{ elements := es }]).runOn { options } = (.ok (), s))
    (h' : (processAll [{ elements := es' }]).runOn { options } = (.ok (), s')) :
    ∃ t, (processAll [{ elements := es ++ es' }]).runOn { options } = (.ok (), t) ∧
      Registry.Joins S s.registry s'.registry t.registry := by
  have side := isSide_of_processAll stays h
  obtain ⟨-, hoptions, -⟩ := registers_of_processAll h
  have hmatch : MatchOn (fun name => !S name) { options } s :=
    ⟨hoptions, side.within, Registry.enumsNamed_empty, side.named.enums⟩
  obtain ⟨t, ht, hmatched, hoff⟩ := forM_accept_frame stays' hmatch (processAll_single es' ▸ h')
  refine ⟨t, ?_, hoff.of_off, hmatched.agree⟩
  rw [processAll_single] at h
  rw [processAll_single, TypeElement.valueClassesOfAll_append, List.forM_eq_forM, List.forM_append]
  exact Step.runOn_bind_ok.mpr ⟨(), s, h, ht⟩

/-- The run over trees on two sides that share no names gives the files of the runs over the trees
on either side. -/
theorem Gives.append {es es' : List TypeElement} {files files' : List GeneratedFile}
    (names : ∀ name ∈ treeNamesOfAll (es ++ es'), Text.beginsWith "." name = false)
    (apart : ∀ name ∈ treeNamesOfAll es, name ∉ treeNamesOfAll es')
    (h : Gives options [{ elements := es }] files)
    (h' : Gives options [{ elements := es' }] files') :
    ∃ all, Gives options [{ elements := es ++ es' }] all ∧ all.Perm (files ++ files') := by
  obtain ⟨s, g, hprocess, hgenerate⟩ := h
  obtain ⟨s', g', hprocess', hgenerate'⟩ := h'
  let S : String → Bool := fun name => decide (name ∈ treeNamesOfAll es)
  have hnames : ∀ name, name ∈ treeNamesOfAll es ∨ name ∈ treeNamesOfAll es' →
      Text.beginsWith "." name = false := by
    intro name hname
    refine names name ?_
    simp only [TypeElement.mem_treeNamesOfAll, List.mem_append] at hname ⊢
    rcases hname with ⟨e, he, hname⟩ | ⟨e, he, hname⟩
    · exact ⟨e, Or.inl he, hname⟩
    · exact ⟨e, Or.inr he, hname⟩
  have stays : ∀ e ∈ valueClassesOfAll none es, e.StaysIn S := fun e he =>
    TypeElement.staysIn_of_mem (fun name hname => decide_eq_true hname)
      (fun name hname => hnames name (Or.inl hname)) he
  have stays' : ∀ e ∈ valueClassesOfAll none es', e.StaysIn fun name => !S name := fun e he =>
    TypeElement.staysIn_of_mem (fun name hname => by
      simpa [S] using fun h => apart name h hname)
      (fun name hname => hnames name (Or.inr hname)) he
  have side := isSide_of_processAll stays hprocess
  have side' := isSide_of_processAll stays' hprocess'
  obtain ⟨hregisters, -, -⟩ := registers_of_processAll hprocess
  obtain ⟨hregisters', -, -⟩ := registers_of_processAll hprocess'
  obtain ⟨t, hwhole, hjoins⟩ := joins_of_processAll stays stays' hprocess hprocess'
  obtain ⟨hregistersAll, hoptionsAll, hcandidatesAll⟩ := registers_of_processAll hwhole
  obtain ⟨forest, r, hcomposes, hdrain, hroots, hfiles⟩ := of_generate hprocess hgenerate
  obtain ⟨forest', r', hcomposes', hdrain', hroots', hfiles'⟩ := of_generate hprocess' hgenerate'
  have hrootsAll := hjoins.roots side.within hregistersAll.ordered_classes
    hregisters.ordered_classes
  have hrootsAll' := hjoins.swap.roots side'.within hregistersAll.ordered_classes
    hregisters'.ordered_classes
  obtain ⟨forestAll, all, u, hcomposesAll, hjoined, hnamesAll, hfilesAll, hperm⟩ :=
    hjoins.composes_all side side' (hrootsAll.symm ▸ hcomposes) (hrootsAll'.symm ▸ hcomposes')
      (hrootsAll.symm ▸ hroots) (hrootsAll'.symm ▸ hroots') hfiles hfiles'
  have heffect := hcomposes.effect side.named
  have heffect' := hcomposes'.effect side'.named
  have heffectAll := hcomposesAll.effect (hjoins.named side.named side'.named)
  obtain ⟨v, hdrainAll⟩ := hjoined.drains (heffect.isSide side) (heffect'.isSide side')
    (heffectAll.ordered_classes hregistersAll.ordered_classes)
    (heffect.ordered_classes hregisters.ordered_classes)
    (heffect'.ordered_classes hregisters'.ordered_classes) hdrain hdrain'
  refine ⟨all, ?_, hperm⟩
  by_cases hempty : t.candidates = 0
  · have hregistry : t.registry = {} :=
      hregistersAll.empty (List.length_eq_zero_iff.mp (hcandidatesAll.symm.trans hempty))
    rw [hregistry] at hnamesAll
    obtain rfl := List.map_eq_nil_iff.mp hnamesAll
    exact ⟨t, _, hwhole, runOn_generate_of_no_candidates hempty⟩
  · exact ⟨t, _, hwhole, runOn_generate_of_composes hempty hcomposesAll hdrainAll hnamesAll
      (hoptionsAll ▸ hfilesAll)⟩

/-- A run without trees gives no files. -/
theorem gives_nil : Gives options [{ elements := [] }] [] :=
  ⟨{ options }, _, rfl, runOn_generate_of_no_candidates rfl⟩

/-- A run over trees gives the files of the runs over the single trees, if no two of the trees share
a name. The trees may come in any order and in any rounds; the files come in the order of their
names. -/
theorem run_is_union {elements : List TypeElement} {alone : TypeElement → List GeneratedFile}
    (names : ∀ e ∈ elements, ∀ name ∈ e.treeNames, Text.beginsWith "." name = false)
    (apart : elements.Pairwise fun e e' => ∀ name ∈ e.treeNames, name ∉ e'.treeNames)
    (single : ∀ e ∈ elements, Gives options [{ elements := [e] }] (alone e))
    {rounds : List Round} (whole : (rounds.flatMap (·.elements)).Perm elements) :
    ∃ files, Gives options rounds files ∧ files.Perm (elements.flatMap alone) ∧
      files.Pairwise fun file file' => file.qualifiedName < file'.qualifiedName := by
  suffices hlist : ∀ es : List TypeElement,
      (∀ e ∈ es, ∀ name ∈ e.treeNames, Text.beginsWith "." name = false) →
      (es.Pairwise fun e e' => ∀ name ∈ e.treeNames, name ∉ e'.treeNames) →
      (∀ e ∈ es, Gives options [{ elements := [e] }] (alone e)) →
      ∃ files, Gives options [{ elements := es }] files ∧ files.Perm (es.flatMap alone) by
    obtain ⟨files, hgives, hperm⟩ := hlist (rounds.flatMap (·.elements))
      (fun e he => names e (whole.mem_iff.mp he))
      ((whole.pairwise_iff fun h name hname hname' => h name hname' hname).mpr apart)
      (fun e he => single e (whole.mem_iff.mp he))
    have hrounds : Gives options rounds files := by
      obtain ⟨s, g, hprocess, hgenerate⟩ := hgives
      have hsame : [{ elements := rounds.flatMap (·.elements) : Round }].flatMap (·.elements) =
          rounds.flatMap (·.elements) := List.flatMap_singleton _ _
      rw [processAll_congr hsame] at hprocess
      exact ⟨s, g, hprocess, hgenerate⟩
    exact ⟨files, hrounds, hperm.trans (whole.flatMap_right alone), hrounds.ordered⟩
  intro es
  induction es with
  | nil => exact fun _ _ _ => ⟨[], gives_nil, .nil⟩
  | cons e es ih =>
    intro names apart single
    obtain ⟨hapart, hrest⟩ := List.pairwise_cons.mp apart
    obtain ⟨files, hgives, hperm⟩ := ih (fun e' he' => names e' (List.mem_cons_of_mem _ he')) hrest
      fun e' he' => single e' (List.mem_cons_of_mem _ he')
    have hnames : ∀ name ∈ treeNamesOfAll ([e] ++ es), Text.beginsWith "." name = false := by
      intro name hname
      obtain ⟨e', he', hname⟩ := TypeElement.mem_treeNamesOfAll.mp hname
      exact names e' he' name hname
    have hdisjoint : ∀ name ∈ treeNamesOfAll [e], name ∉ treeNamesOfAll es := by
      intro name hfirst hothers
      obtain ⟨e₀, he₀, hname⟩ := TypeElement.mem_treeNamesOfAll.mp hfirst
      obtain ⟨e', he', hname'⟩ := TypeElement.mem_treeNamesOfAll.mp hothers
      rw [List.mem_singleton.mp he₀] at hname
      exact hapart e' he' name hname hname'
    obtain ⟨all, hall, hperm'⟩ :=
      (single e List.mem_cons_self).append hnames hdisjoint hgives
    exact ⟨all, hall, hperm'.trans (hperm.append_left (alone e))⟩

/-- Where generating within the bound succeeds, the run gives files. -/
theorem gives_of_bounded {β : Type} (options : Options) (rounds : List Round)
    (view : List GeneratedFile → β) (b : β)
    (hprocess : ((processAll rounds).runOn { options }).1 = .ok ())
    (hgenerate : (generateBounded.runOn (after options rounds)).1.map view = .ok b) :
    ∃ files, Gives options rounds files ∧ view files = b := by
  obtain ⟨files, g, hfiles, hview⟩ := runOn_generate_ok hgenerate
  exact ⟨files, ⟨_, g, runOn_processAll hprocess, hfiles⟩, hview⟩

/-- The trees of the mixed round and another class, in two rounds and in another order. -/
theorem mixed_trees_are_united :
    let elements := Round.mixed.elements ++ [.bareValueClass "test.C" []]
    (∀ e ∈ elements, ∀ name ∈ e.treeNames, Text.beginsWith "." name = false) ∧
    (elements.Pairwise fun e e' => ∀ name ∈ e.treeNames, name ∉ e'.treeNames) ∧
    ∃ alone, (∀ e ∈ elements, Gives { srcDir := "out" } [{ elements := [e] }] (alone e)) ∧
      ((elements.flatMap alone).map (·.qualifiedName)) = ["test.A", "test.C"] ∧
      ∃ files, Gives { srcDir := "out" }
          [{ elements := [.bareValueClass "test.C" []] },
            { elements := Round.mixed.elements.reverse }] files ∧
        files.Perm (elements.flatMap alone) := by
  intro elements
  have hnames : ∀ e ∈ elements, ∀ name ∈ e.treeNames, Text.beginsWith "." name = false := by
    decide +kernel
  have hapart : elements.Pairwise fun e e' => ∀ name ∈ e.treeNames, name ∉ e'.treeNames := by
    decide +kernel
  obtain ⟨filesA, hA, hnamesA⟩ := gives_of_bounded { srcDir := "out" }
    [{ elements := Round.mixed.elements.take 1 }] (List.map (·.qualifiedName)) ["test.A"]
    (by decide +kernel) (by decide +kernel)
  obtain ⟨filesP, hP, hnamesP⟩ := gives_of_bounded { srcDir := "out" }
    [{ elements := Round.mixed.elements.drop 1 }] (List.map (·.qualifiedName)) []
    (by decide +kernel) (by decide +kernel)
  obtain ⟨filesC, hC, hnamesC⟩ := gives_of_bounded { srcDir := "out" }
    [{ elements := [.bareValueClass "test.C" []] }] (List.map (·.qualifiedName)) ["test.C"]
    (by decide +kernel) (by decide +kernel)
  let alone : TypeElement → List GeneratedFile := fun e =>
    if e.qualifiedName = "test.A" then filesA
    else if e.qualifiedName = "test.C" then filesC
    else filesP
  have hsingle : ∀ e ∈ elements, Gives { srcDir := "out" } [{ elements := [e] }] (alone e) := by
    intro e he
    simp only [elements, Round.mixed, List.mem_append, List.mem_cons, List.not_mem_nil,
      or_false] at he
    rcases he with (rfl | rfl) | rfl
    · exact hA
    · exact hP
    · exact hC
  have halone : elements.flatMap alone = filesA ++ (filesP ++ filesC) := by
    show filesA ++ (filesP ++ (filesC ++ [])) = _
    rw [List.append_nil]
  refine ⟨hnames, hapart, alone, hsingle, ?_, ?_⟩
  · rw [halone, List.map_append, List.map_append, hnamesA, hnamesP, hnamesC]
    rfl
  · have hwhole : ([{ elements := [.bareValueClass "test.C" []] },
        { elements := Round.mixed.elements.reverse }] : List Round).flatMap (·.elements) |>.Perm
          elements := List.reverse_perm elements
    obtain ⟨files, hfiles, hperm, -⟩ := run_is_union hnames hapart hsingle hwhole
    exact ⟨files, hfiles, hperm⟩

end Session

end DataClassGen
