import DataClassGen.Proofs.Run.States

/-!
# Why declarations are skipped

A value class is skipped in one of two ways. It may be skipped as it is taken in, and then something
is reported of it or of a type nested in it: of the class, if it cannot stay where it is nested; of
a nested type, if that cannot stay in it or is a builder that does not finish a value. Or it is
modeled, no file takes it in, and it is skipped with the class around it when what is left over is
drained. Nothing is reported then, but the class around it was skipped before. So the way outward
from a skipped class, through skipped classes, ends at one that something was reported of
(`skipped_for_a_reason`). The induction is on the classes that are drained, in their order.
-/

namespace DataClassGen

/-! ### Reports that explain a skip -/

/-- An error or a warning is about the class, or about a type that is nested in it. -/
def Log.Blames (log : Log) (e : TypeElement) : Prop :=
  ∃ d ∈ log, d.severity ≠ .note ∧ ∃ t, (t = e ∨ t ∈ e.nestedTypes) ∧
    d.element = some t.qualifiedName

theorem Log.Blames.mono {log log' : Log} {e : TypeElement} (h : log.Blames e) (hsub : log ⊆ log') :
    log'.Blames e := by
  obtain ⟨d, hd, hblames⟩ := h
  exact ⟨d, hsub hd, hblames⟩

/-- A builder without a model is reported. -/
theorem BuilderModel.reported_of_none {builder value : TypeElement} {set : PropertySet}
    {log log' : Log} (h : (ofElement? builder value set).runOn log = (.ok none, log')) :
    ({ severity := .error, message := missingBuildMethod, element := some builder.qualifiedName } :
      Diagnostic) ∈ log' := by
  rw [ofElement?] at h
  obtain ⟨parts, log₁, -, h⟩ := Reporting.runOn_bind_ok h
  cases hfinalize : parts.finalizeMethod with
  | none =>
    rw [hfinalize] at h
    obtain rfl : log₁ ++ [_] = log' := (Prod.mk.inj h).2
    exact List.mem_append_right _ List.mem_cons_self
  | some finalizeMethod =>
    rw [hfinalize] at h
    obtain ⟨typeParameters, log₂, -, h⟩ := Reporting.runOn_bind_ok h
    cases h

/-- A value class without a model has a builder that is reported. -/
theorem ClassModel.reported_of_none {e : TypeElement} {enumChildren : List String} {log log' : Log}
    (h : (ofElement? e enumChildren).runOn log = (.ok none, log')) :
    ∃ b ∈ e.nestedTypes, b.isBuilder = true ∧ ({
      severity := .error
      message := BuilderModel.missingBuildMethod
      element := some b.qualifiedName } : Diagnostic) ∈ log' := by
  have modelWith_ne : ∀ {c : ClassContext} {log : Log},
      (do return some (← Reporting.ofExcept (ofContext c enumChildren)) :
        Reporting (Option ClassModel)).runOn log ≠ (.ok none, log') := by
    intro c log h
    obtain ⟨model, log₁, -, h⟩ := Reporting.runOn_bind_ok h
    cases h
  rw [ofElement?] at h
  obtain ⟨properties, log₁, -, h⟩ := Reporting.runOn_bind_ok h
  obtain ⟨selfType, log₂, -, h⟩ := Reporting.runOn_bind_ok h
  split at h
  · exact absurd h modelWith_ne
  · next b hb =>
    obtain ⟨builder, log₃, hbuilder, h⟩ := Reporting.runOn_bind_ok h
    cases builder with
    | none =>
      obtain rfl : log₃ = log' := (Prod.mk.inj h).2
      exact ⟨b, List.mem_of_find?_eq_some hb, by simpa using List.find?_some hb,
        BuilderModel.reported_of_none hbuilder⟩
    | some builder => exact absurd h modelWith_ne

namespace TypeElement

/-- A class that has no place by what is around it is reported. -/
theorem blames_of_outerPlacement {options : Options} {e : TypeElement} {log : Log}
    (h : e.outerPlacement options = (.nowhere, log)) : log.Blames e := by
  rw [outerPlacement] at h
  split at h
  · obtain rfl := (Prod.mk.inj h).2
    exact ⟨_, List.mem_cons_self, by simp, e, Or.inl rfl, rfl⟩
  · split at h
    · rw [Placement.ofTopLevel] at h
      split at h <;> cases h
    · split at h
      · cases h
      · obtain rfl := (Prod.mk.inj h).2
        exact ⟨_, List.mem_cons_self, by simp, e, Or.inl rfl, rfl⟩

/-- A class that has no place is reported, or one that is nested in it is. -/
theorem blames_of_placement {options : Options} {e : TypeElement} {log : Log}
    (h : e.placement options = (.nowhere, log)) : log.Blames e := by
  rw [placement] at h
  split at h
  · next outerLog houter =>
    obtain rfl := (Prod.mk.inj h).2
    exact blames_of_outerPlacement houter
  · next place outerLog hplace houter =>
    obtain ⟨hnowhere, rfl⟩ := Prod.mk.inj h
    cases hmisplaced : e.misplacedTypes with
    | nil =>
      rw [hmisplaced] at hnowhere
      exact absurd hnowhere hplace
    | cons t ts =>
      have ht : t ∈ e.misplacedTypes := by
        rw [hmisplaced]
        exact List.mem_cons_self
      refine ⟨{ severity := .error, message := nestedOther, element := some t.qualifiedName }, ?_,
        by simp, t, Or.inr (List.mem_filter.mp ht).1, rfl⟩
      rw [List.map_cons]
      exact List.mem_append_right _ List.mem_cons_self

/-- A class that is skipped as it is taken in is reported, or one that is nested in it is. -/
theorem blames_of_verdict {options : Options} {e : TypeElement} {v : Verdict}
    (h : e.verdict options = .ok v) (hmodel : v.model = none) : v.log.Blames e := by
  have of_modelVerdict : ∀ {isTopLevel : Bool} {log : Log},
      e.modelVerdict isTopLevel log = .ok v → v.log.Blames e := by
    intro isTopLevel log h
    rw [modelVerdict] at h
    split at h
    · cases h
    · next model modelLog hrun =>
      obtain rfl := Except.ok.inj h
      obtain rfl := Option.map_eq_none_iff.mp hmodel
      obtain ⟨b, hb, -, hreported⟩ := ClassModel.reported_of_none hrun
      exact ⟨_, List.mem_append_right _ hreported, by simp, b, Or.inr hb, rfl⟩
  rw [verdict] at h
  split at h
  · next log hplace =>
    obtain rfl := Except.ok.inj h
    exact blames_of_placement hplace
  · exact of_modelVerdict h
  · exact of_modelVerdict h

/-- The class that a name stands for among value classes that are taken in: the first that has the
name and is to be converted. -/
def firstOf? (options : Options) (es : List TypeElement) (name : String) : Option TypeElement :=
  es.find? fun e => e.isWanted options && e.qualifiedName == name

theorem firstOf?_append_of_some {options : Options} {es : List TypeElement} {name : String}
    {e : TypeElement} (h : firstOf? options es name = some e) (rest : List TypeElement) :
    firstOf? options (es ++ rest) name = some e := by
  rw [firstOf?] at h
  rw [firstOf?, List.find?_append, h, Option.some_or]

theorem firstOf?_append_self {options : Options} {es : List TypeElement} {e : TypeElement}
    (hwanted : e.isWanted options = true) (h : firstOf? options es e.qualifiedName = none) :
    firstOf? options (es ++ [e]) e.qualifiedName = some e := by
  rw [firstOf?] at h
  rw [firstOf?, List.find?_append, h, Option.none_or]
  simp [hwanted]

end TypeElement

/-! ### What a run can explain -/

namespace Registry

open TypeElement (firstOf?)

/-- What is skipped after some value classes is explained by the log, and what is registered records
the class around it. -/
structure Explains (r : Registry) (options : Options) (done : List TypeElement) (log : Log) :
    Prop where
  known : ∀ name, r.state? name = none → firstOf? options done name = none
  skipped : ∀ name, r.state? name = some .skipped →
    ∃ e, firstOf? options done name = some e ∧ log.Blames e
  /-- The class that is recorded as the one around a class is that of its declaration. -/
  parent : ∀ name model, r.classes.lookup name = some model →
    ∃ e, firstOf? options done name = some e ∧ model.parent = e.enclosing.map (·.qualifiedName)

namespace Explains

variable {options : Options} {done : List TypeElement} {r : Registry} {log : Log}

theorem start : Explains {} options [] [] where
  known := fun _ _ => rfl
  skipped := fun _ h => nomatch h
  parent := fun _ _ h => nomatch h

theorem pass (h : r.Explains options done log) {e : TypeElement}
    (hpass : e.isWanted options = false ∨ r.state? e.qualifiedName ≠ none) :
    r.Explains options (done ++ [e]) log where
  known := fun name hname => by
    have hdone := h.known name hname
    rw [firstOf?] at hdone
    rw [firstOf?, List.find?_append, hdone, Option.none_or]
    rcases hpass with hunwanted | hknown
    · simp [hunwanted]
    · have hne : (e.qualifiedName == name) = false := by
        refine beq_false_of_ne fun heq => hknown ?_
        rw [heq, hname]
      simp [hne]
  skipped := fun name hname => by
    obtain ⟨e', he', hblames⟩ := h.skipped name hname
    exact ⟨e', TypeElement.firstOf?_append_of_some he' [e], hblames⟩
  parent := fun name model hmodel => by
    obtain ⟨e', he', hparent⟩ := h.parent name model hmodel
    exact ⟨e', TypeElement.firstOf?_append_of_some he' [e], hparent⟩

theorem settle (h : r.Explains options done log) {e : TypeElement} {v : Verdict}
    (keeps : e.KeepsName) (hwanted : e.isWanted options = true)
    (hunknown : r.state? e.qualifiedName = none) (hverdict : e.verdict options = .ok v) :
    (r.settle e.qualifiedName v).Explains options (done ++ [e]) (log ++ v.log) := by
  have hfirst := TypeElement.firstOf?_append_self hwanted (h.known _ hunknown)
  refine ⟨fun name hname => ?_, fun name hname => ?_, fun name model hmodel => ?_⟩
  · rw [state?_settle] at hname
    split at hname
    · cases hname
    · next hne =>
      have hdone := h.known name hname
      rw [firstOf?] at hdone
      rw [firstOf?, List.find?_append, hdone, Option.none_or]
      simp [Ne.symm hne]
  · rw [state?_settle] at hname
    split at hname
    · next heq =>
      subst heq
      have hmodel : v.model = none := by
        cases hmodel : v.model with
        | none => rfl
        | some model => simp [stateOf, hmodel] at hname
      have hblames := TypeElement.blames_of_verdict hverdict hmodel
      exact ⟨e, hfirst, hblames.mono (List.subset_append_right _ _)⟩
    · obtain ⟨e', he', hblames⟩ := h.skipped name hname
      exact ⟨e', TypeElement.firstOf?_append_of_some he' [e],
        hblames.mono (List.subset_append_left _ _)⟩
  · rcases registered_settle_cases hmodel with hold | ⟨hnew, hname⟩
    · obtain ⟨e', he', hparent⟩ := h.parent name model hold
      exact ⟨e', TypeElement.firstOf?_append_of_some he' [e], hparent⟩
    · have hmodeled := (TypeElement.isModeledBy_of_verdict hverdict hnew).1
      obtain rfl : e.qualifiedName = name := (hmodeled.qualifiedName keeps).symm.trans hname
      exact ⟨e, hfirst, hmodeled.parent⟩

end Explains

/-! ### Draining -/

/-- What holds of the skipped classes, and of a class if it holds of the one recorded around it,
holds of all that is skipped when classes have been skipped in their order. -/
theorem skipAll_induction {Q : String → Prop} {entries : List (String × ClassModel)}
    {r r' : Registry} (h : r.skipAll entries = (.ok (), r'))
    (start : ∀ name, r.state? name = some .skipped → Q name)
    (next : ∀ name model parent, (name, model) ∈ entries → model.parent = some parent →
      Q parent → Q name) :
    ∀ name, r'.state? name = some .skipped → Q name := by
  induction entries generalizing r with
  | nil =>
    obtain rfl : r = r' := (Prod.mk.inj h).2
    exact start
  | cons entry rest ih =>
    obtain ⟨first, model⟩ := entry
    rw [skipAll] at h
    split at h
    · next hskipped =>
      obtain ⟨parent, hparent, hstate⟩ := Option.bind_eq_some_iff.mp hskipped
      split at h
      · cases h
      · next htransition =>
        obtain ⟨source, -, -, rfl⟩ := transition_ok_iff.mp htransition
        refine ih h (fun name hname => ?_) fun name model parent hmem =>
          next name model parent (List.mem_cons_of_mem _ hmem)
        rw [state?_withState] at hname
        split at hname
        · next heq =>
          subst heq
          exact next _ model parent List.mem_cons_self hparent (start parent hstate)
        · exact start name hname
    · cases h

theorem drain_induction {Q : String → Prop} {r r' : Registry} (h : r.drain = (.ok (), r'))
    (start : ∀ name, r.state? name = some .skipped → Q name)
    (next : ∀ name model parent, (name, model) ∈ r.classes → model.parent = some parent →
      Q parent → Q name) :
    ∀ name, r'.state? name = some .skipped → Q name := by
  rw [drain] at h
  split at h
  · next r₁ hskip =>
    obtain rfl := (Prod.mk.inj h).2
    exact fun name => skipAll_induction hskip start next name
  · cases h

end Registry

/-! ### The whole run -/

namespace Session

/-- The value class that a name stands for in a run. -/
def declaration? (options : Options) (rounds : List Round) (name : String) : Option TypeElement :=
  TypeElement.firstOf? options (rounds.flatMap Round.valueClasses) name

/-- The declaration of a name is recorded to be enclosed by another. -/
def IsEnclosedBy (options : Options) (rounds : List Round) (name outer : String) : Prop :=
  ∃ e, declaration? options rounds name = some e ∧ e.enclosing.map (·.qualifiedName) = some outer

/-- After a run, what was reported explains what is skipped. -/
theorem explains_of_processAll {options : Options} {rounds : List Round} {s : Session}
    (keeps : ∀ e ∈ rounds.flatMap Round.valueClasses, e.KeepsName)
    (h : (processAll rounds).runOn { options } = (.ok (), s)) :
    s.registry.Explains options (rounds.flatMap Round.valueClasses) s.log := by
  refine (run_induction (P := fun done r log => r.Explains options done log)
    Registry.Explains.start ?_ ?_ h).1
  · intro done e rest r log _ hexplains hpass
    exact hexplains.pass hpass
  · intro done e rest r log v hall hexplains _ hwanted hunknown hverdict
    refine hexplains.settle (keeps e ?_) hwanted hunknown hverdict
    rw [hall]
    exact List.mem_append_right _ List.mem_cons_self

/-- Generating takes nothing back that was reported. -/
theorem log_subset_of_generate {s g : Session} {files : List GeneratedFile}
    (h : generate.runOn s = (.ok files, g)) : s.log ⊆ g.log := by
  by_cases hempty : s.candidates = 0
  · rw [runOn_generate_of_no_candidates hempty] at h
    obtain rfl := (Prod.mk.inj h).2
    exact List.subset_append_left _ _
  · rcases generate_spec hempty with ⟨_, _, _, _, hrun, -⟩ | ⟨_, _, hrun, -⟩
    · rw [hrun] at h
      obtain rfl := (Prod.mk.inj h).2
      exact List.Subset.refl _
    · rw [hrun] at h
      cases h

/-- A way leads outward from the declaration, through skipped ones only, to a declaration that
something was reported of in the session. -/
def IsExplained (options : Options) (rounds : List Round) (g : Session) (name : String) : Prop :=
  ∃ (path : List String) (e : TypeElement), path.head? = some name ∧
    path.getLast? = some e.qualifiedName ∧ path.IsChain (IsEnclosedBy options rounds) ∧
    (∀ d ∈ path, g.registry.state? d = some .skipped) ∧
    declaration? options rounds e.qualifiedName = some e ∧ g.log.Blames e

theorem isExplained_of_blames {options : Options} {rounds : List Round} {g : Session} {name : String}
    {e : TypeElement} (hskipped : g.registry.state? name = some .skipped)
    (hdeclared : declaration? options rounds name = some e) (hblames : g.log.Blames e) :
    IsExplained options rounds g name := by
  obtain rfl : e.qualifiedName = name := by
    have hfound := List.find?_some hdeclared
    simp only [Bool.and_eq_true, beq_iff_eq] at hfound
    exact hfound.2
  refine ⟨[e.qualifiedName], e, rfl, rfl, List.IsChain.singleton _, fun d hd => ?_, hdeclared,
    hblames⟩
  rw [List.mem_singleton.mp hd]
  exact hskipped

theorem isExplained_of_enclosed {options : Options} {rounds : List Round} {g : Session}
    {name outer : String} (hskipped : g.registry.state? name = some .skipped)
    (henclosed : IsEnclosedBy options rounds name outer)
    (houter : IsExplained options rounds g outer) : IsExplained options rounds g name := by
  obtain ⟨path, e, hhead, hlast, hchain, hpath, hdeclared, hblames⟩ := houter
  cases path with
  | nil => cases hhead
  | cons d path =>
    obtain rfl : d = outer := Option.some.inj hhead
    refine ⟨name :: d :: path, e, rfl, hlast, hchain.cons_cons henclosed, fun d' hd' => ?_,
      hdeclared, hblames⟩
    rcases List.mem_cons.mp hd' with rfl | hd'
    · exact hskipped
    · exact hpath d' hd'

/-- Whatever a run leaves skipped is explained by what was reported. So a run that reports nothing
but notes composes every value class that it is to convert. -/
theorem skipped_for_a_reason {options : Options} {rounds : List Round} {s g : Session}
    {files : List GeneratedFile}
    (names : ∀ round ∈ rounds, ∀ e ∈ round.valueClasses,
      Text.beginsWith "." e.qualifiedName = false)
    (hprocess : (processAll rounds).runOn { options } = (.ok (), s))
    (hgenerate : generate.runOn s = (.ok files, g)) :
    (∀ name, g.registry.state? name = some .skipped → IsExplained options rounds g name) ∧
    ((∀ d ∈ g.log, d.severity = .note) → ∀ round ∈ rounds, ∀ e ∈ round.valueClasses,
      e.isWanted options = true → g.registry.state? e.qualifiedName = some .composed) := by
  have keeps : ∀ e ∈ rounds.flatMap Round.valueClasses, e.KeepsName := by
    intro e he
    obtain ⟨round, hround, he⟩ := List.mem_flatMap.mp he
    exact TypeElement.keepsName_of_not_beginsWith (names round hround e he)
  have hexplains := explains_of_processAll keeps hprocess
  obtain ⟨haccounts, henums, -, -⟩ := accounts_of_processAll keeps hprocess
  have hlog := log_subset_of_generate hgenerate
  have hreasons : ∀ name, g.registry.state? name = some .skipped →
      IsExplained options rounds g name := by
    obtain ⟨forest, r, hcomposes, hdrain, -, -⟩ := of_generate hprocess hgenerate
    have heffect := hcomposes.effect ⟨haccounts.classesNamed keeps, henums⟩
    have hordered : Ordered r.classes := by
      rw [heffect.classes]
      exact haccounts.ordered_classes.filter _
    obtain ⟨-, -, -, hstate⟩ := Registry.of_drain hdrain
    refine Registry.drain_induction hdrain (fun name hname => ?_) fun name model outer hmem houter => ?_
    · have hskipped : g.registry.state? name = some .skipped := by rw [hstate, hname, ite_self]
      have hbefore : s.registry.state? name = some .skipped := by
        rw [heffect.state?] at hname
        split at hname
        · cases hname
        · exact hname
      obtain ⟨e, hdeclared, hblames⟩ := hexplains.skipped name hbefore
      exact isExplained_of_blames hskipped hdeclared (hblames.mono hlog)
    · have hskipped : g.registry.state? name = some .skipped := by
        rw [hstate, if_pos (List.mem_map_of_mem (f := (·.1)) hmem)]
      have hmodel := (heffect.class_kept ((hordered.lookup_eq_some_iff name model).mpr hmem)).2
      obtain ⟨e, hdeclared, hparent⟩ := hexplains.parent name model hmodel
      exact isExplained_of_enclosed hskipped ⟨e, hdeclared, hparent ▸ houter⟩
  refine ⟨hreasons, fun hnotes round hround e he hwanted => ?_⟩
  have hmem : e ∈ rounds.flatMap Round.valueClasses := List.mem_flatMap.mpr ⟨round, hround, he⟩
  obtain ⟨-, -, -, hstates, hknown⟩ := after_generate keeps hprocess hgenerate
  have hfound : g.registry.state? e.qualifiedName ≠ none := by
    rw [Ne, hknown]
    exact (haccounts.known _).mpr ⟨e, hmem, hwanted, rfl⟩
  obtain ⟨state, hstate⟩ := Option.ne_none_iff_exists'.mp hfound
  rcases hstates _ _ hstate with rfl | rfl
  · exact hstate
  · obtain ⟨-, -, -, -, -, -, -, d, hd, hsevere, -⟩ := hreasons _ hstate
    exact absurd (hnotes d hd) hsevere

/-- A class that is left over is skipped without a report of its own; the class around it, which is
nested in a type that is no value class, has one. -/
theorem leftover_is_explained :
    (∀ round ∈ [Round.mixed], ∀ e ∈ round.valueClasses,
      Text.beginsWith "." e.qualifiedName = false) ∧
    ∃ s files g, (processAll [Round.mixed]).runOn { options := { srcDir := "out" } } = (.ok (), s) ∧
      generate.runOn s = (.ok files, g) ∧
      g.registry.state? "test.P.Q.R" = some .skipped ∧
      IsExplained { srcDir := "out" } [Round.mixed] g "test.P.Q.R" := by
  have hnames : ∀ round ∈ [Round.mixed], ∀ e ∈ round.valueClasses,
      Text.beginsWith "." e.qualifiedName = false := by decide +kernel
  have hprocess := runOn_processAll
    (show ((processAll [Round.mixed]).runOn { options := { srcDir := "out" } }).1 = .ok () by
      decide +kernel)
  obtain ⟨files, g, hgenerate, -⟩ := runOn_generate_ok
    (show (generateBounded.runOn (after { srcDir := "out" } [Round.mixed])).1.map
      (·.map (·.qualifiedName)) = .ok ["test.A"] by decide +kernel)
  have hskipped : (generate.runOn (after { srcDir := "out" } [Round.mixed])).2.registry.state?
      "test.P.Q.R" = some .skipped := by
    rw [generate_eq_bounded]
    decide +kernel
  rw [hgenerate] at hskipped
  exact ⟨hnames, _, files, g, hprocess, hgenerate, hskipped,
    (skipped_for_a_reason hnames hprocess hgenerate).1 _ hskipped⟩

end Session

end DataClassGen
