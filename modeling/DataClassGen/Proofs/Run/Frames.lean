import DataClassGen.Proofs.Run.States

/-!
# What a step looks at

Every step of a run looks only at the names that it is about. Taking a value class in looks at the
class, at the enums in it and at nothing else; composing looks at the children that are listed, and
at theirs. So where two registries agree on these names, a step that succeeds on the one succeeds on
the other, both still agree on these names, and under all other names nothing changes
(`accept_frame`, `Composes.frame`).

The names that a step is about are given as a predicate `S`, and the others as its complement.
-/

namespace DataClassGen

namespace Registry

variable {S : String → Bool} {r r' r'' u : Registry}

/-- The registries have the same under the names in `S`. -/
structure AgreeOn (S : String → Bool) (r r' : Registry) : Prop where
  classes : ∀ name, S name = true → r.classes.lookup name = r'.classes.lookup name
  enums : ∀ name, S name = true → r.enums.lookup name = r'.enums.lookup name
  states : ∀ name, S name = true → r.state? name = r'.state? name

/-- The registries have the same under all names but those in `S`. -/
abbrev AgreeOff (S : String → Bool) (r r' : Registry) : Prop := AgreeOn (fun name => !S name) r r'

namespace AgreeOn

theorem refl (S : String → Bool) (r : Registry) : AgreeOn S r r :=
  ⟨fun _ _ => rfl, fun _ _ => rfl, fun _ _ => rfl⟩

theorem symm (h : AgreeOn S r r') : AgreeOn S r' r :=
  ⟨fun name hname => (h.classes name hname).symm, fun name hname => (h.enums name hname).symm,
    fun name hname => (h.states name hname).symm⟩

theorem trans (h : AgreeOn S r r') (h' : AgreeOn S r' r'') : AgreeOn S r r'' :=
  ⟨fun name hname => (h.classes name hname).trans (h'.classes name hname),
    fun name hname => (h.enums name hname).trans (h'.enums name hname),
    fun name hname => (h.states name hname).trans (h'.states name hname)⟩

/-! ### Steps on registries that agree -/

theorem withState (h : AgreeOn S r r') (name : String) (state : Lifecycle) :
    AgreeOn S (r.withState name state) (r'.withState name state) where
  classes := h.classes
  enums := h.enums
  states := fun other hother => by
    rw [state?_withState, state?_withState, h.states other hother]

theorem withoutClass (h : AgreeOn S r r') (name : String) :
    AgreeOn S (r.withoutClass name) (r'.withoutClass name) where
  classes := fun other hother => by
    by_cases hname : other = name
    · subst hname
      exact (lookup_eraseKey_self _ _).trans (lookup_eraseKey_self _ _).symm
    · simp only [Registry.withoutClass, lookup_eraseKey_of_ne hname, h.classes other hother]
  enums := h.enums
  states := h.states

theorem withoutEnum (h : AgreeOn S r r') (name : String) :
    AgreeOn S (r.withoutEnum name) (r'.withoutEnum name) where
  classes := h.classes
  enums := fun other hother => by
    by_cases hname : other = name
    · subst hname
      exact (lookup_eraseKey_self _ _).trans (lookup_eraseKey_self _ _).symm
    · simp only [Registry.withoutEnum, lookup_eraseKey_of_ne hname, h.enums other hother]
  states := h.states

theorem transition (h : AgreeOn S r r') {name : String} (hname : S name = true)
    {target : Lifecycle} {r₁ : Registry} (hstep : r.transition name target = .ok r₁) :
    r'.transition name target = .ok (r'.withState name target) ∧
      AgreeOn S r₁ (r'.withState name target) := by
  obtain ⟨source, hsource, hallows, rfl⟩ := transition_ok_iff.mp hstep
  rw [h.states name hname] at hsource
  exact ⟨transition_of_allows hsource hallows, h.withState name target⟩

/-! ### Steps elsewhere -/

theorem withState_off {name : String} (hname : S name = true) (r : Registry) (state : Lifecycle) :
    AgreeOff S r (r.withState name state) where
  classes := fun _ _ => rfl
  enums := fun _ _ => rfl
  states := fun other hother => by
    have hne : other ≠ name := fun heq => by simp [heq, hname] at hother
    rw [state?_withState, if_neg hne]

theorem withoutClass_off {name : String} (hname : S name = true) (r : Registry) :
    AgreeOff S r (r.withoutClass name) where
  classes := fun other hother => by
    have hne : other ≠ name := fun heq => by simp [heq, hname] at hother
    exact (lookup_eraseKey_of_ne hne _).symm
  enums := fun _ _ => rfl
  states := fun _ _ => rfl

theorem withoutEnum_off {name : String} (hname : S name = true) (r : Registry) :
    AgreeOff S r (r.withoutEnum name) where
  classes := fun _ _ => rfl
  enums := fun other hother => by
    have hne : other ≠ name := fun heq => by simp [heq, hname] at hother
    exact (lookup_eraseKey_of_ne hne _).symm
  states := fun _ _ => rfl

end AgreeOn

/-! ### Verdicts -/

theorem AgreeOn.settle (h : AgreeOn S r r') (name : String) (v : Verdict) :
    AgreeOn S (r.settle name v) (r'.settle name v) where
  classes := fun other hother => by
    rw [lookup_classes_settle, lookup_classes_settle, h.classes other hother]
  enums := fun other hother => by
    rw [lookup_enums_settle, lookup_enums_settle, h.enums other hother]
  states := fun other hother => by rw [state?_settle, state?_settle, h.states other hother]

/-- A verdict changes only what is under the name of the class, of its model and of its enums. -/
theorem AgreeOn.settle_off {name : String} {v : Verdict} (hname : S name = true)
    (hmodel : ∀ model, v.model = some model → S model.qualifiedName = true)
    (henums : ∀ enum ∈ v.enums, S enum.qualifiedName = true) (r : Registry) :
    AgreeOff S r (r.settle name v) where
  classes := fun other hother => by
    have hfilter : v.model.filter (·.qualifiedName == other) = none := by
      cases hv : v.model with
      | none => rfl
      | some model =>
        refine Option.filter_eq_none_iff.mpr fun model' hmodel' heq => ?_
        obtain rfl := Option.some.inj hmodel'
        rw [beq_iff_eq] at heq
        simp [← heq, hmodel model hv] at hother
    rw [lookup_classes_settle, hfilter, Option.or_none]
  enums := fun other hother => by
    have hfind : v.enums.find? (·.qualifiedName == other) = none := by
      refine List.find?_eq_none.mpr fun enum henum heq => ?_
      rw [beq_iff_eq] at heq
      simp [← heq, henums enum henum] at hother
    rw [lookup_enums_settle, hfind, Option.or_none]
  states := fun other hother => by
    have hne : other ≠ name := fun heq => by simp [heq, hname] at hother
    rw [state?_settle, if_neg hne]

end Registry

/-! ### Taking value classes in -/

/-- The class and the types in it have names in `S`, and keep them. -/
structure TypeElement.StaysIn (S : String → Bool) (e : TypeElement) : Prop where
  name : S e.qualifiedName = true
  keeps : e.KeepsName
  nested : ∀ u ∈ e.nestedTypes, S u.qualifiedName = true
  keeps_nested : ∀ u ∈ e.nestedTypes, u.KeepsName

theorem TypeElement.StaysIn.settle_off {S : String → Bool} {options : Options} {e : TypeElement}
    {v : Verdict} (h : e.StaysIn S) (hverdict : e.verdict options = .ok v) (r : Registry) :
    r.AgreeOff S (r.settle e.qualifiedName v) := by
  refine Registry.AgreeOn.settle_off h.name (fun model hmodel => ?_) (fun enum henum => ?_) r
  · rw [(isModeledBy_of_verdict hverdict hmodel).1.qualifiedName h.keeps]
    exact h.name
  · have hmem := enums_of_verdict hverdict enum henum
    obtain ⟨u, hu, -, -, hname⟩ := exists_nested_of_mem_enumModels h.keeps_nested hmem
    rw [hname]
    exact h.nested u hu

namespace Session

/-- The sessions have the same options, and the same registered under the names in `S`. -/
structure MatchOn (S : String → Bool) (s t : Session) : Prop where
  options : t.options = s.options
  agree : s.registry.AgreeOn S t.registry
  named : s.registry.EnumsNamed
  named' : t.registry.EnumsNamed

variable {S : String → Bool}

/-- A class that one session takes in, the other takes in as well. -/
theorem accept_frame {e : TypeElement} {s s' t : Session} (stays : e.StaysIn S)
    (hmatch : MatchOn S s t) (h : (accept e).runOn s = (.ok (), s')) :
    ∃ t', (accept e).runOn t = (.ok (), t') ∧ MatchOn S s' t' ∧
      t.registry.AgreeOff S t'.registry := by
  have hstate := hmatch.agree.states _ stays.name
  rw [accept_ok_iff hmatch.named] at h
  split at h
  · next hnew =>
    obtain ⟨v, hv, rfl⟩ := h
    refine ⟨t.settling e.qualifiedName v, ?_, ?_, stays.settle_off hv t.registry⟩
    · rw [accept_ok_iff hmatch.named', hmatch.options, ← hstate, if_pos hnew]
      exact ⟨v, hv, rfl⟩
    · exact ⟨hmatch.options, hmatch.agree.settle e.qualifiedName v,
        hmatch.named.settle e.qualifiedName v, hmatch.named'.settle e.qualifiedName v⟩
  · next hold =>
    subst h
    refine ⟨t.counting, ?_, ⟨hmatch.options, hmatch.agree, hmatch.named, hmatch.named'⟩,
      Registry.AgreeOn.refl _ _⟩
    rw [accept_ok_iff hmatch.named', hmatch.options, ← hstate, if_neg hold]

/-- Classes that one session takes in, the other takes in as well. -/
theorem forM_accept_frame {es : List TypeElement} {s s' t : Session}
    (stays : ∀ e ∈ es, e.StaysIn S) (hmatch : MatchOn S s t)
    (h : (es.forM accept).runOn s = (.ok (), s')) :
    ∃ t', (es.forM accept).runOn t = (.ok (), t') ∧ MatchOn S s' t' ∧
      t.registry.AgreeOff S t'.registry := by
  induction es generalizing s t with
  | nil =>
    obtain rfl : s = s' := by simpa [List.forM] using h
    exact ⟨t, rfl, hmatch, Registry.AgreeOn.refl _ _⟩
  | cons e es ih =>
    obtain ⟨_, s₁, he, hes⟩ := Step.runOn_bind_ok.mp h
    obtain ⟨t₁, ht₁, hmatch₁, hoff₁⟩ := accept_frame (stays e List.mem_cons_self) hmatch he
    obtain ⟨t', ht', hmatch', hoff'⟩ :=
      ih (fun e' he' => stays e' (List.mem_cons_of_mem _ he')) hmatch₁ hes
    exact ⟨t', Step.runOn_bind_ok.mpr ⟨(), t₁, ht₁, ht'⟩, hmatch', hoff₁.trans hoff'⟩

end Session

/-! ### Composing -/

namespace Registry

variable {S : String → Bool} {r r' u : Registry}

/-- The classes that are registered list only children with names in `S`. -/
def ListsWithin (S : String → Bool) (r : Registry) : Prop :=
  ∀ name model, r.classes.lookup name = some model → ∀ child ∈ model.children, S child = true

theorem Effect.listsWithin {ps : List Place} (h : Effect r ps r') (hlists : r.ListsWithin S) :
    r'.ListsWithin S := fun name model hmodel => hlists name model (h.class_kept hmodel).2

/-- The registered classes with names in `S` list only children with names in `S`. -/
def ListsClosed (S : String → Bool) (r : Registry) : Prop :=
  ∀ name model, S name = true → r.classes.lookup name = some model →
    ∀ child ∈ model.children, S child = true

theorem ListsWithin.closed (h : r.ListsWithin S) : r.ListsClosed S :=
  fun name model _ hmodel => h name model hmodel

theorem Effect.listsClosed {ps : List Place} (h : Effect r ps r') (closed : r.ListsClosed S) :
    r'.ListsClosed S := fun name model hname hmodel =>
  closed name model hname (h.class_kept hmodel).2

theorem ListsClosed.withoutClass (h : r.ListsClosed S) (name : String) :
    (r.withoutClass name).ListsClosed S := fun other model hother hmodel =>
  h other model hother (lookup_of_eraseKey hmodel)

theorem AgreeOn.mustBeClass (h : AgreeOn S r u) {child : String} (hchild : S child = true)
    {outer : Option String} (must : r.MustBeClass outer child) : u.MustBeClass outer child := by
  intro houter
  rw [← h.enums child hchild, ← h.states child hchild]
  exact must houter

/-- What one registry composes to, one that agrees with it composes to as well. -/
theorem Composes.frame {outer : Option String} {children : List String} {outlines : List Outline}
    (h : Composes outer r children outlines r') (hnamed : r.Named) (closed : r.ListsClosed S)
    (hchildren : ∀ child ∈ children, S child = true) (hagree : AgreeOn S r u) :
    ∃ u', Composes outer u children outlines u' ∧ AgreeOn S r' u' ∧ AgreeOff S u u' := by
  induction h generalizing u with
  | done outer r => exact ⟨u, .done outer u, hagree, AgreeOn.refl _ _⟩
  | @enum outer r r' child rest model outlines found after ih =>
    obtain rfl : model.qualifiedName = child := hnamed.enums _ _ found
    have hchild := hchildren _ List.mem_cons_self
    have here : Effect r [⟨some outer, true, model.qualifiedName⟩] (r.withoutEnum _) :=
      Effect.enum (some outer) found
    obtain ⟨u', hcomposes, hagree', hoff⟩ :=
      ih (here.named hnamed) (here.listsClosed closed)
        (fun c hc => hchildren c (List.mem_cons_of_mem _ hc)) (hagree.withoutEnum _)
    exact ⟨u', .enum (hagree.enums _ hchild ▸ found) hcomposes, hagree',
      (AgreeOn.withoutEnum_off hchild u).trans hoff⟩
  | skipped noEnum isSkipped after ih =>
    have hchild := hchildren _ List.mem_cons_self
    obtain ⟨u', hcomposes, hagree', hoff⟩ :=
      ih hnamed closed (fun c hc => hchildren c (List.mem_cons_of_mem _ hc)) hagree
    exact ⟨u', .skipped (hagree.enums _ hchild ▸ noEnum) (hagree.states _ hchild ▸ isSkipped)
      hcomposes, hagree', hoff⟩
  | @cls outer r r₁ r₂ r' child rest model inner outlines must found inside entered after ihInside ihAfter =>
    obtain rfl : model.qualifiedName = child := hnamed.classes _ _ found
    have hchild := hchildren _ List.mem_cons_self
    have here := Effect.cls outer found (inside.effect (hnamed.withoutClass _)) entered
    obtain ⟨u₁, hinside, hagree₁, hoff₁⟩ :=
      ihInside (hnamed.withoutClass _) (closed.withoutClass _) (closed _ _ hchild found)
        (hagree.withoutClass _)
    obtain ⟨hentered, hagree₂⟩ := hagree₁.transition hchild entered
    obtain ⟨u', hafter, hagree', hoff'⟩ :=
      ihAfter (here.named hnamed) (here.listsClosed closed)
        (fun c hc => hchildren c (List.mem_cons_of_mem _ hc)) hagree₂
    have hoff : AgreeOff S u (u₁.withState model.qualifiedName .composed) :=
      ((AgreeOn.withoutClass_off hchild u).trans hoff₁).trans
        (AgreeOn.withState_off hchild u₁ .composed)
    exact ⟨u', .cls (hagree.mustBeClass hchild must) (hagree.classes _ hchild ▸ found) hinside
      hentered hafter, hagree', hoff.trans hoff'⟩

/-- Composing children with names in `S` changes nothing under other names. -/
theorem Composes.agreeOff {outer : Option String} {children : List String} {outlines : List Outline}
    (h : Composes outer r children outlines r') (hnamed : r.Named) (closed : r.ListsClosed S)
    (hchildren : ∀ child ∈ children, S child = true) : AgreeOff S r r' := by
  induction h with
  | done outer r => exact AgreeOn.refl _ _
  | @enum outer r r' child rest model outlines found after ih =>
    obtain rfl : model.qualifiedName = child := hnamed.enums _ _ found
    have here : Effect r [⟨some outer, true, model.qualifiedName⟩] (r.withoutEnum _) :=
      Effect.enum (some outer) found
    exact (AgreeOn.withoutEnum_off (hchildren _ List.mem_cons_self) r).trans
      (ih (here.named hnamed) (here.listsClosed closed)
        fun c hc => hchildren c (List.mem_cons_of_mem _ hc))
  | skipped noEnum isSkipped after ih =>
    exact ih hnamed closed fun c hc => hchildren c (List.mem_cons_of_mem _ hc)
  | @cls outer r r₁ r₂ r' child rest model inner outlines must found inside entered after ihInside ihAfter =>
    obtain rfl : model.qualifiedName = child := hnamed.classes _ _ found
    have hchild := hchildren _ List.mem_cons_self
    have here := Effect.cls outer found (inside.effect (hnamed.withoutClass _)) entered
    obtain ⟨source, -, -, rfl⟩ := transition_ok_iff.mp entered
    exact (((AgreeOn.withoutClass_off hchild r).trans
      (ihInside (hnamed.withoutClass _) (closed.withoutClass _) (closed _ _ hchild found))).trans
        (AgreeOn.withState_off hchild r₁ .composed)).trans
          (ihAfter (here.named hnamed) (here.listsClosed closed)
            fun c hc => hchildren c (List.mem_cons_of_mem _ hc))

end Registry

end DataClassGen
