import DataClassGen.Proofs.Meaning.Changes
import DataClassGen.Proofs.Meaning.Guards

/-!
# A property is set or built

A property that can be set and that has a builder of its own goes one of the two ways: over any calls,
whatever they give, once the one was taken the other fails (`setters_and_builder_exclude`). The calls
are those of a new builder, which may have any value for the property. What holds of the fields after
them is kept by each call (`Describes.step`).

What can go wrong is again in the setter, whose parameters are named as in the method it comes from:
where one is named as the field that keeps the builder, the setter looks at the parameter, and null
gets past the check (`Slips`).
-/

namespace DataClassGen.Meaning

open Source

/-! ### New builders -/

section New

variable {α : Type} {b : BuilderModel} {set : PropertySet} {p : BuilderProperty} {s : SubBuilder}
  {decl : TypeDecl} {valueClass : ClassName} {args fields : List (String × Value α)}

/-- A new builder has some value for each property, and none was set or built. -/
theorem holds_new (hb : b.IsFor set) (hnames : ∀ p ∈ b.properties, p.name ∉ generatedNames b)
    (hdecl : b.toDeclaration valueClass = .ok decl) (hp : p ∈ b.properties)
    (hs : p.guarded? = some s) (hfields : fieldsOf? decl args = some fields) (cls : ClassName) :
    ∃ v, Holds p s ⟨v, .null, false⟩ ⟨cls, fields⟩ := by
  obtain ⟨zeros, hzeros, -, -, ⟨modifiers, hconstructor⟩, hothers, -⟩ :=
    BuilderModel.toDeclaration_spec hdecl
  obtain ⟨given, others, rfl, hgiven, hmapM⟩ := fieldsOf?_spec hconstructor hfields
  rw [hothers] at hmapM
  obtain rfl := Option.some.inj ((firstValues b).symm.trans hmapM)
  have hkeys : given.map Prod.fst = b.properties.map (·.name) := by
    rw [hgiven, ← hzeros, List.map_map, List.map_map]
    rfl
  have hgenerated {n : String} (hn : n ∈ generatedNames b) := lookup_given_eq_none hnames hkeys hn
  obtain ⟨⟨n, w⟩, hentry, rfl⟩ : ∃ entry ∈ given, entry.1 = p.name := by
    have hmem : p.name ∈ given.map Prod.fst := hkeys ▸ List.mem_map_of_mem hp
    exact List.mem_map.mp hmem
  obtain ⟨v, hv⟩ := Option.isSome_iff_exists.mp (isSome_lookup_of_mem hentry)
  have hsub := subBuilder_of_guarded hs
  refine ⟨v, ?_, ?_, ?_⟩
  · rw [List.lookup_append, hv]
    rfl
  · rw [List.lookup_append, hgenerated (fieldName_mem hp hsub), Option.none_or]
    exact lookup_firstValues_field hb hp hsub
  · rw [List.lookup_append, hgenerated (flagName_mem hp hs), Option.none_or]
    exact lookup_firstValues_flag hb hp hs

end New

/-! ### Sequences of calls -/

section Calls

variable {α : Type} {E : Surroundings α} {p : BuilderProperty} {s : SubBuilder} {k : Nat}
  {h : Holding α} {o : Object α} {heap₀ heap heap' : Heap α} {v₀ u w : Value α}

/-- A call that has to do with a property: of one of its setters, or of the access to its builder. -/
inductive Call (α : Type) where
  | set (f : Function) (args : List (Value α))
  | access

namespace Call

/-- The function that is called. -/
def function (p : BuilderProperty) (s : SubBuilder) : Call α → Function
  | .set f _ => p.setterFunction f
  | .access => p.subBuilderFunction s

/-- What it is called with. -/
def args : Call α → List (Value α)
  | .set _ args => args
  | .access => []

/-- The functions are those of the property. -/
def IsOf (p : BuilderProperty) : Call α → Prop
  | .set f _ => f ∈ p.setters
  | .access => True

/-- The run of the call on the builder at `k`. -/
def run (c : Call α) (E : Surroundings α) (k : Nat) (p : BuilderProperty) (s : SubBuilder) :
    Run α (Value α) := E.call k (c.function p s) c.args

end Call

/-- A call whose arguments fit gives something or stops somewhere. -/
theorem Call.gives_or_stopsIn (hg : IsGuarded p s) (E : Surroundings α) (k : Nat) {c : Call α}
    (hc : c.IsOf p) (hfits : (bind? (c.function p s).parameters c.args).isSome = true)
    (heap : Heap α) : (∃ u heap', Gives (c.run E k p s) heap u heap') ∨
      ∃ heap', E.StopsIn k (c.function p s) c.args heap heap' := by
  obtain ⟨locals, hbind⟩ := Option.isSome_iff_exists.mp hfits
  cases c with
  | set f args =>
    obtain ⟨e, he⟩ : ∃ e, settingStep p f = .giveBack e := by
      rw [settingStep]
      cases f.parameters.head? <;> exact ⟨_, rfl⟩
    have hsteps : stepsOf? (p.setterFunction f) =
        some ([checkBuilder p s, noteSetting p] ++ [.giveBack e]) := he ▸ stepsOf?_setter hg hc
    exact Surroundings.gives_or_stopsIn hbind hsteps heap
  | access =>
    have hsteps : stepsOf? (p.subBuilderFunction s) =
        some ([checkSetting p s] ++ [.giveBack (subBuilderExpr s p.name)]) := stepsOf?_access hg
    exact Surroundings.gives_or_stopsIn hbind hsteps heap

/-- Calls of a builder that stands at `k`, the last one first, with what they gave, and the objects
afterwards. The other classes may do something else each time, and between the calls anything may
happen to other objects. Every call whose arguments fit is one of these (`Call.gives_or_stopsIn`). -/
inductive Trace (p : BuilderProperty) (s : SubBuilder) (k : Nat) (heap₀ : Heap α) :
    List (Call α × Option (Value α)) → Heap α → Prop where
  | start : Trace p s k heap₀ [] heap₀
  | gave {E : Surroundings α} {c u calls heap heap'} : Trace p s k heap₀ calls heap →
      E.Respects k → c.IsOf p → Gives (c.run E k p s) heap u heap' →
      Trace p s k heap₀ ((c, some u) :: calls) heap'
  | failed {E : Surroundings α} {c calls heap heap'} : Trace p s k heap₀ calls heap →
      c.IsOf p → E.StopsIn k (c.function p s) c.args heap heap' →
      Trace p s k heap₀ ((c, none) :: calls) heap'
  | elsewhere {calls heap heap'} : Trace p s k heap₀ calls heap → heap'[k]? = heap[k]? →
      Trace p s k heap₀ calls heap'

/-- The value that a property was last set to, if it was `v₀` at first. -/
def lastAssigned (v₀ : Value α) : List (Call α × Option (Value α)) → Value α
  | [] => v₀
  | (.set f args, some _) :: calls => (assigned? f args).getD (lastAssigned v₀ calls)
  | _ :: calls => lastAssigned v₀ calls

/-- What a builder holds after calls. -/
structure Describes (v₀ : Value α) (calls : List (Call α × Option (Value α))) (h : Holding α) :
    Prop where
  isSet : h.isSet = true ↔ ∃ f args u, (.set f args, some u) ∈ calls
  cached : ∀ w, (.access, some w) ∈ calls ↔ w ≠ .null ∧ w = h.cached
  value : h.cached = .null → h.value = lastAssigned v₀ calls

variable {calls : List (Call α × Option (Value α))}

theorem describes_start (v₀ : Value α) : Describes v₀ [] ⟨v₀, .null, false⟩ where
  isSet := by simp
  cached w := by simp
  value _ := rfl

theorem Describes.set (hd : Describes v₀ calls h) (f : Function) (args : List (Value α))
    (u : Value α) : Describes v₀ ((.set f args, some u) :: calls)
      ⟨(assigned? f args).getD h.value, h.cached, true⟩ where
  isSet := iff_of_true rfl ⟨f, args, u, List.mem_cons_self⟩
  cached w := by simpa using hd.cached w
  value hcached := by rw [lastAssigned, hd.value hcached]

theorem Describes.access_again (hd : Describes v₀ calls h) (hcached : h.cached ≠ .null) :
    Describes v₀ ((.access, some h.cached) :: calls) h where
  isSet := by simpa using hd.isSet
  cached w := by
    rw [List.mem_cons, hd.cached w]
    simp only [Prod.mk.injEq, Option.some.injEq, true_and]
    exact ⟨fun hw => hw.elim (fun heq => ⟨heq ▸ hcached, heq⟩) id, fun hw => Or.inl hw.2⟩
  value hnull := absurd hnull hcached

theorem Describes.access_new (hd : Describes v₀ calls h) (hcached : h.cached = .null)
    (hw : w ≠ .null) : Describes v₀ ((.access, some w) :: calls) ⟨.null, w, h.isSet⟩ where
  isSet := by simpa using hd.isSet
  cached u := by
    rw [List.mem_cons, hd.cached u, hcached]
    simp only [Prod.mk.injEq, Option.some.injEq, true_and]
    exact ⟨fun hu => hu.elim (fun heq => ⟨heq ▸ hw, heq⟩) fun hu => absurd hu.2 hu.1,
      fun hu => Or.inl hu.2⟩
  value hnull := absurd hnull hw

theorem Describes.failed (hd : Describes v₀ calls h) (c : Call α) :
    Describes v₀ ((c, none) :: calls) h where
  isSet := by simpa using hd.isSet
  cached w := by simpa using hd.cached w
  value hcached := by
    rw [hd.value hcached]
    cases c <;> rfl

/-- A call that gives something. -/
theorem Describes.step (hE : E.Respects k) (hg : IsGuarded p s) (hk : heap[k]? = some o)
    (ho : Holds p s h o) (hd : Describes v₀ calls h) {c : Call α} (hc : c.IsOf p)
    (hgives : Gives (c.run E k p s) heap u heap') :
    ∃ h' o', heap'[k]? = some o' ∧ Holds p s h' o' ∧ Describes v₀ ((c, some u) :: calls) h' := by
  have hlt := (List.getElem?_eq_some_iff.mp hk).1
  cases c with
  | set f args =>
    obtain ⟨locals, -, -, -, -, rfl⟩ := (gives_setter_iff hg hc hk ho).mp hgives
    exact ⟨_, _, List.getElem?_set_self hlt, ho.setting hg _, hd.set f args u⟩
  | access =>
    obtain ⟨-, ⟨hcached, rfl, rfl⟩ | ⟨hcached, -, heap₁, hw, rfl⟩⟩ :=
      (gives_access_iff hE hg hk ho).mp hgives
    · exact ⟨h, o, hk, ho, hd.access_again hcached⟩
    · obtain ⟨hne, hkept⟩ := hw.spec hE hlt
      have hlt₁ := (List.getElem?_eq_some_iff.mp (hkept.trans hk)).1
      exact ⟨_, _, List.getElem?_set_self hlt₁, ho.building hg u, hd.access_new hcached hne⟩

/-- What a new builder holds after any calls. -/
theorem Trace.describes (hg : IsGuarded p s) (ht : Trace p s k heap₀ calls heap)
    (hk : heap₀[k]? = some o) (ho : Holds p s ⟨v₀, .null, false⟩ o) :
    ∃ h o, heap[k]? = some o ∧ Holds p s h o ∧ Describes v₀ calls h := by
  induction ht with
  | start => exact ⟨_, o, hk, ho, describes_start v₀⟩
  | gave _ hE hc hgives ih =>
    obtain ⟨h, o, hk, ho, hd⟩ := ih
    exact hd.step hE hg hk ho hc hgives
  | @failed E c _ _ _ _ hc hstops ih =>
    obtain ⟨h, o, hk, ho, hd⟩ := ih
    refine ⟨h, o, ?_, ho, hd.failed c⟩
    cases c with
    | set f args => exact (kept_of_setter_stopsIn hg hc hk ho hstops).trans hk
    | access => exact (kept_of_access_stopsIn hg hk ho hstops).trans hk
  | elsewhere _ hkept ih =>
    obtain ⟨h, o, hk, ho, hd⟩ := ih
    exact ⟨h, o, hkept.trans hk, ho, hd⟩

end Calls

/-! ### The value that is built -/

section Finish

variable {α : Type} {E : Surroundings α} {b : BuilderModel} {set : PropertySet}
  {p : BuilderProperty} {s : SubBuilder} {decl : TypeDecl} {valueClass : ClassName} {k : Nat}
  {h : Holding α} {o : Object α} {heap : Heap α}

/-- The method that finishes a value passes this on for the property. -/
def Finishes (b : BuilderModel) (valueClass : ClassName) (decl : TypeDecl) (property : String)
    (e : Expr) : Prop :=
  ∃ f ∈ decl.functions, f.name = b.finalizeMethod.name ∧ ∃ args,
    stepsOf? f = some [.giveBack (.value (.make (.ofClass valueClass) args) [])] ∧
    .mk (some property) e ∈ args

/-- What the builder of a property built, or else the value of the property. -/
def finalExpr (p : BuilderProperty) (s : SubBuilder) (zero : Option Code) : Expr :=
  .orElse (.name s.fieldName) [.send true "build" []]
    (if zero.isNone && !p.type.isNullable then
      .orElse (.name p.name) [] (.value (.fail (.value (.text (p.name ++ " == null")) [])) [])
    else named p.name)

theorem exists_finishes (hb : b.IsFor set) (hdecl : b.toDeclaration valueClass = .ok decl)
    (hp : p ∈ b.properties) (hs : p.subBuilder = some s) :
    ∃ zero, Finishes b valueClass decl p.name (finalExpr p s zero) := by
  obtain ⟨zeros, hzeros, -, -, -, -, hfunctions⟩ := BuilderModel.toDeclaration_spec hdecl
  rw [← hzeros] at hp
  obtain ⟨⟨p, zero⟩, hmem, rfl⟩ := List.mem_map.mp hp
  have hargument : builtArgument p zero = .mk (some p.name) (finalExpr p s zero) := by
    rw [builtArgument, finalExpr, show p.subBuilder = some s from hs]
  have hfunction : b.finalizeFunction valueClass (zeros.map fun p => p.1.argument p.2) ∈
      decl.functions := by
    rw [hfunctions]
    simp
  refine ⟨zero, _, hfunction, rfl, _, stepsOf?_finalizeFunction hb zeros, ?_⟩
  exact hargument ▸ List.mem_map_of_mem hmem

/-- The builder of the property is used if there is one. -/
theorem eval_finalExpr_built (hE : E.Respects k) (hk : heap[k]? = some o) (ho : Holds p s h o)
    (hcached : h.cached ≠ .null) (zero : Option Code) :
    Expr.eval E.program E.send ⟨.object k, []⟩ (finalExpr p s zero) heap =
      E.send h.cached "build" [] heap := by
  have hfind : Gives (Scope.find ⟨.object k, []⟩ s.fieldName) heap h.cached heap :=
    gives_ownField rfl rfl hk ho.cached
  rw [finalExpr, Expr.eval, Head.eval, hfind.bind_eq, evalAll_send hcached]
  refine bind_eq_self fun u heap' hu => ?_
  rw [if_neg fun hnull => hE.present _ _ _ _ _ (by decide) hu (Value.isNull_iff.mp hnull)]
  exact gives_pure

/-- Otherwise the value of the property is used, which must be there unless it may be null. -/
theorem eval_finalExpr_unbuilt (hk : heap[k]? = some o) (ho : Holds p s h o)
    (hcached : h.cached = .null) (zero : Option Code) :
    Gives (Expr.eval E.program E.send ⟨.object k, []⟩ (finalExpr p s zero)) heap h.value heap ∨
      h.value = .null ∧ p.type.isNullable = false ∧
        Expr.eval E.program E.send ⟨.object k, []⟩ (finalExpr p s zero) heap =
          .error (.failure (p.name ++ " == null")) := by
  have hfind : Gives (Scope.find ⟨.object k, []⟩ s.fieldName) heap .null heap :=
    gives_ownField rfl rfl hk (hcached ▸ ho.cached)
  have hvalue : Gives (Scope.find ⟨.object k, []⟩ p.name) heap h.value heap :=
    gives_ownField rfl rfl hk ho.value
  rw [finalExpr, Gives, Expr.eval, Head.eval, hfind.bind_eq, gives_sendNull.bind_eq, Value.isNull,
    if_pos rfl]
  split
  · next hneeded =>
    rw [eval_orElse hvalue]
    split
    · next hnull =>
      refine Or.inr ⟨Value.isNull_iff.mp hnull, ?_, ?_⟩
      · simp only [Bool.and_eq_true, Bool.not_eq_true'] at hneeded
        exact hneeded.2
      · simp only [Expr.eval, Head.eval, Suffix.evalAll]
        rfl
    · exact Or.inl rfl
  · exact Or.inl (gives_named hvalue)

end Finish

/-! ### One way excludes the other -/

section Exclusive

variable {α : Type} {E : Surroundings α} {p : BuilderProperty} {s : SubBuilder} {f : Function}
  {k : Nat} {heap₀ heap : Heap α} {v₀ : Value α} {args fields : List (String × Value α)}
  {calls : List (Call α × Option (Value α))}

/-- A setter does not notice that a builder of its property was given out: a parameter that is named
as the field of that builder is null. -/
def Slips (p : BuilderProperty) (s : SubBuilder) (f : Function) (args : List (Value α)) : Prop :=
  ∃ locals, bind? f.parameters args = some locals ∧ locals.lookup s.fieldName = some .null ∧
    locals.lookup (SubBuilder.flagName p.name) = none

/-- A setter with one parameter slips if this is named as the field, and null. -/
theorem slips_iff {q : Parameter} (hq : f.parameters = [q]) (hvariadic : isVariadic f = false)
    (hg : IsGuarded p s) {v : Value α} :
    Slips p s f [v] ↔ q.name = s.fieldName ∧ v = .null := by
  have hflag : q.name = s.fieldName → q.name ≠ SubBuilder.flagName p.name :=
    fun hname => hname ▸ hg.field_ne_flag
  rw [Slips, bind?_single hq hvariadic]
  simp only [Option.some.injEq, exists_eq_left', lookup_single, ite_eq_right_iff, reduceCtorEq,
    imp_false, Option.ite_none_right_eq_some]
  exact ⟨fun h => h.1, fun h => ⟨h, hflag h.1⟩⟩

theorem exists_parameter_of_bind? {parameters : List Parameter} {args : List (Value α)}
    {locals : List (String × Value α)} (h : bind? parameters args = some locals) {n : String}
    {v : Value α} (hv : locals.lookup n = some v) : ∃ q ∈ parameters, q.name = n := by
  induction parameters generalizing args locals with
  | nil =>
    cases args with
    | nil =>
      obtain rfl := Option.some.inj h
      cases hv
    | cons _ _ => cases h
  | cons q parameters ih =>
    by_cases hname : q.name = n
    · exact ⟨q, List.mem_cons_self, hname⟩
    rw [bind?.eq_def] at h
    simp only at h
    split at h
    · split at h
      · obtain rfl := Option.some.inj h
        simp [List.lookup_cons, beq_false_of_ne (Ne.symm hname)] at hv
      · cases h
    · split at h
      · cases h
      · obtain ⟨rest, hrest, rfl⟩ := Option.map_eq_some_iff.mp h
        rw [List.lookup_cons, beq_false_of_ne (Ne.symm hname)] at hv
        obtain ⟨q', hq', hname'⟩ := ih hrest hv
        exact ⟨q', List.mem_cons_of_mem _ hq', hname'⟩

/-- What can be called, and what is built, after calls of a builder whose property had the value `v₀`
at first; `e` is what is passed on for the property when the value is finished. -/
structure Exclusive (E : Surroundings α) (p : BuilderProperty) (s : SubBuilder) (k : Nat) (e : Expr)
    (v₀ : Value α) (calls : List (Call α × Option (Value α))) (heap : Heap α) : Prop where
  /-- Once the property was set, no builder of it is given out. -/
  access_fails : (∃ f args u, (.set f args, some u) ∈ calls) →
    Fails (Call.access.run E k p s) heap
  /-- Once a builder was given out, the property cannot be set by a setter none of whose parameters
  has the name of the field that keeps the builder, -/
  set_fails : ∀ w, (.access, some w) ∈ calls → ∀ f ∈ p.setters,
    (∀ q ∈ f.parameters, q.name ≠ s.fieldName) → ∀ args, Fails ((Call.set f args).run E k p s) heap
  /-- and by another just when this parameter is null. -/
  set_iff_slips : ∀ w, (.access, some w) ∈ calls → ∀ f ∈ p.setters, ∀ args,
    (∃ u heap', Gives ((Call.set f args).run E k p s) heap u heap') ↔ Slips p s f args
  /-- Otherwise the builder that was given out is given again, and nothing else is done. -/
  access_again : ∀ w, (.access, some w) ∈ calls → ∀ u heap',
    Gives (Call.access.run E k p s) heap u heap' ↔
      (¬ ∃ f args u, (.set f args, some u) ∈ calls) ∧ u = w ∧ heap' = heap
  /-- The first one takes over the value that the property had. -/
  access_first : (∀ w, (.access, some w) ∉ calls) → ∀ w heap',
    Gives (Call.access.run E k p s) heap w heap' ↔
      (¬ ∃ f args u, (.set f args, some u) ∈ calls) ∧ p.name ≠ "subBuilder" ∧
        ∃ heap₁ o, heap[k]? = some o ∧ Seeded E s v₀ w heap heap₁ ∧
          heap' = heap₁.set k (building p s o w)
  /-- The value is what this builder builds, -/
  built : ∀ w, (.access, some w) ∈ calls →
    Expr.eval E.program E.send ⟨.object k, []⟩ e heap = E.send w "build" [] heap
  /-- or the last one that was set, which must be there unless the property may be null. -/
  unbuilt : (∀ w, (.access, some w) ∉ calls) →
    Gives (Expr.eval E.program E.send ⟨.object k, []⟩ e) heap (lastAssigned v₀ calls) heap ∨
      lastAssigned v₀ calls = .null ∧ p.type.isNullable = false ∧
        Expr.eval E.program E.send ⟨.object k, []⟩ e heap = .error (.failure (p.name ++ " == null"))

theorem lastAssigned_of_not_set (h : ¬ ∃ f args u, (.set f args, some u) ∈ calls) :
    lastAssigned v₀ calls = v₀ := by
  induction calls with
  | nil => rfl
  | cons call calls ih =>
    have ih := ih fun ⟨f, args, u, hmem⟩ => h ⟨f, args, u, List.mem_cons_of_mem _ hmem⟩
    obtain ⟨_ | _, _ | u⟩ := call
    · exact ih
    · exact absurd ⟨_, _, u, List.mem_cons_self⟩ h
    · exact ih
    · exact ih

theorem Describes.exclusive (hE : E.Respects k) (hg : IsGuarded p s) {h : Holding α} {o : Object α}
    (hk : heap[k]? = some o) (ho : Holds p s h o) (hd : Describes v₀ calls h) (zero : Option Code) :
    Exclusive E p s k (finalExpr p s zero) v₀ calls heap := by
  have hnull (hnone : ∀ w, (.access, some w) ∉ calls) : h.cached = .null := by
    by_contra hne
    exact hnone h.cached ((hd.cached h.cached).mpr ⟨hne, rfl⟩)
  have hslips {w : Value α} (hw : (.access, some w) ∈ calls) {f : Function} (hf : f ∈ p.setters)
      (args : List (Value α)) :
      (∃ u heap', Gives ((Call.set f args).run E k p s) heap u heap') ↔ Slips p s f args := by
    obtain ⟨hne, rfl⟩ := (hd.cached w).mp hw
    have hlets (locals : List (String × Value α)) :
        Lets s h.cached locals ↔ locals.lookup s.fieldName = some .null := by
      rw [Lets]
      cases locals.lookup s.fieldName <;> simp [hne]
    constructor
    · rintro ⟨u, heap', hgives⟩
      obtain ⟨locals, hbind, hpass, hflag, -⟩ := (gives_setter_iff hg hf hk ho).mp hgives
      exact ⟨locals, hbind, (hlets locals).mp hpass, hflag⟩
    · rintro ⟨locals, hbind, hpass, hflag⟩
      exact ⟨_, _, (gives_setter_iff hg hf hk ho).mpr
        ⟨locals, hbind, (hlets locals).mpr hpass, hflag, rfl, rfl⟩⟩
  have hfree : h.isSet = false ↔ ¬ ∃ f args u, (.set f args, some u) ∈ calls := by
    rw [← hd.isSet, Bool.not_eq_true]
  refine ⟨fun hset => ?_, fun w hw f hf hnames args => ?_, fun w hw f hf => hslips hw hf,
    fun w hw u heap' => ?_, fun hnone w heap' => ?_, fun w hw => ?_, fun hnone => ?_⟩
  · refine fails_iff.mpr fun u heap' hgives => ?_
    exact hfree.mp ((gives_access_iff hE hg hk ho).mp hgives).1 hset
  · refine fails_iff.mpr fun u heap' hgives => ?_
    obtain ⟨locals, hbind, hlookup, -⟩ := (hslips hw hf args).mp ⟨u, heap', hgives⟩
    obtain ⟨q, hq, hname⟩ := exists_parameter_of_bind? hbind hlookup
    exact hnames q hq hname
  · obtain ⟨hne, rfl⟩ := (hd.cached w).mp hw
    rw [← hfree]
    refine (gives_access_iff hE hg hk ho).trans (and_congr_right fun _ => ?_)
    simp only [hne, ne_eq, not_false_iff, true_and, false_and, or_false]
  · rw [← hfree]
    refine (gives_access_iff hE hg hk ho).trans (and_congr_right fun hfalse => ?_)
    have hvalue : h.value = v₀ := by
      rw [hd.value (hnull hnone), lastAssigned_of_not_set (hfree.mp hfalse)]
    simp only [hnull hnone, hvalue, hk, ne_eq, not_true, false_and, false_or, true_and,
      Option.some.injEq, exists_eq_left']
  · obtain ⟨hne, rfl⟩ := (hd.cached w).mp hw
    exact eval_finalExpr_built hE hk ho hne zero
  · rw [← hd.value (hnull hnone)]
    exact eval_finalExpr_unbuilt hk ho (hnull hnone) zero

/-- A property of a new builder, whatever value it has, is set or built. Over any calls of its setters
and of the access to its builder, once it was set no builder is given out, and once one was given out
it is the only one, has taken over the value, and decides what is passed on in the end; without one it
is the value last set. Setters fail then, unless they slip. -/
theorem setters_and_builder_exclude {builder value : TypeElement} {set : PropertySet}
    {b : BuilderModel} {log log' : Log} {decl : TypeDecl} {valueClass cls : ClassName}
    (hmodel : (BuilderModel.ofElement? builder value set).runOn log = (.ok (some b), log'))
    (hdecl : b.toDeclaration valueClass = .ok decl)
    (hnames : ∀ p ∈ b.properties, p.name ∉ generatedNames b)
    (hp : p ∈ b.properties) (hsetters : p.setters ≠ []) (hs : p.subBuilder = some s)
    (hfields : fieldsOf? decl args = some fields) (hnew : heap₀[k]? = some ⟨cls, fields⟩) :
    ∃ e v₀, Finishes b valueClass decl p.name e ∧ fields.lookup p.name = some v₀ ∧
      ∀ calls heap, Trace p s k heap₀ calls heap → ∀ E : Surroundings α, E.Respects k →
        Exclusive E p s k e v₀ calls heap := by
  have hb := BuilderModel.isFor_of_ofElement? hmodel
  have hg := isGuarded hb hnames hp hsetters hs
  obtain ⟨zero, hfinishes⟩ := exists_finishes hb hdecl hp hs
  obtain ⟨v₀, ho⟩ := holds_new hb hnames hdecl hp hg.guarded hfields cls
  refine ⟨_, v₀, hfinishes, ho.value, fun calls heap htrace E hE => ?_⟩
  obtain ⟨h, o, hk, ho, hd⟩ := htrace.describes hg hnew ho
  exact hd.exclusive hE hg hk ho zero

end Exclusive

/-! ### A builder of lists -/

/-- The builders of lists: a new one is 1, it gives itself back when something is added to it, and it
builds 2. -/
def listBuilders : Surroundings Nat where
  program := {
    classes := fun _ => none
    pick := List.getLast?
    pick_mem := List.mem_of_getLast?
    pick_isSome := List.getLast?_isSome.mpr
    made := fun _ _ => .foreign 1
    called := fun _ _ _ => .null }
  send target name _ :=
    match target with
    | .foreign a => pure (.foreign (if name = "build" then 2 else a))
    | _ => failing .stuck

theorem respects_listBuilders (k : Nat) : listBuilders.Respects k where
  made _ _ := nofun
  present v name heap u heap' _ h := by
    cases v with
    | foreign a =>
      obtain ⟨rfl, -⟩ := gives_pure_iff.mp h
      nofun
    | _ => cases h
  apart v name args heap u heap' _ h := by
    cases v with
    | foreign a => rw [(gives_pure_iff.mp h).2]
    | _ => cases h

theorem gives_listBuilders {s : SubBuilder} (h : s.type.class?.isSome = true) (heap : Heap Nat) :
    Gives (listBuilders.create s) heap (.foreign 1) heap := by
  obtain ⟨cls, hcls⟩ := Option.isSome_iff_exists.mp h
  have hmake : Gives (Head.eval listBuilders.program listBuilders.send ⟨.null, []⟩
      (.make s.type [])) heap (.foreign 1) heap := by
    rw [Head.eval, Argument.evalAll, pure_bind, Program.construct, hcls]
    exact gives_pure
  rw [Surroundings.create]
  unfold creationHead
  split
  · split
    · rw [Head.eval]
      exact gives_pure
    · exact hmake
  · exact hmake

/-- A new builder gives out a builder of lists. -/
theorem exists_listBuilder {p : BuilderProperty} {s : SubBuilder} {k : Nat} {heap : Heap Nat}
    {o : Object Nat} {v : Value Nat} (hg : IsGuarded p s) (hk : heap[k]? = some o)
    (ho : Holds p s ⟨v, .null, false⟩ o) (hname : p.name ≠ "subBuilder")
    (hmethod : s.seedMethod? = some "addAll") (hclass : s.type.class?.isSome = true) :
    ∃ heap', Gives (Call.access.run listBuilders k p s) heap (.foreign 1) heap' := by
  have hseeded : Seeded listBuilders s v (.foreign 1) heap heap := by
    refine (seeded_some hmethod).mpr ⟨heap, gives_listBuilders hclass heap, ?_⟩
    by_cases hv : v = .null
    · exact Or.inl ⟨hv, rfl⟩
    · exact Or.inr ⟨hv, _, gives_pure⟩
  exact ⟨_, (gives_access_iff (respects_listBuilders k) hg hk ho).mpr
    ⟨rfl, Or.inr ⟨rfl, hname, heap, hseeded, rfl⟩⟩⟩

/-- The builder of the tracks of a playlist is given out; then the tracks can be set to null, since the
parameter is named as the field that keeps the builder, and to nothing else. -/
theorem playlist_is_set_or_built : ∃ model d b p s decl fields v₀ e heap,
    declared? playlistElement = some (model, d) ∧ model.builder = some b ∧
    b.toDeclaration model.cls = .ok decl ∧ p ∈ b.properties ∧ p.name = "tracks" ∧
    p.subBuilder = some s ∧ Finishes b model.cls decl p.name e ∧
    fieldsOf? decl [("rating", .foreign 7), ("tracks", .foreign 7)] = some fields ∧
    fields.lookup p.name = some v₀ ∧
    Gives (Call.access.run listBuilders 0 p s) [⟨model.builderClass b, fields⟩] (.foreign 1) heap ∧
    Exclusive listBuilders p s 0 e v₀ [(.access, some (.foreign 1))] heap ∧
    ∀ f ∈ p.setters, ∀ v,
      (∃ u heap', Gives ((Call.set f [v]).run listBuilders 0 p s) heap u heap') ↔ v = .null := by
  have hsome : (declared? playlistElement).isSome = true := by decide +kernel
  have hbuilder : ∀ r ∈ declared? playlistElement, r.1.builder.isSome = true := by decide +kernel
  have hnames : ∀ r ∈ declared? playlistElement, ∀ b ∈ r.1.builder, ∀ p ∈ b.properties,
      p.name ∉ generatedNames b := by
    decide +kernel
  have hsetters : ∀ r ∈ declared? playlistElement, ∀ b ∈ r.1.builder,
      b.properties[1]?.map (fun p => (p.name, p.setters.map fun f =>
        (f.parameters.map (·.name), isVariadic f))) =
      some ("tracks", [(["_tracksBuilder"], false)]) := by
    decide +kernel
  have hsub : ∀ r ∈ declared? playlistElement, ∀ b ∈ r.1.builder,
      (b.properties[1]?.bind (·.subBuilder)).map (fun s =>
        (s.fieldName, s.seedMethod?, s.type.class?.isSome)) =
      some ("_tracksBuilder", some "addAll", true) := by
    decide +kernel
  have hconstructed : ∀ r ∈ declared? playlistElement, ∀ t ∈ r.2.types, t.kind = .classDecl →
      (fieldsOf? t [("rating", .foreign 7), ("tracks", .foreign 7)] :
        Option (List (String × Value Nat))).isSome = true := by
    decide +kernel
  obtain ⟨⟨model, d⟩, hdeclared⟩ := Option.isSome_iff_exists.mp hsome
  obtain ⟨⟨log, hmodel⟩, hd⟩ := declared?_spec hdeclared
  obtain ⟨b, hb⟩ := Option.isSome_iff_exists.mp (hbuilder _ hdeclared)
  obtain ⟨builder, -, log₁, log₂, hbuilt⟩ := ClassModel.builder_of_ofElement? hmodel hb
  obtain ⟨-, -, -, hdecls, -⟩ := ClassModel.toDeclaration_spec hd
  obtain ⟨decl, hmem, hdecl⟩ := hdecls b hb
  obtain ⟨-, -, -, hkind, -⟩ := BuilderModel.toDeclaration_spec hdecl
  obtain ⟨fields, hfields⟩ := Option.isSome_iff_exists.mp (hconstructed _ hdeclared decl hmem hkind)
  replace hnames := hnames _ hdeclared b hb
  obtain ⟨p, hp, hsetters⟩ := Option.map_eq_some_iff.mp (hsetters _ hdeclared b hb)
  obtain ⟨hname, hsetters⟩ := Prod.mk.inj hsetters
  obtain ⟨s, hs, hsub⟩ := Option.map_eq_some_iff.mp (hsub _ hdeclared b hb)
  rw [hp, Option.bind_some] at hs
  obtain ⟨hfield, hsub⟩ := Prod.mk.inj hsub
  obtain ⟨hmethod, hclass⟩ := Prod.mk.inj hsub
  have hp := List.mem_of_getElem? hp
  have hsome : p.setters ≠ [] := fun hnil => by
    rw [hnil] at hsetters
    cases hsetters
  have hfor := BuilderModel.isFor_of_ofElement? hbuilt
  have hg := isGuarded hfor hnames hp hsome hs
  have hnew : ([⟨model.builderClass b, fields⟩] : Heap Nat)[0]? =
      some ⟨model.builderClass b, fields⟩ := rfl
  obtain ⟨v₀, ho⟩ := holds_new hfor hnames hdecl hp hg.guarded hfields (model.builderClass b)
  obtain ⟨heap, hgives⟩ := exists_listBuilder hg hnew ho (by rw [hname]; decide) hmethod hclass
  obtain ⟨e, v₁, hfinishes, hvalue, hexclusive⟩ :=
    setters_and_builder_exclude hbuilt hdecl hnames hp hsome hs hfields hnew
  have htrace : Trace p s 0 _ [(.access, some (.foreign 1))] heap :=
    .gave .start (respects_listBuilders 0) trivial hgives
  have hexclusive := hexclusive _ heap htrace listBuilders (respects_listBuilders 0)
  refine ⟨model, d, b, p, s, decl, fields, v₁, e, _, hdeclared, hb, hdecl, hp, hname, hs,
    hfinishes, hfields, hvalue, hgives, hexclusive, fun f hf v => ?_⟩
  rw [hexclusive.set_iff_slips _ List.mem_cons_self f hf]
  obtain ⟨f', hf', hparameters⟩ := List.map_eq_singleton_iff.mp hsetters
  obtain rfl := List.mem_singleton.mp (hf' ▸ hf)
  obtain ⟨hparameters, hvariadic⟩ := Prod.mk.inj hparameters
  obtain ⟨q, hq, hparameter⟩ := List.map_eq_singleton_iff.mp hparameters
  rw [slips_iff hq hvariadic hg, hparameter, hfield]
  simp

end DataClassGen.Meaning
