import Mathlib
import DataClassGen.Model.Builder
import DataClassGen.Proofs.Run.Accounts

/-!
# The methods of a builder

Every method of a builder has one entry in the model of the builder: it sets one of the properties,
gives access to a builder of one, is one of the two that finish a value, or is left to be moved by
hand (`BuilderModel.exists_entries`). The methods are sorted in one pass, and where a method goes
depends on what was sorted before. The invariant of the pass says what the parts hold after some
methods (`BuilderParts.Holds`): for each kind, and for each property, what the entries of that kind
are, in order. A method more adds its entry at a place that is there and, where only one fits, is
free (`entering_of_add`), and the invariant is kept (`Holds.entering`).
-/

namespace DataClassGen

open Source

/-! ### Entries of the model of a builder -/

/-- What a method of a builder became, and where in the model it stands. -/
inductive BuilderEntry where
  /-- It sets the property at this place. -/
  | setter (index : Nat) (function : Function)
  /-- It gives access to a builder of the property at this place. -/
  | subBuilder (index : Nat) (subBuilder : SubBuilder)
  | finalizer (function : Function)
  | builder (function : Function)
  | unrecognized (signature : String)

namespace BuilderEntry

/-- The function, if the entry is one that sets the property at this place. -/
def setter? (index : Nat) : BuilderEntry → Option Function
  | .setter i f => if i = index then some f else none
  | _ => none

/-- The access, if the entry is one to a builder of the property at this place. -/
def subBuilder? (index : Nat) : BuilderEntry → Option SubBuilder
  | .subBuilder i s => if i = index then some s else none
  | _ => none

/-- The abstract function that finishes the value, if the entry is it. -/
def finalizer? : BuilderEntry → Option Function
  | .finalizer f => some f
  | _ => none

/-- The concrete function that finishes the value, if the entry is it. -/
def builder? : BuilderEntry → Option Function
  | .builder f => some f
  | _ => none

/-- The signature of a method to be moved by hand, if the entry is one. -/
def unrecognized? : BuilderEntry → Option String
  | .unrecognized s => some s
  | _ => none

/-- The function, if the entry is one that sets a property. -/
def anySetter? : BuilderEntry → Option Function
  | .setter _ f => some f
  | _ => none

/-- The access, if the entry is one to a builder of a property. -/
def anySubBuilder? : BuilderEntry → Option SubBuilder
  | .subBuilder _ s => some s
  | _ => none

/-- The place of the property that the entry sets, if it sets one. -/
def setterPlace? : BuilderEntry → Option Nat
  | .setter i _ => some i
  | _ => none

/-- The entry is what the method becomes in the builder of a class with these properties. -/
def IsFor (set : PropertySet) (m : Method) : BuilderEntry → Prop
  | .setter i f => set.setterTarget? m.name = some i ∧ m.toFunction = .ok f
  | .subBuilder i s => set.subBuilderTarget? m.name = some i ∧ m.parameters = [] ∧
      m.toFunction = .ok s.accessor ∧ m.returnType.convert = .ok s.type
  | .finalizer f => m.isAbstract = true ∧ m.parameters = [] ∧ m.toFunction = .ok f
  | .builder f => m.isAbstract = false ∧ m.parameters = [] ∧ m.toFunction = .ok f
  | .unrecognized s => s = m.signature

section Finding

variable {i : Nat} {e : BuilderEntry} {f : Function}

theorem setter?_eq_some_iff : e.setter? i = some f ↔ e = .setter i f := by
  cases e <;> simp [setter?]

theorem subBuilder?_eq_some_iff {s : SubBuilder} :
    e.subBuilder? i = some s ↔ e = .subBuilder i s := by
  cases e <;> simp [subBuilder?]

theorem finalizer?_eq_some_iff : e.finalizer? = some f ↔ e = .finalizer f := by
  cases e <;> simp [finalizer?]

theorem builder?_eq_some_iff : e.builder? = some f ↔ e = .builder f := by
  cases e <;> simp [builder?]

end Finding

end BuilderEntry

theorem PropertySet.lt_of_setterTarget? {set : PropertySet} {name : String} {i : Nat}
    (h : set.setterTarget? name = some i) : i < set.properties.length := by
  rw [setterTarget?] at h
  split at h
  · next found =>
    obtain rfl := Option.some.inj h
    exact (List.findIdx?_eq_some_iff_findIdx_eq.mp found).1
  · exact (List.findIdx?_eq_some_iff_findIdx_eq.mp h).1

theorem PropertySet.lt_of_subBuilderTarget? {set : PropertySet} {name : String} {i : Nat}
    (h : set.subBuilderTarget? name = some i) : i < set.properties.length := by
  obtain ⟨_, -, h⟩ := Option.bind_eq_some_iff.mp h
  exact (List.findIdx?_eq_some_iff_findIdx_eq.mp h).1

namespace BuilderEntry

/-- The place of the entry is one of this many. -/
def IsWithin (count : Nat) : BuilderEntry → Prop
  | .setter i _ | .subBuilder i _ => i < count
  | .finalizer _ | .builder _ | .unrecognized _ => True

theorem IsFor.isWithin {set : PropertySet} {m : Method} {e : BuilderEntry} (h : e.IsFor set m) :
    e.IsWithin set.properties.length := by
  cases e with
  | setter i f => exact PropertySet.lt_of_setterTarget? h.1
  | subBuilder i s => exact PropertySet.lt_of_subBuilderTarget? h.1
  | finalizer f => trivial
  | builder f => trivial
  | unrecognized s => trivial

theorem isWithin_of_forall₂ {set : PropertySet} {methods : List Method}
    {entries : List BuilderEntry} (h : methods.Forall₂ (IsFor set) entries) :
    ∀ e ∈ entries, e.IsWithin set.properties.length := by
  induction h with
  | nil => exact fun _ he => nomatch he
  | cons hfor _ ih => exact List.forall_mem_cons.mpr ⟨hfor.isWithin, ih⟩

/-- What elements have at their places, place by place or element by element. -/
theorem flatMap_range_perm {α β : Type} {count : Nat} {at? : Nat → α → Option β}
    {any? : α → Option β} {as : List α}
    (h : ∀ a ∈ as, ((List.range count).flatMap fun i => (at? i a).toList) = (any? a).toList) :
    ((List.range count).flatMap fun i => as.filterMap (at? i)).Perm (as.filterMap any?) := by
  induction as with
  | nil => simp
  | cons a as ih =>
    have ih := ih fun a' ha' => h a' (List.mem_cons_of_mem _ ha')
    have hplaces := List.flatMap_append_perm (List.range count) (fun i => (at? i a).toList)
      fun i => as.filterMap (at? i)
    rw [h a List.mem_cons_self] at hplaces
    have hcons (f : α → Option β) : (a :: as).filterMap f = (f a).toList ++ as.filterMap f := by
      simp only [List.filterMap_eq_flatMap_toList, List.flatMap_cons]
    simp only [hcons]
    exact hplaces.symm.trans (ih.append_left _)

/-- One place among this many holds the element. -/
theorem flatMap_range_place {α : Type} {count i : Nat} (hi : i < count) (a : α) :
    ((List.range count).flatMap fun j => (if i = j then some a else none).toList) = [a] := by
  induction count with
  | zero => omega
  | succ count ih =>
    rw [List.range_succ, List.flatMap_append, List.flatMap_singleton]
    rcases Nat.lt_succ_iff_lt_or_eq.mp hi with hlt | rfl
    · rw [ih hlt, if_neg (Nat.ne_of_lt hlt)]
      rfl
    · have hnone :
          ((List.range i).flatMap fun j => (if i = j then some a else none).toList) = [] := by
        simp only [List.flatMap_eq_nil_iff, List.mem_range]
        intro j hj
        rw [if_neg (Nat.ne_of_gt hj)]
        rfl
      rw [hnone, if_pos rfl]
      rfl

theorem setters_perm {count : Nat} {entries : List BuilderEntry}
    (within : ∀ e ∈ entries, e.IsWithin count) :
    ((List.range count).flatMap fun i => entries.filterMap (setter? i)).Perm
      (entries.filterMap anySetter?) := by
  refine flatMap_range_perm fun e he => ?_
  cases e with
  | setter i f => exact flatMap_range_place (within _ he) f
  | _ => simp [setter?, anySetter?]

theorem subBuilders_perm {count : Nat} {entries : List BuilderEntry}
    (within : ∀ e ∈ entries, e.IsWithin count) :
    ((List.range count).flatMap fun i => entries.filterMap (subBuilder? i)).Perm
      (entries.filterMap anySubBuilder?) := by
  refine flatMap_range_perm fun e he => ?_
  cases e with
  | subBuilder i s => exact flatMap_range_place (within _ he) s
  | _ => simp [subBuilder?, anySubBuilder?]

/-- Entries are as many as those of all kinds together. -/
theorem length_eq (entries : List BuilderEntry) :
    (entries.filterMap anySetter?).length + (entries.filterMap anySubBuilder?).length +
      (entries.filterMap finalizer?).length + (entries.filterMap builder?).length +
      (entries.filterMap unrecognized?).length = entries.length := by
  induction entries with
  | nil => rfl
  | cons e es ih =>
    cases e <;>
      simp [List.filterMap_cons, anySetter?, anySubBuilder?, finalizer?, builder?,
        unrecognized?] <;> omega

end BuilderEntry

/-- The parts for this many properties are what these entries say. -/
structure BuilderParts.Holds (parts : BuilderParts) (count : Nat) (entries : List BuilderEntry) :
    Prop where
  setters : parts.setters = (List.range count).map fun i =>
    entries.filterMap (BuilderEntry.setter? i)
  subBuilders : parts.subBuilders.map Option.toList = (List.range count).map fun i =>
    entries.filterMap (BuilderEntry.subBuilder? i)
  finalizeMethod : parts.finalizeMethod.toList = entries.filterMap BuilderEntry.finalizer?
  buildMethod : parts.buildMethod.toList = entries.filterMap BuilderEntry.builder?
  unrecognized : parts.unrecognized = entries.filterMap BuilderEntry.unrecognized?

/-! ### The methods of a builder -/

/-- What the role of a method says of it, after the methods in `parts`. -/
def BuilderRole.IsFor (set : PropertySet) (parts : BuilderParts) (m : Method) : BuilderRole → Prop
  | .setter i => set.setterTarget? m.name = some i
  | .finalize => parts.finalizeMethod = none ∧ m.isAbstract = true ∧ m.parameters = []
  | .build => parts.buildMethod = none ∧ m.isAbstract = false ∧ m.parameters = []
  | .subBuilder i => set.subBuilderTarget? m.name = some i ∧ parts.subBuilders[i]?.join = none ∧
      m.parameters = []
  | .unrecognized => True

theorem BuilderRole.isFor_ofMethod (builderName valueName : String) (set : PropertySet)
    (parts : BuilderParts) (m : Method) :
    (BuilderRole.ofMethod builderName valueName set parts m).IsFor set parts m := by
  rw [BuilderRole.ofMethod]
  split
  · split
    · assumption
    · trivial
  · split
    · next hvalue =>
      simp only [Bool.and_eq_true, List.isEmpty_iff] at hvalue
      split
      · next habstract =>
        split
        · next hnone => exact ⟨Option.isNone_iff_eq_none.mp hnone, habstract, hvalue.1.2⟩
        · trivial
      · next habstract =>
        split
        · next hnone =>
          exact ⟨Option.isNone_iff_eq_none.mp hnone, Bool.eq_false_of_not_eq_true habstract,
            hvalue.1.2⟩
        · trivial
    · split
      · next haccess =>
        simp only [Bool.and_eq_true, List.isEmpty_iff] at haccess
        split
        · next i hi =>
          split
          · next hnone => exact ⟨hi, Option.isNone_iff_eq_none.mp hnone, haccess.2⟩
          · trivial
        · trivial
      · trivial

/-- The place of the property that the method sets in the builder of this name, if it sets one. -/
def Method.setterPlace? (builderName : String) (set : PropertySet) (m : Method) : Option Nat :=
  if m.isAbstract && m.returnType.isDeclared builderName then set.setterTarget? m.name else none

/-- The place of the property that a method with the role sets, if it sets one. -/
def BuilderRole.setterPlace? : BuilderRole → Option Nat
  | .setter i => some i
  | _ => none

/-- Setters are not told by what was sorted before. -/
theorem BuilderRole.setterPlace?_ofMethod (builderName valueName : String) (set : PropertySet)
    (parts : BuilderParts) (m : Method) :
    (BuilderRole.ofMethod builderName valueName set parts m).setterPlace? =
      m.setterPlace? builderName set := by
  rw [BuilderRole.ofMethod, Method.setterPlace?]
  split
  · split
    · next i hi => exact hi.symm
    · next hnone => exact hnone.symm
  · split
    · split
      · split <;> rfl
      · split <;> rfl
    · split
      · split
        · split <;> rfl
        · rfl
      · rfl

namespace BuilderParts

theorem holds_empty (count : Nat) : (empty count).Holds count [] where
  setters := by simp [empty]
  subBuilders := by simp [empty]
  finalizeMethod := rfl
  buildMethod := rfl
  unrecognized := rfl

section Places

variable {α : Type} {count i : Nat} (lists : Nat → List α)

/-- One list more elements at its place. -/
theorem modify_map_range (hi : i < count) (a : α) :
    ((List.range count).map lists).modify i (· ++ [a]) =
      (List.range count).map fun j => lists j ++ if i = j then [a] else [] := by
  apply List.ext_getElem?
  intro j
  rw [List.getElem?_modify]
  by_cases hj : j < count
  · by_cases hij : i = j <;> simp [hj, hij]
  · have : i ≠ j := by omega
    simp [hj, this]

/-- An element at a place that was empty. -/
theorem set_map_range (hi : i < count) (hempty : lists i = []) (a : α) :
    ((List.range count).map lists).set i [a] =
      (List.range count).map fun j => lists j ++ if i = j then [a] else [] := by
  apply List.ext_getElem?
  intro j
  rw [List.getElem?_set]
  by_cases hij : i = j
  · subst hij
    simp [hi, hempty]
  · by_cases hj : j < count <;> simp [hj, hij]

end Places

/-- The parts with an entry more. -/
def entering (parts : BuilderParts) : BuilderEntry → BuilderParts
  | .setter i f => { parts with setters := parts.setters.modify i (· ++ [f]) }
  | .subBuilder i s => { parts with subBuilders := parts.subBuilders.set i (some s) }
  | .finalizer f => { parts with finalizeMethod := some f }
  | .builder f => { parts with buildMethod := some f }
  | .unrecognized s => { parts with unrecognized := parts.unrecognized ++ [s] }

/-- There is a place for the entry, among this many properties. -/
def HasPlaceFor (parts : BuilderParts) (count : Nat) : BuilderEntry → Prop
  | .setter i _ => i < count
  | .subBuilder i _ => i < count ∧ parts.subBuilders[i]?.join = none
  | .finalizer _ => parts.finalizeMethod = none
  | .builder _ => parts.buildMethod = none
  | .unrecognized _ => True

/-- A method more is an entry more, and the entry sets what the method does. -/
theorem entering_of_add {builderName valueName : String} {set : PropertySet}
    {parts parts' : BuilderParts} {m : Method} {log log' : Log}
    (h : (parts.add builderName valueName set m).runOn log = (.ok parts', log')) :
    ∃ e : BuilderEntry, (e.IsFor set m ∧ e.setterPlace? = m.setterPlace? builderName set) ∧
      parts.HasPlaceFor set.properties.length e ∧ parts' = parts.entering e := by
  have hrole := BuilderRole.isFor_ofMethod builderName valueName set parts m
  have hplace := BuilderRole.setterPlace?_ofMethod builderName valueName set parts m
  rw [BuilderParts.add] at h
  generalize BuilderRole.ofMethod builderName valueName set parts m = role at h hrole hplace
  cases role with
  | setter i =>
    have hsetting : ∃ log₁, (Reporting.ofExcept m.toFunction >>= fun f => pure { parts with
        setters := parts.setters.modify i (· ++ [f]) } : Reporting BuilderParts).runOn log₁ =
          (.ok parts', log') := by
      simp only at h
      split at h
      · obtain ⟨_, log₁, -, h⟩ := Reporting.runOn_bind_ok h
        exact ⟨log₁, h⟩
      · exact ⟨log, h⟩
    obtain ⟨log₁, hsetting⟩ := hsetting
    obtain ⟨f, log₂, hf, h⟩ := Reporting.runOn_bind_ok hsetting
    obtain rfl := Except.ok.inj (Prod.mk.inj h).1
    exact ⟨.setter i f, ⟨⟨hrole, (Prod.mk.inj hf).1⟩, hplace⟩, PropertySet.lt_of_setterTarget? hrole, rfl⟩
  | finalize =>
    obtain ⟨hnone, habstract, hparameters⟩ := hrole
    obtain ⟨f, log₁, hf, h⟩ := Reporting.runOn_bind_ok h
    obtain rfl := Except.ok.inj (Prod.mk.inj h).1
    exact ⟨.finalizer f, ⟨⟨habstract, hparameters, (Prod.mk.inj hf).1⟩, hplace⟩, hnone, rfl⟩
  | build =>
    obtain ⟨hnone, habstract, hparameters⟩ := hrole
    obtain ⟨f, log₁, hf, h⟩ := Reporting.runOn_bind_ok h
    obtain rfl := Except.ok.inj (Prod.mk.inj h).1
    exact ⟨.builder f, ⟨⟨habstract, hparameters, (Prod.mk.inj hf).1⟩, hplace⟩, hnone, rfl⟩
  | subBuilder i =>
    obtain ⟨htarget, hnone, hparameters⟩ := hrole
    obtain ⟨accessor, log₁, haccessor, h⟩ := Reporting.runOn_bind_ok h
    obtain ⟨type, log₂, htype, h⟩ := Reporting.runOn_bind_ok h
    obtain rfl := Except.ok.inj (Prod.mk.inj h).1
    exact ⟨.subBuilder i { accessor, type },
      ⟨⟨htarget, hparameters, (Prod.mk.inj haccessor).1, (Prod.mk.inj htype).1⟩, hplace⟩,
      ⟨PropertySet.lt_of_subBuilderTarget? htarget, hnone⟩, rfl⟩
  | unrecognized =>
    obtain rfl := Except.ok.inj (Prod.mk.inj h).1
    exact ⟨.unrecognized m.signature, ⟨rfl, hplace⟩, trivial, rfl⟩

theorem filterMap_concat_none {α β : Type} {p : α → Option β} {a : α} (as : List α)
    (h : p a = none) : (as ++ [a]).filterMap p = as.filterMap p := by
  rw [List.filterMap_append, List.filterMap_cons_none h, List.filterMap_nil, List.append_nil]

theorem filterMap_concat_some {α β : Type} {p : α → Option β} {a : α} {b : β} (as : List α)
    (h : p a = some b) : (as ++ [a]).filterMap p = as.filterMap p ++ [b] := by
  rw [List.filterMap_append, List.filterMap_cons_some h, List.filterMap_nil]

/-- What the parts hold with an entry more. -/
theorem Holds.entering {parts : BuilderParts} {count : Nat} {entries : List BuilderEntry}
    (holds : parts.Holds count entries) {e : BuilderEntry} (place : parts.HasPlaceFor count e) :
    (parts.entering e).Holds count (entries ++ [e]) := by
  -- the lists of the other kinds stay as they are
  have setters (other : ∀ i, e.setter? i = none) : parts.setters = (List.range count).map fun i =>
      (entries ++ [e]).filterMap (BuilderEntry.setter? i) := by
    simp only [filterMap_concat_none entries (other _), holds.setters]
  have subBuilders (other : ∀ i, e.subBuilder? i = none) : parts.subBuilders.map Option.toList =
      (List.range count).map fun i => (entries ++ [e]).filterMap (BuilderEntry.subBuilder? i) := by
    simp only [filterMap_concat_none entries (other _), holds.subBuilders]
  have finalizer (other : e.finalizer? = none) := holds.finalizeMethod.trans
    (filterMap_concat_none entries other).symm
  have builder (other : e.builder? = none) := holds.buildMethod.trans
    (filterMap_concat_none entries other).symm
  have unrecognized (other : e.unrecognized? = none) := holds.unrecognized.trans
    (filterMap_concat_none entries other).symm
  cases e with
  | setter i f =>
    refine ⟨?_, subBuilders fun _ => rfl, finalizer rfl, builder rfl, unrecognized rfl⟩
    rw [BuilderParts.entering, holds.setters, modify_map_range _ place]
    refine List.map_congr_left fun j _ => ?_
    by_cases hij : i = j
    · rw [if_pos hij, filterMap_concat_some entries (if_pos hij)]
    · rw [if_neg hij, filterMap_concat_none entries (if_neg hij), List.append_nil]
  | subBuilder i s =>
    refine ⟨setters fun _ => rfl, ?_, finalizer rfl, builder rfl, unrecognized rfl⟩
    obtain ⟨hi, hnone⟩ := place
    have hempty : entries.filterMap (BuilderEntry.subBuilder? i) = [] := by
      have hget := congrArg (·[i]?) holds.subBuilders
      simp only [List.getElem?_map, List.getElem?_range hi, Option.map_some] at hget
      cases hs : parts.subBuilders[i]? with
      | none => simp [hs] at hget
      | some found =>
        rw [hs] at hget hnone
        obtain rfl : found = none := hnone
        exact (Option.some.inj hget).symm
    rw [BuilderParts.entering, List.map_set, holds.subBuilders]
    refine (set_map_range (fun j => entries.filterMap (BuilderEntry.subBuilder? j)) hi hempty
      s).trans (List.map_congr_left fun j _ => ?_)
    by_cases hij : i = j
    · rw [if_pos hij, filterMap_concat_some entries (if_pos hij)]
    · rw [if_neg hij, filterMap_concat_none entries (if_neg hij), List.append_nil]
  | finalizer f =>
    refine ⟨setters fun _ => rfl, subBuilders fun _ => rfl, ?_, builder rfl, unrecognized rfl⟩
    rw [filterMap_concat_some entries (show BuilderEntry.finalizer? (.finalizer f) = some f from rfl),
      ← holds.finalizeMethod, (place : _ = none)]
    rfl
  | builder f =>
    refine ⟨setters fun _ => rfl, subBuilders fun _ => rfl, finalizer rfl, ?_, unrecognized rfl⟩
    rw [filterMap_concat_some entries (show BuilderEntry.builder? (.builder f) = some f from rfl),
      ← holds.buildMethod, (place : _ = none)]
    rfl
  | unrecognized s =>
    refine ⟨setters fun _ => rfl, subBuilders fun _ => rfl, finalizer rfl, builder rfl, ?_⟩
    rw [filterMap_concat_some entries
      (show BuilderEntry.unrecognized? (.unrecognized s) = some s from rfl), ← holds.unrecognized]
    rfl

/-- The methods of the builder are entered one after the other. -/
theorem holds_of_foldlM {builderName valueName : String} {set : PropertySet}
    {methods : List Method} {parts parts' : BuilderParts} {before : List BuilderEntry}
    {log log' : Log} (holds : parts.Holds set.properties.length before)
    (h : (methods.foldlM (BuilderParts.add builderName valueName set) parts).runOn log =
      (.ok parts', log')) :
    ∃ entries, methods.Forall₂ (fun m e => BuilderEntry.IsFor set m e ∧
        e.setterPlace? = m.setterPlace? builderName set) entries ∧
      parts'.Holds set.properties.length (before ++ entries) := by
  induction methods generalizing parts before log with
  | nil =>
    obtain rfl := Except.ok.inj (Prod.mk.inj h).1
    exact ⟨[], .nil, by rwa [List.append_nil]⟩
  | cons m methods ih =>
    rw [List.foldlM_cons] at h
    obtain ⟨parts₁, log₁, hadd, h⟩ := Reporting.runOn_bind_ok h
    obtain ⟨e, hfor, hplace, rfl⟩ := entering_of_add hadd
    obtain ⟨entries, hfors, hholds⟩ := ih (holds.entering hplace) h
    exact ⟨e :: entries, .cons hfor hfors, by rwa [List.append_cons]⟩

end BuilderParts

/-! ### The model of a builder -/

/-- The places of the model are these entries, kind by kind and property by property. -/
structure BuilderModel.Holds (b : BuilderModel) (entries : List BuilderEntry) : Prop where
  setters : b.properties.map (·.setters) = (List.range b.properties.length).map fun i =>
    entries.filterMap (BuilderEntry.setter? i)
  subBuilders : b.properties.map (·.subBuilder.toList) =
    (List.range b.properties.length).map fun i => entries.filterMap (BuilderEntry.subBuilder? i)
  finalizeMethod : [b.finalizeMethod] = entries.filterMap BuilderEntry.finalizer?
  buildMethod : b.buildMethod.toList = entries.filterMap BuilderEntry.builder?
  unrecognized : b.unrecognized = entries.filterMap BuilderEntry.unrecognized?

/-- What things have, place by place, each thing has at its place. -/
theorem eq_of_map_eq_map_range {α β : Type} {f : α → β} {g : Nat → β} {as : List α}
    (h : as.map f = (List.range as.length).map g) {i : Nat} {a : α} (ha : as[i]? = some a) :
    f a = g i := by
  have hget := congrArg (·[i]?) h
  obtain ⟨hi, -⟩ := List.getElem?_eq_some_iff.mp ha
  rw [List.getElem?_map, List.getElem?_map, ha, List.getElem?_range hi] at hget
  exact Option.some.inj hget

namespace BuilderModel.Holds

variable {b : BuilderModel} {entries : List BuilderEntry} {i : Nat} {p : BuilderProperty}
  {f : Function}

/-- The setters of a property are those that entries have for its place. -/
theorem mem_setters (holds : b.Holds entries) (hp : b.properties[i]? = some p) :
    f ∈ p.setters ↔ .setter i f ∈ entries := by
  rw [eq_of_map_eq_map_range holds.setters hp]
  simp only [List.mem_filterMap, BuilderEntry.setter?_eq_some_iff, exists_eq_right]

theorem mem_of_subBuilder (holds : b.Holds entries) (hp : b.properties[i]? = some p)
    {s : SubBuilder} (hs : p.subBuilder = some s) : .subBuilder i s ∈ entries := by
  have hmem : s ∈ entries.filterMap (BuilderEntry.subBuilder? i) := by
    rw [← eq_of_map_eq_map_range holds.subBuilders hp, hs]
    exact List.mem_singleton_self s
  simpa only [List.mem_filterMap, BuilderEntry.subBuilder?_eq_some_iff, exists_eq_right] using hmem

theorem finalizer_mem (holds : b.Holds entries) : .finalizer b.finalizeMethod ∈ entries := by
  have hmem : b.finalizeMethod ∈ entries.filterMap BuilderEntry.finalizer? := by
    rw [← holds.finalizeMethod]
    exact List.mem_singleton_self _
  simpa only [List.mem_filterMap, BuilderEntry.finalizer?_eq_some_iff, exists_eq_right] using hmem

theorem mem_of_buildMethod (holds : b.Holds entries) (hf : b.buildMethod = some f) :
    .builder f ∈ entries := by
  have hmem : f ∈ entries.filterMap BuilderEntry.builder? := by
    rw [← holds.buildMethod, hf]
    exact List.mem_singleton_self f
  simpa only [List.mem_filterMap, BuilderEntry.builder?_eq_some_iff, exists_eq_right] using hmem

/-- The setters of all properties are those of the entries, if each entry is at one of the places. -/
theorem setters_perm (holds : b.Holds entries)
    (within : ∀ e ∈ entries, e.IsWithin b.properties.length) :
    (b.properties.flatMap (·.setters)).Perm (entries.filterMap BuilderEntry.anySetter?) := by
  rw [List.flatMap_def, holds.setters, ← List.flatMap_def]
  exact BuilderEntry.setters_perm within

theorem subBuilders_perm (holds : b.Holds entries)
    (within : ∀ e ∈ entries, e.IsWithin b.properties.length) :
    (b.properties.filterMap (·.subBuilder)).Perm
      (entries.filterMap BuilderEntry.anySubBuilder?) := by
  rw [List.filterMap_eq_flatMap_toList, List.flatMap_def, holds.subBuilders, ← List.flatMap_def]
  exact BuilderEntry.subBuilders_perm within

/-- All places are as many together as the entries, if each entry is at one of the places. -/
theorem length_eq (holds : b.Holds entries)
    (within : ∀ e ∈ entries, e.IsWithin b.properties.length) :
    (b.properties.flatMap (·.setters)).length + (b.properties.filterMap (·.subBuilder)).length +
      [b.finalizeMethod].length + b.buildMethod.toList.length + b.unrecognized.length =
        entries.length := by
  rw [(holds.setters_perm within).length_eq, (holds.subBuilders_perm within).length_eq,
    holds.finalizeMethod, holds.buildMethod, holds.unrecognized, BuilderEntry.length_eq]

end BuilderModel.Holds

/-- The builder has a property for each of the class, and every method of it has an entry, which sets
what the method does. -/
theorem BuilderModel.exists_setter_entries {builder value : TypeElement} {set : PropertySet}
    {b : BuilderModel} {log log' : Log}
    (h : (ofElement? builder value set).runOn log = (.ok (some b), log')) :
    b.properties.map (fun p => (p.name, p.type)) =
        set.properties.map (fun p => (p.name, p.type)) ∧
      ∃ entries, builder.methods.Forall₂ (fun m e => BuilderEntry.IsFor set m e ∧
          e.setterPlace? = m.setterPlace? builder.qualifiedName set) entries ∧
        b.Holds entries := by
  obtain ⟨parts, log₁, hparts, made⟩ := isMadeFrom_of_ofElement? h
  obtain ⟨entries, hfor, hholds⟩ :=
    BuilderParts.holds_of_foldlM (BuilderParts.holds_empty set.properties.length) hparts
  rw [List.nil_append] at hholds
  have hcount : parts.setters.length = set.properties.length := by
    rw [hholds.setters, List.length_map, List.length_range]
  have hcount' : parts.subBuilders.length = set.properties.length := by
    rw [← List.length_map (f := Option.toList), hholds.subBuilders, List.length_map,
      List.length_range]
  have hpairs : (parts.setters.zip parts.subBuilders).length = set.properties.length := by
    rw [List.length_zip, hcount, hcount', Nat.min_self]
  -- each list is a column of the properties of the model
  have hmodel := made.properties
  generalize hrows : set.properties.zip (parts.setters.zip parts.subBuilders) = rows at hmodel
  have hproperties : rows.map (·.1) = set.properties := by
    rw [← hrows, List.map_fst_zip (Nat.le_of_eq hpairs.symm)]
  have hcolumns : rows.map (·.2) = parts.setters.zip parts.subBuilders := by
    rw [← hrows, List.map_snd_zip (Nat.le_of_eq hpairs)]
  have hsetters : rows.map (·.2.1) = parts.setters := by
    rw [← List.map_fst_zip (Nat.le_of_eq (hcount.trans hcount'.symm)), ← hcolumns, List.map_map]
    rfl
  have hsubBuilders : rows.map (·.2.2) = parts.subBuilders := by
    rw [← List.map_snd_zip (Nat.le_of_eq (hcount'.trans hcount.symm)), ← hcolumns, List.map_map]
    rfl
  have hlength : b.properties.length = set.properties.length := by
    rw [hmodel, List.length_map, ← hproperties, List.length_map]
  refine ⟨?_, entries, hfor, ?_, ?_, ?_, ?_, made.unrecognized.trans hholds.unrecognized⟩
  · rw [hmodel, ← hproperties, List.map_map, List.map_map]
    rfl
  · rw [hlength, ← hholds.setters, ← hsetters, hmodel, List.map_map]
    rfl
  · rw [hlength, ← hholds.subBuilders, ← hsubBuilders, hmodel, List.map_map, List.map_map]
    rfl
  · rw [← hholds.finalizeMethod, made.finalizeMethod]
    rfl
  · rw [made.buildMethod]
    exact hholds.buildMethod

/-- The builder has a property for each of the class, and every method of it has an entry. -/
theorem BuilderModel.exists_entries {builder value : TypeElement} {set : PropertySet}
    {b : BuilderModel} {log log' : Log}
    (h : (ofElement? builder value set).runOn log = (.ok (some b), log')) :
    b.properties.map (fun p => (p.name, p.type)) =
        set.properties.map (fun p => (p.name, p.type)) ∧
      ∃ entries, builder.methods.Forall₂ (BuilderEntry.IsFor set) entries ∧ b.Holds entries := by
  obtain ⟨hproperties, entries, hfor, hholds⟩ := exists_setter_entries h
  exact ⟨hproperties, entries, hfor.imp fun _ _ hentry => hentry.1, hholds⟩

end DataClassGen
