import DataClassGen.Model.Enum
import DataClassGen.Proofs.Names
import Mathlib.Data.List.Forall2

/-!
# What is kept of an enum

The enums nested in an enum are converted one after the other, up to the first nested type that is
no enum, and only then are its methods looked at. So two recursions go down the tree at once: what
comes of an enum is made of its own members and of what came of the enums in it, and what is
reported is what was reported of those, with at most one error of its own behind (`ofElement?_eq`).
The errors are those about the elements that the conversion comes to (`mem_log_iff`), and there is
none just when the whole tree came through (`log_eq_nil_iff_keeps`).
-/

namespace DataClassGen

open Source

/-! ### Plain enums -/

/-- Nothing fails a test just when everything passes it. -/
theorem isNone_find?_not {α : Type} (p : α → Bool) (as : List α) :
    (as.find? (!p ·)).isNone = as.all p := by
  rw [Bool.eq_iff_iff]
  simp

namespace TypeElement

/-- The constants of an enum. -/
def enumConstants (e : TypeElement) : List Variable := e.fields.filter (·.kind == .enumConstant)

/-- The types nested directly in the element are all enums, and it has no methods but those that
every enum has. -/
def isPlain (e : TypeElement) : Bool :=
  e.nestedTypes.all (·.isEnum) && e.methods.all fun m => m.name == "values" || m.name == "valueOf"

/-- What holds of an element if it holds of all types nested in it holds of every element. -/
@[elab_as_elim]
theorem nestedInduction {motive : TypeElement → Prop} (e : TypeElement)
    (step : ∀ e : TypeElement, (∀ t ∈ e.nestedTypes, motive t) → motive e) : motive e := by
  refine step e fun t ht => ?_
  have : sizeOf t < sizeOf e.nestedTypes := List.sizeOf_lt_of_mem ht
  have : sizeOf e.nestedTypes < sizeOf e := by cases e; simp; omega
  exact nestedInduction t step
termination_by e

/-- Converting one element converts the other along with it: the other is the element itself, or it
is converted along with an enum nested in the element that nothing but enums stands before. -/
inductive Visits : TypeElement → TypeElement → Prop
  | self (e : TypeElement) : Visits e e
  | nested {e t u : TypeElement} (mem : t ∈ e.nestedTypes.takeWhile (·.isEnum))
      (inner : Visits t u) : Visits e u

/-- What is reported of an element for itself, whatever is reported of the types nested in it. -/
def complaint? (e : TypeElement) : Option Diagnostic :=
  match e.nestedTypes.find? (!·.isEnum), e.methods.find? (!·.isImplicitInEnum) with
  | some t, _ => some {
      severity := .error
      message := EnumModel.nestedNonEnum
      element := some t.qualifiedName }
  | none, some m => some {
      severity := .error
      message := EnumModel.enumWithMethods
      element := some (e.qualifiedName ++ "#" ++ m.name) }
  | none, none => none

/-- A plain element is one that gives no cause for complaint. -/
theorem isPlain_eq (e : TypeElement) : e.isPlain = e.complaint?.isNone := by
  have hplain : e.isPlain = ((e.nestedTypes.find? (!·.isEnum)).isNone &&
      (e.methods.find? (!·.isImplicitInEnum)).isNone) := by
    rw [isNone_find?_not, isNone_find?_not]
    rfl
  rw [hplain, complaint?]
  cases e.nestedTypes.find? (!·.isEnum) <;> cases e.methods.find? (!·.isImplicitInEnum) <;> rfl

/-- A complaint is an error about a type nested in the element or about one of its methods. -/
theorem complaint?_eq_some {e : TypeElement} {d : Diagnostic} (h : e.complaint? = some d) :
    d.severity = .error ∧ ((∃ t ∈ e.nestedTypes, d.element = some t.qualifiedName) ∨
      ∃ m ∈ e.methods, d.element = some (e.qualifiedName ++ "#" ++ m.name)) := by
  rw [complaint?] at h
  split at h
  · next t ht =>
    obtain rfl := Option.some.inj h
    exact ⟨rfl, Or.inl ⟨t, List.mem_of_find?_eq_some ht, rfl⟩⟩
  · next m _ hm =>
    obtain rfl := Option.some.inj h
    exact ⟨rfl, Or.inr ⟨m, List.mem_of_find?_eq_some hm, rfl⟩⟩
  · cases h

end TypeElement

namespace EnumModel

/-! ### The two recursions -/

theorem ofElements?_eq (es : List TypeElement) :
    ofElements? es =
      (if es.all (·.isEnum) then some (es.filterMap fun t => (ofElement? t).1) else none,
        ((es.takeWhile (·.isEnum)).flatMap fun t => (ofElement? t).2) ++
          ((es.find? (!·.isEnum)).map fun t => {
            severity := .error
            message := nestedNonEnum
            element := some t.qualifiedName : Diagnostic }).toList) := by
  induction es with
  | nil => rfl
  | cons e es ih =>
    rw [ofElements?, List.all_cons, List.takeWhile_cons, List.find?_cons, List.filterMap_cons, ih]
    cases he : e.isEnum with
    | false => simp
    | true =>
      cases hall : es.all (·.isEnum) with
      | false => simp
      | true => cases hmodel : (ofElement? e).1 <;> simp [hmodel]

/-- What comes of an enum, and what is reported of it. The enum comes through if it is plain, and
keeps what came of the enums nested in it. What is reported is what is reported of these, as far as
they are looked at, and then what is reported of the enum for itself. -/
theorem ofElement?_eq (e : TypeElement) :
    ofElement? e =
      (if e.isPlain then some {
          cls := .inPackage e.package e.qualifiedName
          visibility := visibilityOf e.modifiers
          doc := Doc.clean? e.doc
          annotations := annotationsOf e.annotations e.enumConstants
          entries := e.enumConstants.map entryOf
          nested := e.nestedTypes.filterMap fun t => (ofElement? t).1 }
        else none,
        ((e.nestedTypes.takeWhile (·.isEnum)).flatMap fun t => (ofElement? t).2) ++
          e.complaint?.toList) := by
  obtain ⟨qualifiedName, package, kind, modifiers, annotations, doc, superclass, interfaces,
    typeParameters, fields, methods, nestedTypes, enclosing⟩ := e
  have hall := isNone_find?_not (·.isEnum) nestedTypes
  rw [TypeElement.isPlain_eq, ofElement?, ofElements?_eq]
  cases hnested : nestedTypes.find? (!·.isEnum) with
  | some t =>
    rw [hnested] at hall
    simp [TypeElement.complaint?, hnested, ← hall]
  | none =>
    rw [hnested] at hall
    cases hmethods : methods.find? (!·.isImplicitInEnum) with
    | some m => simp [TypeElement.complaint?, hnested, hmethods, ← hall]
    | none => simp [TypeElement.complaint?, TypeElement.enumConstants, hnested, hmethods, ← hall]

/-! ### What comes through -/

/-- The results of those that have one, each with what it is the result of. -/
theorem forall₂_filterMap {α β : Type} {f : α → Option β} {p : α → Bool} {as : List α}
    (h : ∀ a ∈ as, (f a).isSome = p a) :
    (as.filter p).Forall₂ (fun a b => f a = some b) (as.filterMap f) := by
  induction as with
  | nil => exact .nil
  | cons a as ih =>
    have ih := ih fun a' ha' => h a' (List.mem_cons_of_mem _ ha')
    rw [List.filter_cons, List.filterMap_cons, ← h a List.mem_cons_self]
    cases hb : f a with
    | none => exact ih
    | some b => exact .cons hb ih

/-- The model keeps the constants of an element in their order and, of the types nested in it, those
that pass the test, in their order too and each in the same way. -/
inductive Keeps (p : TypeElement → Bool) : TypeElement → EnumModel → Prop
  | intro {e : TypeElement} {d : EnumModel}
      (cls : d.cls = .inPackage e.package e.qualifiedName)
      (entries : d.entries = e.enumConstants.map entryOf)
      (nested : (e.nestedTypes.filter p).Forall₂ (Keeps p) d.nested) : Keeps p e d

theorem isSome_ofElement? (e : TypeElement) : (ofElement? e).1.isSome = e.isPlain := by
  rw [ofElement?_eq]
  cases e.isPlain <;> rfl

theorem ofElement?_eq_some {e : TypeElement} {d : EnumModel} (h : (ofElement? e).1 = some d) :
    d = {
      cls := .inPackage e.package e.qualifiedName
      visibility := visibilityOf e.modifiers
      doc := Doc.clean? e.doc
      annotations := annotationsOf e.annotations e.enumConstants
      entries := e.enumConstants.map entryOf
      nested := e.nestedTypes.filterMap fun t => (ofElement? t).1 } := by
  rw [ofElement?_eq] at h
  exact (Option.some.inj (Option.ite_none_right_eq_some.mp h).2).symm

/-- The model of an enum has the enum's name. -/
theorem cls_of_ofElement? {e : TypeElement} {d : EnumModel} (h : (ofElement? e).1 = some d) :
    d.cls = .inPackage e.package e.qualifiedName := by
  rw [ofElement?_eq_some h]

/-- The enums kept of those nested in one are what comes of the plain ones. -/
theorem forall₂_nested {e : TypeElement} {d : EnumModel} (h : (ofElement? e).1 = some d) :
    (e.nestedTypes.filter (·.isPlain)).Forall₂ (fun t n => (ofElement? t).1 = some n) d.nested := by
  rw [ofElement?_eq_some h]
  exact forall₂_filterMap fun t _ => isSome_ofElement? t

theorem keeps_of_ofElement? (e : TypeElement) :
    ∀ {d : EnumModel}, (ofElement? e).1 = some d → Keeps (·.isPlain) e d := by
  induction e using TypeElement.nestedInduction with
  | step e ih =>
    intro d h
    have hnested := (List.forall₂_and_left _ _).mpr
      ⟨fun t ht => List.mem_of_mem_filter ht, forall₂_nested h⟩
    exact .intro (cls_of_ofElement? h) (by rw [ofElement?_eq_some h])
      (hnested.imp fun t n ⟨ht, hn⟩ => ih t ht hn)

/-- An enum that names a constant in JSON says a word on JSON adapters. -/
theorem exists_jsonClass_mem_annotationsOf {annotations : List AnnotationUse}
    {constants : List Variable} (h : constants.any (·.hasJsonName) = true) :
    ∃ a ∈ annotationsOf annotations constants, a.cls.simpleName = "JsonClass" := by
  rw [annotationsOf, h, Bool.true_and]
  cases hcarried : (classAnnotations annotations).any (·.cls.simpleName == "JsonClass") with
  | true =>
    obtain ⟨a, ha, hname⟩ := List.any_eq_true.mp hcarried
    exact ⟨a, ha, eq_of_beq hname⟩
  | false => exact ⟨_, List.mem_append_right _ List.mem_cons_self, by decide⟩

/-- A constant with the annotation that names it in JSON had that annotation in the source. -/
theorem hasJsonName_of_mem_annotations {v : Variable} {a : Annotation}
    (ha : a ∈ (entryOf v).annotations) (hname : a.cls.canonical = jsonNameAnnotation) :
    v.hasJsonName = true := by
  obtain ⟨use, huse, rfl⟩ := List.mem_map.mp ha
  have : use.typeName = jsonNameAnnotation :=
    ClassName.eq_of_canonical_ofCanonical hname (by decide)
  exact List.any_eq_true.mpr ⟨use, huse, beq_iff_eq.mpr this⟩

/-! ### What is reported -/

/-- What is reported are the complaints about the elements that the conversion comes to. -/
theorem mem_log_iff {e : TypeElement} {report : Diagnostic} :
    report ∈ (ofElement? e).2 ↔ ∃ u, e.Visits u ∧ u.complaint? = some report := by
  induction e using TypeElement.nestedInduction with
  | step e ih =>
    rw [ofElement?_eq, List.mem_append, List.mem_flatMap, Option.mem_toList]
    constructor
    · rintro (⟨t, ht, hreport⟩ | hreport)
      · obtain ⟨u, hu, hcomplaint⟩ := (ih t ((List.takeWhile_sublist _).subset ht)).mp hreport
        exact ⟨u, .nested ht hu, hcomplaint⟩
      · exact ⟨e, .self e, hreport⟩
    · rintro ⟨u, ⟨_⟩ | ⟨ht, hu⟩, hcomplaint⟩
      · exact Or.inr hcomplaint
      · exact Or.inl ⟨_, ht, (ih _ ((List.takeWhile_sublist _).subset ht)).mpr ⟨u, hu, hcomplaint⟩⟩

/-- About an enum on the way that does not come through there is an error: about one of its methods,
or about a type nested in it. -/
theorem reported_of_none {e u : TypeElement} (hu : e.Visits u) (hnone : (ofElement? u).1 = none) :
    ∃ report ∈ (ofElement? e).2, report.severity = .error ∧
      ((∃ t ∈ u.nestedTypes, report.element = some t.qualifiedName) ∨
        ∃ m ∈ u.methods, report.element = some (u.qualifiedName ++ "#" ++ m.name)) := by
  have hcomplaint : u.complaint?.isNone = false := by
    rw [← TypeElement.isPlain_eq, ← isSome_ofElement?, hnone, Option.isSome_none]
  obtain ⟨report, hreport⟩ := Option.isSome_iff_exists.mp (Option.isNone_eq_false_iff.mp hcomplaint)
  exact ⟨report, mem_log_iff.mpr ⟨u, hu, hreport⟩, TypeElement.complaint?_eq_some hreport⟩

/-- Nothing is reported just when the enum is plain and nothing is reported of those in it. -/
theorem log_eq_nil_iff {e : TypeElement} :
    (ofElement? e).2 = [] ↔ e.isPlain = true ∧ ∀ t ∈ e.nestedTypes, (ofElement? t).2 = [] := by
  rw [ofElement?_eq, List.append_eq_nil_iff, List.flatMap_eq_nil_iff, Option.toList_eq_nil_iff,
    TypeElement.isPlain_eq, Option.isNone_iff_eq_none, and_comm]
  refine and_congr_right fun hplain => ?_
  have henums : e.nestedTypes.takeWhile (·.isEnum) = e.nestedTypes := by
    rw [← Option.isNone_iff_eq_none, ← TypeElement.isPlain_eq, TypeElement.isPlain,
      Bool.and_eq_true, List.all_eq_true] at hplain
    exact List.takeWhile_eq_self_iff.mpr hplain.1
  rw [henums]

/-- Nothing is reported just when the whole tree came through, at every depth. -/
theorem log_eq_nil_iff_keeps (e : TypeElement) :
    (ofElement? e).2 = [] ↔ ∃ d, (ofElement? e).1 = some d ∧ Keeps (fun _ => true) e d := by
  induction e using TypeElement.nestedInduction with
  | step e ih =>
    rw [log_eq_nil_iff, ← isSome_ofElement?, Option.isSome_iff_exists]
    constructor
    · rintro ⟨⟨d, hd⟩, hsilent⟩
      have hplain : e.nestedTypes.filter (·.isPlain) = e.nestedTypes := by
        refine List.filter_eq_self.mpr fun t ht => ?_
        obtain ⟨n, hn, -⟩ := (ih t ht).mp (hsilent t ht)
        rw [← isSome_ofElement?, hn, Option.isSome_some]
      have hnested := forall₂_nested hd
      rw [hplain] at hnested
      refine ⟨d, hd, .intro (cls_of_ofElement? hd) (by rw [ofElement?_eq_some hd]) ?_⟩
      rw [List.filter_true]
      refine ((List.forall₂_and_left _ _).mpr ⟨fun _ => id, hnested⟩).imp fun t n ⟨ht, hn⟩ => ?_
      obtain ⟨n', hn', hkeeps⟩ := (ih t ht).mp (hsilent t ht)
      obtain rfl := Option.some.inj (hn.symm.trans hn')
      exact hkeeps
    · rintro ⟨d, hd, ⟨-, -, hkept⟩⟩
      refine ⟨⟨d, hd⟩, ?_⟩
      rw [List.filter_true] at hkept
      -- as many enums were kept as there are, so each of them is plain
      have hnested := forall₂_nested hd
      have hplain : e.nestedTypes.filter (·.isPlain) = e.nestedTypes :=
        List.filter_sublist.eq_of_length (hnested.length_eq.trans hkept.length_eq.symm)
      rw [hplain] at hnested
      have hsilent : e.nestedTypes.Forall₂
          (fun t n => (ofElement? t).2 = [] ∧ (ofElement? t).1 = some n) d.nested :=
        .mp (fun t n ⟨ht, hn⟩ hkeeps => ⟨(ih t ht).mpr ⟨n, hn, hkeeps⟩, hn⟩)
          ((List.forall₂_and_left _ _).mpr ⟨fun _ => id, hnested⟩) hkept
      exact ((List.forall₂_and_left _ _).mp hsilent).1

/-- All that is reported of an enum are errors. -/
theorem hasErrors_eq_false_iff {e : TypeElement} :
    (ofElement? e).2.hasErrors = false ↔ (ofElement? e).2 = [] := by
  have herrors : (ofElement? e).2.ofSeverity .error = (ofElement? e).2 := by
    refine List.filter_eq_self.mpr fun report hreport => ?_
    obtain ⟨u, -, hu⟩ := mem_log_iff.mp hreport
    exact beq_iff_eq.mpr (TypeElement.complaint?_eq_some hu).1
  rw [Log.hasErrors, Log.count, herrors, decide_eq_false_iff_not, Nat.pos_iff_ne_zero, not_not,
    List.length_eq_zero_iff]

/-- **Enums are kept as far as they can be.** An enum comes through just when it is plain; its
constants come in their order, and the enums nested in it are what comes of the plain ones, in their
order too, and so on at every depth. No error is reported just when nothing of the tree is left out,
and for each enum on the way that does not come through there is an error about a type nested in it
or about one of its methods. An enum with a constant that is named in JSON says a word on JSON
adapters. -/
theorem enums_keep_what_is_plain (e : TypeElement) :
    ((∃ d, (ofElement? e).1 = some d) ↔ e.isPlain = true) ∧
    (∀ d, (ofElement? e).1 = some d →
      d.entries = e.enumConstants.map entryOf ∧
      (e.nestedTypes.filter (·.isPlain)).Forall₂ (fun t n => (ofElement? t).1 = some n) d.nested ∧
      Keeps (·.isPlain) e d ∧
      ((∃ entry ∈ d.entries, ∃ a ∈ entry.annotations,
          a.cls.canonical = "com.squareup.moshi.Json") →
        ∃ a ∈ d.annotations, a.cls.simpleName = "JsonClass")) ∧
    ((ofElement? e).2.hasErrors = false ↔
      ∃ d, (ofElement? e).1 = some d ∧ Keeps (fun _ => true) e d) ∧
    ∀ u, e.Visits u → (ofElement? u).1 = none → ∃ report ∈ (ofElement? e).2,
      report.severity = .error ∧
        ((∃ t ∈ u.nestedTypes, report.element = some t.qualifiedName) ∨
          ∃ m ∈ u.methods, report.element = some (u.qualifiedName ++ "#" ++ m.name)) := by
  refine ⟨by rw [← isSome_ofElement?, Option.isSome_iff_exists], fun d hd => ?_,
    hasErrors_eq_false_iff.trans (log_eq_nil_iff_keeps e), fun u => reported_of_none⟩
  refine ⟨by rw [ofElement?_eq_some hd], forall₂_nested hd, keeps_of_ofElement? e hd, ?_⟩
  rintro ⟨entry, hentry, a, ha, hname⟩
  rw [ofElement?_eq_some hd] at hentry ⊢
  obtain ⟨v, hv, rfl⟩ := List.mem_map.mp hentry
  exact exists_jsonClass_mem_annotationsOf
    (List.any_eq_true.mpr ⟨v, hv, hasJsonName_of_mem_annotations ha hname⟩)

/-- An enum that is plain. -/
def plainSize : TypeElement :=
  { qualifiedName := "test.Size.Unit"
    package := "test"
    kind := .enumType
    fields := [{ name := "CM", type := .declared "test.Size.Unit" [], kind := .enumConstant }] }

/-- An enum with a method of its own. -/
def talkativeSize : TypeElement :=
  { qualifiedName := "test.Size.Fit"
    package := "test"
    kind := .enumType
    methods := [
      { name := "values", modifiers := [.static]
        returnType := .array (.declared "test.Size.Fit" []) },
      { name := "label", returnType := .declared "java.lang.String" [] }] }

/-- An enum with these two in it, and with a constant that is named in JSON. -/
def sizeEnum : TypeElement :=
  { qualifiedName := "test.Size"
    package := "test"
    kind := .enumType
    fields := [
      { name := "SMALL", type := .declared "test.Size" [], kind := .enumConstant
        annotations := [
          { typeName := jsonNameAnnotation, members := [("name", .string "s")] }] }]
    nestedTypes := [plainSize, talkativeSize] }

/-- Of the two enums in this one the first is kept, and there is an error about a method of the
other. -/
theorem talkative_size_is_left_out :
    ∃ d n, (ofElement? sizeEnum).1 = some d ∧ (ofElement? plainSize).1 = some n ∧ d.nested = [n] ∧
      d.entries.map (·.name) = ["SMALL"] ∧ (∃ a ∈ d.annotations, a.cls.simpleName = "JsonClass") ∧
      ∃ report ∈ (ofElement? sizeEnum).2, report.severity = .error ∧
        ∃ m ∈ talkativeSize.methods,
          report.element = some (talkativeSize.qualifiedName ++ "#" ++ m.name) := by
  obtain ⟨hcomes, hkeeps, -, hreports⟩ := enums_keep_what_is_plain sizeEnum
  obtain ⟨d, hd⟩ := hcomes.mpr (by decide)
  obtain ⟨hentries, hnested, -, hjson⟩ := hkeeps d hd
  have hplain : sizeEnum.nestedTypes.filter (·.isPlain) = [plainSize] := by
    simp [sizeEnum, plainSize, talkativeSize, TypeElement.isPlain]
  rw [hplain] at hnested
  obtain ⟨n, rest, hn, hrest, hlist⟩ := List.forall₂_cons_left_iff.mp hnested
  rw [List.forall₂_nil_left_iff.mp hrest] at hlist
  obtain ⟨report, hreport, herror, habout⟩ := hreports talkativeSize
    (.nested (t := talkativeSize) (by simp [sizeEnum, plainSize, talkativeSize, TypeElement.isEnum])
      (.self _))
    (by rw [ofElement?_eq]; rfl)
  refine ⟨d, n, hd, hn, hlist, ?_, hjson ?_, report, hreport, herror, ?_⟩
  · rw [hentries]
    rfl
  · rw [hentries]
    exact ⟨_, List.mem_cons_self, _, List.mem_cons_self, by decide⟩
  · rcases habout with ⟨t, ht, -⟩ | hmethod
    · cases ht
    · exact hmethod

end EnumModel

end DataClassGen
