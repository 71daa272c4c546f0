import DataClassGen.Proofs.Model.PropertyNames

/-!
# The property that a method is for

A method `withX` of a value class changes the property `x`, and a method `setX` of its builder sets
it. The two names are read in opposite directions: of the first, the first letter of what follows
`with` is made small, and of the second, what follows `set` is compared with the names of the
properties, their first letters made capitals. Both find the same property unless a letter does not
come back: `withx` changes `x`, which only `setX` sets, and `setURL` sets `URL`, which nothing
changes (`changed_is_set_iff`).

The names that accessors of beans go on with are capitals already. If those are of ASCII and no two
of the names are the same, each of them with `set` in front sets its own property
(`setters_of_beans`).
-/

namespace DataClassGen

open Source

/-! ### Names for changing and for setting -/

/-- Two searches find the same if what the one finds is something that the other looks for. -/
theorem find?_eq_find?_of_found {α : Type} {p q : α → Bool} {as : List α}
    (hp : ∀ a, as.find? p = some a → q a = true) (hq : ∀ a, as.find? q = some a → p a = true) :
    as.find? p = as.find? q := by
  induction as with
  | nil => rfl
  | cons a as ih =>
    by_cases hpa : p a = true
    · have hqa := hp a (List.find?_cons_of_pos hpa)
      rw [List.find?_cons_of_pos hpa, List.find?_cons_of_pos hqa]
    · have hqa : ¬q a = true := fun hqa => hpa (hq a (List.find?_cons_of_pos hqa))
      rw [List.find?_cons_of_neg hpa] at hp ⊢
      rw [List.find?_cons_of_neg hqa] at hq ⊢
      exact ih hp hq

namespace PropertySet

variable {set : PropertySet} {suffix : String} {p : ValueProperty}

/-- The property that a method of the class changes if it has this name: `withX` changes `x`. -/
def changedBy? (set : PropertySet) (method : String) : Option ValueProperty :=
  (Text.after? "with" method).bind fun rest => set.find? (lowercaseFirst rest)

/-- The property that a method of the builder sets if it has this name and no property has: `setX`
sets `x`. -/
def setBy? (set : PropertySet) (method : String) : Option ValueProperty :=
  set.properties.find? fun p => method == "set" ++ capitalize p.name

/-- A method of the builder sets the property of its own name, or else the one by the prefix. -/
theorem getElem?_setterTarget? (set : PropertySet) (method : String) :
    (set.setterTarget? method).bind (set.properties[·]?) =
      (set.find? method).or (set.setBy? method) := by
  have hfind : set.find? method = set.properties.find? fun p => method == p.name := by
    simp only [find?, Bool.beq_comm]
  rw [hfind, setBy?, List.find?_eq_bind_findIdx?_getElem?, List.find?_eq_bind_findIdx?_getElem?,
    setterTarget?]
  cases hname : set.properties.findIdx? fun p => method == p.name with
  | none => rfl
  | some i =>
    obtain ⟨hi, -⟩ := List.findIdx?_eq_some_iff_getElem.mp hname
    simp [hi]

theorem changedBy?_with (set : PropertySet) (suffix : String) :
    set.changedBy? ("with" ++ suffix) =
      set.properties.find? fun p => p.name == lowercaseFirst suffix := by
  rw [changedBy?, Text.after?_append]
  rfl

theorem setBy?_set (set : PropertySet) (suffix : String) :
    set.setBy? ("set" ++ suffix) = set.properties.find? fun p => suffix == capitalize p.name := by
  simp [setBy?, String.append_right_inj, beq_eq_decide]

theorem mem_of_changedBy?_with (h : set.changedBy? ("with" ++ suffix) = some p) :
    p ∈ set.properties ∧ lowercaseFirst suffix = p.name := by
  rw [changedBy?_with] at h
  have hname := List.find?_some h
  exact ⟨List.mem_of_find?_eq_some h, (beq_iff_eq.mp hname).symm⟩

theorem mem_of_setBy?_set (h : set.setBy? ("set" ++ suffix) = some p) :
    p ∈ set.properties ∧ suffix = capitalize p.name := by
  rw [setBy?_set] at h
  have hname := List.find?_some h
  exact ⟨List.mem_of_find?_eq_some h, beq_iff_eq.mp hname⟩

/-- If the letters come back, the property that is changed is the one that is set. -/
theorem changedBy?_eq_setBy?
    (hupper : ∀ p, set.changedBy? ("with" ++ suffix) = some p → startsUpper suffix = true)
    (hlower : ∀ p, set.setBy? ("set" ++ suffix) = some p → startsLower p.name = true) :
    set.changedBy? ("with" ++ suffix) = set.setBy? ("set" ++ suffix) := by
  have hchanged (p : ValueProperty) (hp : set.changedBy? ("with" ++ suffix) = some p) :
      suffix = capitalize p.name :=
    (eq_capitalize_iff (mem_of_changedBy?_with hp).2).mpr (hupper p hp)
  have hset (p : ValueProperty) (hp : set.setBy? ("set" ++ suffix) = some p) :
      lowercaseFirst suffix = p.name :=
    (lowercaseFirst_eq_iff (mem_of_setBy?_set hp).2).mpr (hlower p hp)
  rw [changedBy?_with, setBy?_set] at *
  exact find?_eq_find?_of_found (fun p hp => beq_iff_eq.mpr (hchanged p hp))
    fun p hp => beq_iff_eq.mpr (hset p hp).symm

end PropertySet

/-- An abstract method becomes a function that takes the property which its name tells, if it tells
one. -/
theorem ClassContext.parameters_of_wither? {c : ClassContext} {toBuilder : Option Function}
    {m : Method} {f? : Option Function} (habstract : m.isAbstract = true)
    (h : c.wither? toBuilder m = .ok f?) :
    f?.map (·.parameters) = (c.properties.changedBy? m.name).map fun p =>
      [{ name := p.name, type := p.type }] := by
  unfold wither? at h
  split at h
  · next hnone =>
    obtain rfl := Except.ok.inj h
    rw [PropertySet.changedBy?, hnone]
    rfl
  · next p hp =>
    obtain ⟨parameters, -, h⟩ := bind_ok_iff.mp h
    obtain ⟨resultType, -, h⟩ := bind_ok_iff.mp h
    rw [isValidWither, habstract, Bool.true_or, if_pos rfl] at h
    obtain rfl := Except.ok.inj h
    rw [PropertySet.changedBy?, hp]
    rfl

namespace PropertySet

/-- The method of the class that goes on with this behind `with` is for the same property as the
method of the builder that goes on with it behind `set`, or neither is for one. -/
def AgreesOn (set : PropertySet) (suffix : String) : Prop :=
  ∀ p, set.changedBy? ("with" ++ suffix) = some p ↔ set.setBy? ("set" ++ suffix) = some p

theorem agreesOn_iff {set : PropertySet} {suffix : String} : set.AgreesOn suffix ↔
    (∀ p, set.changedBy? ("with" ++ suffix) = some p → startsUpper suffix = true) ∧
      ∀ p, set.setBy? ("set" ++ suffix) = some p → startsLower p.name = true := by
  constructor
  · intro hsame
    constructor
    · intro p hp
      have hset := (mem_of_setBy?_set ((hsame p).mp hp)).2
      exact (eq_capitalize_iff (mem_of_changedBy?_with hp).2).mp hset
    · intro p hp
      have hchanged := (mem_of_changedBy?_with ((hsame p).mpr hp)).2
      exact (lowercaseFirst_eq_iff (mem_of_setBy?_set hp).2).mp hchanged
  · rintro ⟨hupper, hlower⟩ p
    rw [changedBy?_eq_setBy? hupper hlower]

/-- A method `withX` of the class and a method `setX` of its builder are for the same property just
when letters come back from the other case: if a property is changed, the first letter of `X` is the
capital of its small letter, and if a property is set, the first letter of its name is the small
letter of its capital. With a capital of ASCII in `X`, and names that begin with characters of
ASCII, this leaves out only a property that is set and begins with a capital. -/
theorem changed_is_set_iff (set : PropertySet) (suffix : String) :
    (set.AgreesOn suffix ↔
      (∀ p, set.changedBy? ("with" ++ suffix) = some p → startsUpper suffix = true) ∧
      ∀ p, set.setBy? ("set" ++ suffix) = some p → startsLower p.name = true) ∧
    (startsAsciiCapital suffix = true →
      (∀ p ∈ set.properties, ∀ c ∈ p.name.toList.head?, c.toNat < 128) →
      (set.AgreesOn suffix ↔
        ∀ p, set.setBy? ("set" ++ suffix) = some p → startsAsciiCapital p.name = false)) := by
  refine ⟨agreesOn_iff, fun hcapital hascii => agreesOn_iff.trans ?_⟩
  have hletter (p : ValueProperty) (hp : set.setBy? ("set" ++ suffix) = some p) :
      startsLower p.name = !startsAsciiCapital p.name :=
    startsLower_ascii (hascii p (mem_of_setBy?_set hp).1)
  constructor
  · rintro ⟨-, hlower⟩ p hp
    exact Bool.not_eq_eq_eq_not.mp ((hletter p hp).symm.trans (hlower p hp))
  · intro hsmall
    refine ⟨fun _ _ => startsUpper_of_startsAsciiCapital hcapital, fun p hp => ?_⟩
    rw [hletter p hp, hsmall p hp]
    rfl

end PropertySet

/-- A value class with one property, a method to change it, and a builder to set it. -/
def linkElement : TypeElement :=
  let link : TypeUse := .declared "test.Link" []
  let builder : TypeUse := .declared "test.Link.Builder" []
  let url : Variable := { name := "url", type := .declared "java.net.URL" [] }
  { qualifiedName := "test.Link"
    package := "test"
    annotations := [{ typeName := valueClassMarker }]
    methods := [
      { name := "getURL", modifiers := [.abstract], returnType := url.type },
      { name := "withURL", modifiers := [.abstract], returnType := link, parameters := [url] }]
    nestedTypes := [{
      qualifiedName := "test.Link.Builder"
      package := "test"
      annotations := [{ typeName := builderMarker }]
      methods := [
        { name := "setURL", modifiers := [.abstract], returnType := builder, parameters := [url] },
        { name := "build", modifiers := [.abstract], returnType := link }] }] }

/-- The property is `URL`. The builder sets it, but the method to change it is left to be moved by
hand: it is taken for one that changes `uRL`. -/
theorem link_url_is_set_but_not_changed : ∃ model p log,
    (ClassModel.ofElement? linkElement []).runOn [] = (.ok (some model), log) ∧
    model.properties.properties = [p] ∧ p.name = "URL" ∧
    model.properties.setBy? ("set" ++ "URL") = some p ∧
    model.properties.changedBy? ("with" ++ "URL") = none ∧
    model.withers = [] ∧ model.unrecognized = ["abstract test.Link withURL(...)"] ∧
    ¬model.properties.AgreesOn "URL" := by
  have hfound : ((ClassModel.ofElement? linkElement []).runOn []).1.map (·.map fun model =>
      (model.properties.properties.map (·.name),
        (model.properties.setBy? ("set" ++ "URL")).map (·.name),
        (model.properties.changedBy? ("with" ++ "URL")).map (·.name))) =
      .ok (some (["URL"], some "URL", none)) := by decide +kernel
  have hleft : ((ClassModel.ofElement? linkElement []).runOn []).1.map (·.map fun model =>
      (model.withers, model.unrecognized)) =
      .ok (some ([], ["abstract test.Link withURL(...)"])) := by decide +kernel
  obtain ⟨model, d, log, hmodel, -⟩ :=
    ClassModel.exists_of_hasDeclaration linkElement (by decide +kernel)
  rw [hmodel] at hfound hleft
  simp only [Except.map, Option.map_some, Except.ok.injEq, Option.some.injEq, Prod.mk.injEq,
    Option.map_eq_some_iff, Option.map_eq_none_iff] at hfound hleft
  obtain ⟨hnames, ⟨p, hset, hname⟩, hchanged⟩ := hfound
  obtain ⟨hwithers, hunrecognized⟩ := hleft
  obtain ⟨q, hproperties, hq⟩ := List.map_eq_singleton_iff.mp hnames
  have hmem := (PropertySet.mem_of_setBy?_set hset).1
  rw [hproperties, List.mem_singleton] at hmem
  have hascii : ∀ p ∈ model.properties.properties, ∀ c ∈ p.name.toList.head?, c.toNat < 128 := by
    intro p' hp' c hc
    rw [hproperties, List.mem_singleton] at hp'
    rw [hp', ← hmem, hname] at hc
    obtain rfl : 'U' = c := Option.some.inj hc
    decide
  refine ⟨model, p, log, hmodel, hmem ▸ hproperties, hname, hset, hchanged, hwithers,
    hunrecognized, fun hsame => ?_⟩
  have hsmall := ((PropertySet.changed_is_set_iff model.properties "URL").2 rfl hascii).mp hsame
  have hletter := hsmall p hset
  rw [hname] at hletter
  exact absurd hletter (by decide)

/-! ### Setters of beans -/

/-- A name with `set` in front sets the property at its place, if the properties with capitals are
different names and no property has that name already. -/
theorem PropertySet.setterTarget?_set {set : PropertySet} {names : List String} {name : String}
    {i : Nat} (hnames : set.properties.map (fun p => capitalize p.name) = names)
    (hnodup : names.Nodup) (hi : names[i]? = some name)
    (hfree : ∀ p ∈ set.properties, p.name ≠ "set" ++ name) :
    set.setterTarget? ("set" ++ name) = some i := by
  have hown : (set.properties.findIdx? fun p => "set" ++ name == p.name) = none := by
    rw [List.findIdx?_eq_none_iff]
    intro p hp
    exact beq_eq_false_iff_ne.mpr (hfree p hp).symm
  rw [setterTarget?, hown]
  subst hnames
  obtain ⟨hlength, hname⟩ := List.getElem?_eq_some_iff.mp hi
  have hi' : i < set.properties.length := by rwa [List.length_map] at hlength
  have hcapitalized : name = capitalize set.properties[i].name := by
    rw [← hname, List.getElem_map]
  rw [List.findIdx?_eq_some_iff_getElem]
  refine ⟨hi', beq_iff_eq.mpr (congrArg ("set" ++ ·) hcapitalized), fun j hj => ?_⟩
  have hdiffer := List.pairwise_iff_getElem.mp hnodup j i (by omega) hlength hj
  rw [List.getElem_map, List.getElem_map] at hdiffer
  rw [beq_iff_eq, String.append_right_inj, hcapitalized]
  exact hdiffer.symm

/-- The names of the properties of beans, with capitals, are what the names of the accessors go on
with. -/
theorem PropertySet.capitalized_names_of_beans {builder : Option String} {e : TypeElement}
    {set : PropertySet} {rests : List String} (h : ofElement builder e = .ok set)
    (hbeans : (e.accessorsBeside builder).Forall₂
      (fun m rest => m.IsBeanNamed rest ∧ startsAsciiCapital rest = true) rests) :
    set.properties.map (fun p => capitalize p.name) = rests := by
  have hnames := map_name_of_ofElement h
  generalize e.accessorsBeside builder = accessors at hbeans hnames
  have hnamed : accessors.Forall₂
      (fun m rest => m.beanName? = some rest ∧ startsAsciiCapital rest = true) rests :=
    hbeans.imp fun m rest hm => ⟨Method.beanName?_of_isBeanNamed hm.1 hm.2, hm.2⟩
  have hall : (accessors.all fun m => m.beanName?.isSome) = true := by
    rw [List.all_eq_true]
    intro m hm
    obtain ⟨rest, -, hrest, -⟩ := exists_of_mem_forall₂ hnamed.flip hm
    exact Option.isSome_iff_exists.mpr ⟨rest, hrest⟩
  have hcapital (m : Method) (rest : String)
      (hm : m.beanName? = some rest ∧ startsAsciiCapital rest = true) :
      rest = capitalize (propertyName true m) := by
    rw [propertyName_of_beans hm.1, capitalize_decapitalize hm.2]
  calc set.properties.map (fun p => capitalize p.name)
      = (set.properties.map (·.name)).map capitalize := by
        rw [List.map_map]
        rfl
    _ = accessors.map fun m => capitalize (propertyName true m) := by
        rw [hnames, hall, List.map_map]
        rfl
    _ = rests.map id := (map_of_forall₂ hcapital hnamed).symm
    _ = rests := List.map_id rests

/-- Let the accessors of a class have the prefixes of beans, and let what their names go on with
begin with capitals of ASCII and differ. Then it is what the names of the properties are with
capitals. In a builder of the class, an abstract method that returns the builder and has one of
these names behind `set` becomes a setter of the property at its place, and of no other, unless some
property has that name itself. -/
theorem setters_of_beans {e builder : TypeElement} {set : PropertySet} {rests : List String}
    (hset : PropertySet.ofElement (some builder.qualifiedName) e = .ok set)
    (hbeans : (e.accessorsBeside (some builder.qualifiedName)).Forall₂
      (fun m rest => m.IsBeanNamed rest ∧ startsAsciiCapital rest = true) rests)
    (hnodup : rests.Nodup) :
    set.properties.map (fun p => capitalize p.name) = rests ∧
    ∀ b log log', (BuilderModel.ofElement? builder e set).runOn log = (.ok (some b), log') →
      b.properties.map (·.name) = set.properties.map (·.name) ∧
      ∀ (i : Nat) rest, rests[i]? = some rest → (∀ p ∈ set.properties, p.name ≠ "set" ++ rest) →
        ∀ m ∈ builder.methods, m.isAbstract = true →
          m.returnType.isDeclared builder.qualifiedName = true → m.name = "set" ++ rest →
          ∃ f, m.toFunction = .ok f ∧
            ∀ (j : Nat) p, b.properties[j]? = some p → (f ∈ p.setters ↔ j = i) := by
  have hnames := PropertySet.capitalized_names_of_beans hset hbeans
  refine ⟨hnames, fun b log log' hrun => ?_⟩
  have hfor := BuilderModel.isFor_of_ofElement? hrun
  obtain ⟨-, entries, hentries, holds⟩ := BuilderModel.exists_setter_entries hrun
  refine ⟨hfor.names, fun i rest hi hfree m hm habstract hreturns hname => ?_⟩
  have htarget := PropertySet.setterTarget?_set hnames hnodup hi hfree
  -- the method has an entry, which sets the property at the place
  obtain ⟨entry, hentry, hmentry, hplace⟩ := exists_of_mem_forall₂ hentries.flip hm
  rw [Method.setterPlace?, habstract, hreturns, hname, htarget] at hplace
  cases entry with
  | setter i' f =>
    obtain rfl : i' = i := Option.some.inj hplace
    refine ⟨f, hmentry.2, fun j p hp => ⟨fun hf => ?_, ?_⟩⟩
    · have htarget' := (hfor.setters j p hp f hf).2
      rw [(Method.toFunction_spec hmentry.2).1, hname, htarget] at htarget'
      exact (Option.some.inj htarget').symm
    · rintro rfl
      rw [eq_of_map_eq_map_range holds.setters hp]
      exact List.mem_filterMap.mpr ⟨_, hentry, if_pos rfl⟩
  | _ => cases hplace

/-- A value class whose accessors have the prefixes of beans, and a builder with setters. -/
def plotElement : TypeElement :=
  let plot : TypeUse := .declared "test.Plot" []
  let builder : TypeUse := .declared "test.Plot.Builder" []
  let setter (name : String) (type : TypeUse) : Method :=
    { name, modifiers := [.abstract], returnType := builder
      parameters := [{ name := "value", type }] }
  { qualifiedName := "test.Plot"
    package := "test"
    annotations := [{ typeName := valueClassMarker }]
    methods := [
      { name := "getURL", modifiers := [.abstract], returnType := .declared "java.net.URL" [] },
      { name := "isX", modifiers := [.abstract], returnType := .primitive .boolean },
      { name := "getXAxis", modifiers := [.abstract], returnType := .primitive .int }]
    nestedTypes := [{
      qualifiedName := "test.Plot.Builder"
      package := "test"
      annotations := [{ typeName := builderMarker }]
      methods := [
        setter "setXAxis" (.primitive .int),
        setter "setX" (.primitive .boolean),
        setter "setURL" (.declared "java.net.URL" []),
        { name := "build", modifiers := [.abstract], returnType := plot }] }] }

/-- The properties are `URL`, `x` and `XAxis`, and `setXAxis` sets the last of them alone. -/
theorem plot_setters_find_their_properties : ∃ model b f log,
    (ClassModel.ofElement? plotElement []).runOn [] = (.ok (some model), log) ∧
    model.properties.properties.map (·.name) = ["URL", "x", "XAxis"] ∧
    model.properties.properties.map (fun p => capitalize p.name) = ["URL", "X", "XAxis"] ∧
    model.builder = some b ∧ f.name = "setXAxis" ∧
    ∀ (j : Nat) p, b.properties[j]? = some p → (f ∈ p.setters ↔ j = 2) := by
  have hrun : ((ClassModel.ofElement? plotElement []).runOn []).1.map (·.map fun model =>
      (model.builder.isSome, model.properties.properties.map (·.name))) =
      .ok (some (true, ["URL", "x", "XAxis"])) := by decide +kernel
  obtain ⟨model, d, log, hmodel, -⟩ :=
    ClassModel.exists_of_hasDeclaration plotElement (by decide +kernel)
  rw [hmodel] at hrun
  obtain ⟨hsome, hnames⟩ := Prod.mk.inj (Option.some.inj (Except.ok.inj hrun))
  obtain ⟨b, hb⟩ := Option.isSome_iff_exists.mp hsome
  obtain ⟨builder, hfound, log₁, log₂, hbuilder⟩ :=
    ClassModel.found_builder_of_ofElement? hmodel hb
  have hset := ClassModel.properties_of_ofElement? hmodel
  rw [hfound, Option.map_some] at hset
  obtain rfl := Option.some.inj hfound
  have hbeans : (plotElement.accessorsBeside (some "test.Plot.Builder")).Forall₂
      (fun m rest => m.IsBeanNamed rest ∧ startsAsciiCapital rest = true) ["URL", "X", "XAxis"] := by
    rw [show plotElement.accessorsBeside (some "test.Plot.Builder") = plotElement.methods by rfl]
    exact .cons ⟨Or.inl rfl, rfl⟩ (.cons ⟨Or.inr ⟨rfl, rfl⟩, rfl⟩ (.cons ⟨Or.inl rfl, rfl⟩ .nil))
  obtain ⟨hcapitals, hsetters⟩ := setters_of_beans hset hbeans (by decide)
  have hfree : ∀ p ∈ model.properties.properties, p.name ≠ "set" ++ "XAxis" := by
    intro p hp heq
    have hname := List.mem_map_of_mem (f := (·.name)) hp
    rw [hnames, heq] at hname
    exact absurd hname (by decide)
  obtain ⟨f, hf, hplaces⟩ := (hsetters b log₁ log₂ hbuilder).2 2 "XAxis" rfl hfree _
    List.mem_cons_self rfl rfl rfl
  exact ⟨model, b, f, log, hmodel, hnames, hcapitals, hb, (Method.toFunction_spec hf).1, hplaces⟩

end DataClassGen
