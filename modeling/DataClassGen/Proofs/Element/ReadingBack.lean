import DataClassGen.Diagnostic
import DataClassGen.Lifecycle
import DataClassGen.Proofs.Element.Values

/-!
# Rounds read back

Whatever is written is read back as it was: rounds with all the types, members and annotations in
them, diagnostics, and the states of declarations. Of each record it is said once which fields it is
laid out as, and its reader takes them up one by one in the order it asks for them.
-/

namespace DataClassGen

open Json

/-! ### Members -/

theorem Modifier.readsBack_list (modifiers : List Modifier) :
    ReadsBack (list? ofJson?) (.arr (modifierNames modifiers)) modifiers :=
  Json.readsBack_list fun m _ =>
    readsBack_choice .document (by decide) (by cases m <;> decide)

theorem ElementKind.readsBack (kind : ElementKind) : ReadsBack ofJson? (.str kind.name) kind :=
  readsBack_choice .document (by decide) (by cases kind <;> decide)

theorem FieldKind.readsBack (kind : FieldKind) : ReadsBack ofJson? (.str kind.name) kind :=
  readsBack_choice .document (by decide) (by cases kind <;> decide)

/-- A text that may be absent. -/
theorem readsBack_doc (doc : Option String) : ∀ s, doc = some s →
    ReadsBack string? (.str s) s ∧ Json.str s ≠ .null :=
  fun s _ => ⟨readsBack_string s, Json.noConfusion⟩

namespace Variable

/-- The variable can be written: its annotations and its value can be. -/
def isWritable (v : Variable) : Bool :=
  v.annotations.all AnnotationUse.isWritable && v.constantValue.all Constant.isWritable

/-- The fields of the record. -/
def layoutFields (v : Variable) : List (String × Option Json) :=
  [("name", some (.str v.name)), ("type", some v.type.toJson), ("kind", some (.str v.kind.name)),
    ("modifiers", arrayIfAny (modifierNames v.modifiers)),
    ("annotations", arrayIfAny (v.annotations.map (·.toJson))), ("doc", v.doc.map .str),
    ("constant_value", v.constantValue.map (·.toJson))]

theorem toJson_eq (v : Variable) : v.toJson = .obj (layout v.layoutFields) := by
  simp [toJson, layout, layoutFields, listMember_eq, optionalMember]

/-- A field, a constant of an enum or a parameter is read back. -/
theorem readsBack {v : Variable} (hv : v.isWritable = true) : ReadsBack ofJson? v.toJson v := by
  rw [isWritable, Bool.and_eq_true] at hv
  have hfields : (v.layoutFields.map (·.1)).Nodup := by simp [layoutFields]
  have hname := readsBack_string v.name
  have htype := v.type.readsBack
  have hkind := v.kind.readsBack
  have hmodifiers := Modifier.readsBack_list v.modifiers
  have hannotations := AnnotationUse.readsBack_list hv.1
  have hvalue : ∀ c, v.constantValue = some c → _ ∧ c.toJson ≠ .null := fun c hc =>
    ⟨Constant.readsBack (by simpa [hc] using hv.2), c.toJson_ne_null⟩
  rw [toJson_eq]
  refine ⟨isProper_layout hfields ?_, ?_⟩
  · have hdoc := all_isProper_map fun s hs => (readsBack_doc v.doc s hs).1.isProper
    have hconstant := all_isProper_map fun c hc => (hvalue c hc).1.isProper
    simp [layoutFields, all_isProper_arrayIfAny, hname.isProper, htype.isProper, hkind.isProper,
      hmodifiers.isProper, hannotations.isProper, hdoc, hconstant]
  · exact read_next (record?_layout hfields _) <|
      read_next (required_layout hfields "name" rfl hname) <|
      read_next (required_layout hfields "type" rfl htype) <|
      read_next (defaulted_layout hfields "kind" rfl hkind) <|
      read_next (list_layout hfields "modifiers" rfl hmodifiers) <|
      read_next (list_layout hfields "annotations" rfl hannotations) <|
      read_next (optional_layout hfields "doc" rfl (readsBack_doc v.doc)) <|
      read_next (optional_layout hfields "constant_value" rfl hvalue) <| rfl

end Variable


/-- Variables are read back. -/
theorem Variable.readsBack_list {vs : List Variable} (h : vs.all isWritable = true) :
    ReadsBack (list? ofJson?) (.arr (vs.map toJson)) vs :=
  Json.readsBack_list fun v hv => readsBack (List.all_eq_true.mp h v hv)

namespace TypeParameter

/-- The fields of the record. -/
def layoutFields (p : TypeParameter) : List (String × Option Json) :=
  [("name", some (.str p.name)), ("bounds", arrayIfAny (p.bounds.map (·.toJson)))]

theorem toJson_eq (p : TypeParameter) : p.toJson = .obj (layout p.layoutFields) := by
  simp [toJson, layout, layoutFields, listMember_eq, optionalMember]

/-- A type parameter is read back. -/
theorem readsBack (p : TypeParameter) : ReadsBack ofJson? p.toJson p := by
  have hfields : (p.layoutFields.map (·.1)).Nodup := by simp [layoutFields]
  have hname := readsBack_string p.name
  have hbounds := TypeUse.readsBack_list p.bounds
  rw [toJson_eq]
  refine ⟨isProper_layout hfields ?_, ?_⟩
  · simp [layoutFields, all_isProper_arrayIfAny, hname.isProper, hbounds.isProper]
  · exact read_next (record?_layout hfields _) <|
      read_next (required_layout hfields "name" rfl hname) <|
      read_next (list_layout hfields "bounds" rfl hbounds) <| rfl

theorem readsBack_list (parameters : List TypeParameter) :
    ReadsBack (list? ofJson?) (.arr (parameters.map toJson)) parameters :=
  Json.readsBack_list fun p _ => readsBack p

end TypeParameter

namespace Method

/-- The method can be written: its annotations and parameters can be. -/
def isWritable (m : Method) : Bool :=
  m.annotations.all AnnotationUse.isWritable && m.parameters.all Variable.isWritable

/-- The fields of the record. -/
def layoutFields (m : Method) : List (String × Option Json) :=
  [("name", some (.str m.name)), ("modifiers", arrayIfAny (modifierNames m.modifiers)),
    ("annotations", arrayIfAny (m.annotations.map (·.toJson))), ("doc", m.doc.map .str),
    ("return_type", some m.returnType.toJson),
    ("parameters", arrayIfAny (m.parameters.map (·.toJson))),
    ("type_parameters", arrayIfAny (m.typeParameters.map (·.toJson))),
    ("thrown_types", arrayIfAny (m.thrownTypes.map (·.toJson))),
    ("varargs", some (.bool m.isVarargs))]

theorem toJson_eq (m : Method) : m.toJson = .obj (layout m.layoutFields) := by
  simp [toJson, layout, layoutFields, listMember_eq, optionalMember]

/-- A method is read back. -/
theorem readsBack {m : Method} (hm : m.isWritable = true) : ReadsBack ofJson? m.toJson m := by
  rw [isWritable, Bool.and_eq_true] at hm
  have hfields : (m.layoutFields.map (·.1)).Nodup := by simp [layoutFields]
  have hname := readsBack_string m.name
  have hmodifiers := Modifier.readsBack_list m.modifiers
  have hannotations := AnnotationUse.readsBack_list hm.1
  have hreturn := m.returnType.readsBack
  have hparameters := Variable.readsBack_list hm.2
  have htypes := TypeParameter.readsBack_list m.typeParameters
  have hthrown := TypeUse.readsBack_list m.thrownTypes
  have hvarargs := readsBack_bool m.isVarargs
  rw [toJson_eq]
  refine ⟨isProper_layout hfields ?_, ?_⟩
  · have hdoc := all_isProper_map fun s hs => (readsBack_doc m.doc s hs).1.isProper
    simp [layoutFields, all_isProper_arrayIfAny, hname.isProper, hmodifiers.isProper, hdoc,
      hannotations.isProper, hreturn.isProper, hparameters.isProper, htypes.isProper,
      hthrown.isProper, hvarargs.isProper]
  · exact read_next (record?_layout hfields _) <|
      read_next (required_layout hfields "name" rfl hname) <|
      read_next (list_layout hfields "modifiers" rfl hmodifiers) <|
      read_next (list_layout hfields "annotations" rfl hannotations) <|
      read_next (optional_layout hfields "doc" rfl (readsBack_doc m.doc)) <|
      read_next (required_layout hfields "return_type" rfl hreturn) <|
      read_next (list_layout hfields "parameters" rfl hparameters) <|
      read_next (list_layout hfields "type_parameters" rfl htypes) <|
      read_next (list_layout hfields "thrown_types" rfl hthrown) <|
      read_next (defaulted_layout hfields "varargs" rfl hvarargs) <| rfl

end Method

/-- Methods are read back. -/
theorem Method.readsBack_list {methods : List Method} (h : methods.all isWritable = true) :
    ReadsBack (list? ofJson?) (.arr (methods.map toJson)) methods :=
  Json.readsBack_list fun m hm => readsBack (List.all_eq_true.mp h m hm)

/-! ### Types -/

namespace EnclosingType

/-- What is known of the enclosing type can be written: its annotations can be. -/
def isWritable (e : EnclosingType) : Bool := e.annotations.all AnnotationUse.isWritable

/-- The fields of the record. -/
def layoutFields (e : EnclosingType) : List (String × Option Json) :=
  [("qualified_name", some (.str e.qualifiedName)), ("kind", some (.str e.kind.name)),
    ("annotations", arrayIfAny (e.annotations.map (·.toJson)))]

theorem toJson_eq (e : EnclosingType) : e.toJson = .obj (layout e.layoutFields) := by
  simp [toJson, layout, layoutFields, listMember_eq, optionalMember]

theorem toJson_ne_null (e : EnclosingType) : e.toJson ≠ .null := by
  rw [toJson_eq]
  exact Json.noConfusion

/-- What is known of the enclosing type is read back. -/
theorem readsBack {e : EnclosingType} (he : e.isWritable = true) :
    ReadsBack ofJson? e.toJson e := by
  have hfields : (e.layoutFields.map (·.1)).Nodup := by simp [layoutFields]
  have hname := readsBack_string e.qualifiedName
  have hkind := e.kind.readsBack
  have hannotations := AnnotationUse.readsBack_list he
  rw [toJson_eq]
  refine ⟨isProper_layout hfields ?_, ?_⟩
  · simp [layoutFields, all_isProper_arrayIfAny, hname.isProper, hkind.isProper,
      hannotations.isProper]
  · exact read_next (record?_layout hfields _) <|
      read_next (required_layout hfields "qualified_name" rfl hname) <|
      read_next (defaulted_layout hfields "kind" rfl hkind) <|
      read_next (list_layout hfields "annotations" rfl hannotations) <| rfl

end EnclosingType

namespace TypeElement

mutual

/-- The type can be written: its annotations, fields, methods and nested types can be, and what it
knows of the type it is declared in. -/
def isWritable : TypeElement → Bool
  | ⟨_, _, _, _, annotations, _, _, _, _, fields, methods, nestedTypes, enclosing⟩ =>
    annotations.all AnnotationUse.isWritable && fields.all Variable.isWritable &&
      methods.all Method.isWritable && areWritable nestedTypes &&
      enclosing.all EnclosingType.isWritable

/-- The types can be written. -/
def areWritable : List TypeElement → Bool
  | [] => true
  | element :: elements => isWritable element && areWritable elements

end

theorem areWritable_iff {elements : List TypeElement} :
    areWritable elements = true ↔ ∀ e ∈ elements, e.isWritable = true := by
  induction elements with
  | nil => simp [areWritable]
  | cons e elements ih => simp [areWritable, ih]

theorem toJsonAll_eq (elements : List TypeElement) : toJsonAll elements = elements.map toJson := by
  induction elements with
  | nil => rw [toJsonAll, List.map_nil]
  | cons e elements ih => rw [toJsonAll, ih, List.map_cons]

/-- The fields of the record. -/
def layoutFields (e : TypeElement) : List (String × Option Json) :=
  [("qualified_name", some (.str e.qualifiedName)), ("package", some (.str e.package)),
    ("kind", some (.str e.kind.name)), ("modifiers", arrayIfAny (modifierNames e.modifiers)),
    ("annotations", arrayIfAny (e.annotations.map (·.toJson))), ("doc", e.doc.map .str),
    ("superclass", e.superclass.map (·.toJson)),
    ("interfaces", arrayIfAny (e.interfaces.map (·.toJson))),
    ("type_parameters", arrayIfAny (e.typeParameters.map (·.toJson))),
    ("fields", arrayIfAny (e.fields.map (·.toJson))),
    ("methods", arrayIfAny (e.methods.map (·.toJson))),
    ("nested_types", arrayIfAny (e.nestedTypes.map toJson)),
    ("enclosing", e.enclosing.map (·.toJson))]

theorem toJson_eq (e : TypeElement) : e.toJson = .obj (layout e.layoutFields) := by
  obtain ⟨⟩ := e
  simp [toJson, layout, layoutFields, listMember_eq, optionalMember, toJsonAll_eq]

theorem nodup_layoutFields (e : TypeElement) : (e.layoutFields.map (·.1)).Nodup := by
  simp [layoutFields]

theorem depth_lt_of_mem_nestedTypes {e nested : TypeElement} (h : nested ∈ e.nestedTypes) :
    nested.toJson.depth < e.toJson.depth := by
  have hitems : arrayIfAny (e.nestedTypes.map toJson) = some (.arr (e.nestedTypes.map toJson)) :=
    if_neg (by simpa using List.ne_nil_of_mem h)
  have hfield : ("nested_types", some (.arr (e.nestedTypes.map toJson))) ∈ e.layoutFields := by
    simp [layoutFields, hitems]
  rw [toJson_eq e]
  exact (depth_lt_of_mem_items (List.mem_map_of_mem h)).trans
    (depth_lt_of_mem_members (mem_layout.mpr hfield))

/-- A type is read back if the types nested in it are. -/
theorem readsBackWithin_succ {bound : Nat} {e : TypeElement} (he : e.isWritable = true)
    (hnested : ReadsBack (list? (readWithin? bound)) (.arr (e.nestedTypes.map toJson))
      e.nestedTypes) :
    ReadsBack (readWithin? (bound + 1)) e.toJson e := by
  have hparts : e.annotations.all AnnotationUse.isWritable = true ∧
      e.fields.all Variable.isWritable = true ∧ e.methods.all Method.isWritable = true ∧
      e.enclosing.all EnclosingType.isWritable = true := by
    obtain ⟨⟩ := e
    simp only [isWritable, Bool.and_eq_true] at he
    exact ⟨he.1.1.1.1, he.1.1.1.2, he.1.1.2, he.2⟩
  have hall := e.nodup_layoutFields
  have hname := readsBack_string e.qualifiedName
  have hpackage := readsBack_string e.package
  have hkind := e.kind.readsBack
  have hmodifiers := Modifier.readsBack_list e.modifiers
  have hannotations := AnnotationUse.readsBack_list hparts.1
  have hsuper : ∀ u, e.superclass = some u → _ ∧ u.toJson ≠ .null := fun u _ =>
    ⟨u.readsBack, u.toJson_ne_null⟩
  have hinterfaces := TypeUse.readsBack_list e.interfaces
  have hparameters := TypeParameter.readsBack_list e.typeParameters
  have hfields := Variable.readsBack_list hparts.2.1
  have hmethods := Method.readsBack_list hparts.2.2.1
  have henclosing : ∀ t, e.enclosing = some t → _ ∧ t.toJson ≠ .null := fun t ht =>
    ⟨EnclosingType.readsBack (by simpa [ht] using hparts.2.2.2), t.toJson_ne_null⟩
  rw [toJson_eq]
  refine ⟨isProper_layout hall ?_, ?_⟩
  · have hdoc := all_isProper_map fun s hs => (readsBack_doc e.doc s hs).1.isProper
    have hsuperclass := all_isProper_map fun u hu => (hsuper u hu).1.isProper
    have houter := all_isProper_map fun t ht => (henclosing t ht).1.isProper
    simp [layoutFields, all_isProper_arrayIfAny, hname.isProper, hpackage.isProper,
      hkind.isProper, hmodifiers.isProper, hannotations.isProper, hdoc, hsuperclass,
      hinterfaces.isProper, hparameters.isProper, hfields.isProper, hmethods.isProper,
      hnested.isProper, houter]
  · rw [readWithin?]
    exact read_next (record?_layout hall _) <|
      read_next (required_layout hall "qualified_name" rfl hname) <|
      read_next (defaulted_layout hall "package" rfl hpackage) <|
      read_next (defaulted_layout hall "kind" rfl hkind) <|
      read_next (list_layout hall "modifiers" rfl hmodifiers) <|
      read_next (list_layout hall "annotations" rfl hannotations) <|
      read_next (optional_layout hall "doc" rfl (readsBack_doc e.doc)) <|
      read_next (optional_layout hall "superclass" rfl hsuper) <|
      read_next (list_layout hall "interfaces" rfl hinterfaces) <|
      read_next (list_layout hall "type_parameters" rfl hparameters) <|
      read_next (list_layout hall "fields" rfl hfields) <|
      read_next (list_layout hall "methods" rfl hmethods) <|
      read_next (list_layout hall "nested_types" rfl hnested) <|
      read_next (optional_layout hall "enclosing" rfl henclosing) <| by cases e; rfl

theorem isWritable_of_mem_nestedTypes {e nested : TypeElement} (he : e.isWritable = true)
    (h : nested ∈ e.nestedTypes) : nested.isWritable = true := by
  obtain ⟨⟩ := e
  simp only [isWritable, Bool.and_eq_true] at he
  exact areWritable_iff.mp he.1.2 nested h

/-- A type is read back, however deep the types nest in it. -/
theorem readsBackWithin {bound : Nat} {e : TypeElement} (he : e.isWritable = true)
    (h : e.toJson.depth < bound) : ReadsBack (readWithin? bound) e.toJson e := by
  induction bound generalizing e with
  | zero => exact absurd h (Nat.not_lt_zero _)
  | succ bound ih =>
    refine readsBackWithin_succ he (readsBack_list fun nested hnested => ?_)
    have hlt := depth_lt_of_mem_nestedTypes hnested
    exact ih (isWritable_of_mem_nestedTypes he hnested) (by omega)

theorem readsBack {e : TypeElement} (he : e.isWritable = true) : ReadsBack ofJson? e.toJson e := by
  have h := readsBackWithin he (Nat.lt_succ_self e.toJson.depth)
  exact ⟨h.isProper, h.read⟩

end TypeElement

namespace Round

/-- The round can be written: its types can be. -/
def isWritable (r : Round) : Bool := r.elements.all TypeElement.isWritable

/-- The fields of the record. -/
def layoutFields (r : Round) : List (String × Option Json) :=
  [("elements", some (.arr (r.elements.map (·.toJson))))]

theorem toJson_eq (r : Round) : r.toJson = .obj (layout r.layoutFields) := by
  simp [toJson, layout, layoutFields, optionalMember, TypeElement.toJsonAll_eq]

/-- A round is read back. -/
theorem readsBack {r : Round} (hr : r.isWritable = true) : ReadsBack ofJson? r.toJson r := by
  have hfields : (r.layoutFields.map (·.1)).Nodup := by simp [layoutFields]
  have helements := Json.readsBack_list fun e he =>
    TypeElement.readsBack (List.all_eq_true.mp hr e he)
  rw [toJson_eq]
  refine ⟨isProper_layout hfields (by simp [layoutFields, helements.isProper]), ?_⟩
  exact read_next (record?_layout hfields _) <|
      read_next (defaulted_layout hfields "elements" rfl helements) <| rfl

end Round

/-! ### Diagnostics and states -/

namespace Diagnostic

/-- The fields of the record. -/
def layoutFields (d : Diagnostic) : List (String × Option Json) :=
  [("kind", some (.str d.severity.name)), ("message", some (.str d.message)),
    ("element", d.element.map .str)]

theorem toJson_eq (d : Diagnostic) : d.toJson = .obj (layout d.layoutFields) := by
  simp [toJson, layout, layoutFields, optionalMember]

/-- A diagnostic is read back. -/
theorem readsBack (d : Diagnostic) : ReadsBack ofJson? d.toJson d := by
  have hfields : (d.layoutFields.map (·.1)).Nodup := by simp [layoutFields]
  have hseverity : ReadsBack Severity.ofJson? (.str d.severity.name) d.severity :=
    readsBack_choice .document (by decide) (by cases d.severity <;> decide)
  have hmessage := readsBack_string d.message
  rw [toJson_eq]
  refine ⟨isProper_layout hfields ?_, ?_⟩
  · have helement := all_isProper_map fun s hs =>
      (readsBack_doc d.element s hs).1.isProper
    simp [layoutFields, hseverity.isProper, hmessage.isProper, helement]
  · exact read_next (record?_layout hfields _) <|
      read_next (required_layout hfields "kind" rfl hseverity) <|
      read_next (required_layout hfields "message" rfl hmessage) <|
      read_next (optional_layout hfields "element" rfl (readsBack_doc d.element)) <| rfl

end Diagnostic

theorem Lifecycle.readsBack (s : Lifecycle) : ReadsBack ofJson? s.toJson s :=
  readsBack_choice .document (by decide) (by cases s <;> decide)

/-- Everything that is written is read back as it was: every round whose integers have 64 bits,
whose doubles are finite and whose annotations have their members in order, every diagnostic and
every state. -/
theorem written_values_read_back :
    (∀ r : Round, r.isWritable = true → ReadsBack Round.ofJson? r.toJson r) ∧
    (∀ d : Diagnostic, ReadsBack Diagnostic.ofJson? d.toJson d) ∧
    ∀ s : Lifecycle, ReadsBack Lifecycle.ofJson? s.toJson s :=
  ⟨fun _ => Round.readsBack, Diagnostic.readsBack, Lifecycle.readsBack⟩

/-- A round with a class in another one, with annotations in annotations and with every kind of
value in them. -/
def nestedRound : Round :=
  let limits : AnnotationUse :=
    { typeName := "test.Limits"
      members := [("high", .double ⟨0x3FF8000000000000⟩), ("low", .long (-9223372036854775808)),
        ("step", .float ⟨0x3FB99999A0000000⟩)] }
  let mark : AnnotationUse :=
    { typeName := "test.Mark"
      members := [("all", .array [.int 1, .bool true, .char 'x', .classLiteral "test.A"]),
        ("limits", .nested limits.typeName limits.members), ("name", .string "mark"),
        ("order", .enumConstant "test.Order" "FIRST")] }
  let items : TypeUse :=
    .declared "java.util.Map" [.wildcard (some (.array (.primitive .int))) none,
      .wildcard none (some (.parameter "T"))]
  let inner : TypeElement :=
    { qualifiedName := "test.A.B", package := "test", kind := .enumType
      modifiers := [.publicAccess, .nonSealed], doc := some " A choice. "
      fields := [{ name := "MAX", type := .primitive .long, constantValue := some (.long 7) }]
      enclosing := some { qualifiedName := "test.A", annotations := [mark] } }
  { elements := [
      { qualifiedName := "test.A", package := "test", annotations := [mark]
        superclass := some (.declared "test.Base" [items])
        typeParameters := [{ name := "T", bounds := [.declared "java.lang.Number" []] }]
        methods := [{ name := "put", returnType := .void, annotations := [limits],
                      parameters := [{ name := "items", type := items }], isVarargs := true }]
        nestedTypes := [inner] }] }

theorem nestedRound_read_back :
    nestedRound.isWritable = true ∧ ReadsBack Round.ofJson? nestedRound.toJson nestedRound :=
  have h : nestedRound.isWritable = true := by decide +kernel
  ⟨h, written_values_read_back.1 nestedRound h⟩

end DataClassGen
