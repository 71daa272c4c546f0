import DataClassGen.Element.Decode
import DataClassGen.Element.Encode
import DataClassGen.Proofs.Entries
import DataClassGen.Proofs.Json.Records

/-!
# Types, annotations and constants read back

A use of a type, an annotation and a constant are read back from what they are written as. Each is
laid out as its variant's name and its contents. Their readers call themselves no deeper than a
bound; each call goes to a value that nests less deep than the one around it, so a bound beyond the
depth of the whole is never reached.

An annotation and a constant can be written (`isWritable`) if their integers have 64 bits, their
doubles are finite, and the members stand in the order of their names, each once.
-/

namespace DataClassGen

open Json

/-! ### Variants -/

/-- The name of a variant beside its contents is read back. -/
theorem Json.splitContent?_variant {names : List String} {name : String} (source : Source)
    (hnames : names.Nodup) (h : name ∈ names) (content : Json) :
    splitContent? names source (.variant name content) = some (name, content, source) := by
  have hchoice : choice? names id source (.str name) = some name :=
    (readsBack_choice source (by rwa [List.map_id]) h).read
  simp [splitContent?, variant, hchoice]

/-- A document can hold a variant if it can hold the contents. -/
theorem Json.isProper_variant {name : String} {content : Json} (h : content.isProper = true) :
    (Json.variant name content).isProper = true := by
  simp [Json.variant, isProper, membersProper, h]

/-! ### Uses of types -/

namespace TypeUse

theorem toJsonAll_eq (uses : List TypeUse) : toJsonAll uses = uses.map toJson := by
  induction uses with
  | nil => rw [toJsonAll, List.map_nil]
  | cons use uses ih => rw [toJsonAll, ih, List.map_cons]

theorem toJsonOption_eq (use : Option TypeUse) : toJsonOption use = use.map toJson := by
  cases use <;> simp [toJsonOption]

/-- The name of the variant. -/
def variantName : TypeUse → String
  | .primitive _ => "primitive"
  | .declared .. => "declared"
  | .parameter _ => "type_variable"
  | .array _ => "array"
  | .wildcard .. => "wildcard"
  | .void => "void"

/-- The fields of the variant. -/
def layoutFields : TypeUse → List (String × Option Json)
  | .primitive kind => [("primitive", some (.str kind.name))]
  | .declared name args =>
    [("name", some (.str name)), ("args", arrayIfAny (args.map toJson))]
  | .parameter name => [("name", some (.str name))]
  | .array component => [("component", some component.toJson)]
  | .wildcard upper lower => [("extends", upper.map toJson), ("super", lower.map toJson)]
  | .void => []

/-- The uses of types that stand directly in this one. -/
def parts : TypeUse → List TypeUse
  | .declared _ args => args
  | .array component => [component]
  | .wildcard upper lower => upper.toList ++ lower.toList
  | .primitive _ | .parameter _ | .void => []

theorem toJson_eq (use : TypeUse) :
    use.toJson = .obj (layout (("kind", some (.str use.variantName)) :: use.layoutFields)) := by
  cases use <;>
    simp [toJson, layout, layoutFields, variantName, listMember_eq, optionalMember, toJsonAll_eq,
      toJsonOption_eq]

theorem nodup_fields (use : TypeUse) : ("kind" :: use.layoutFields.map (·.1)).Nodup := by
  cases use <;> simp [layoutFields]

theorem variantName_mem (use : TypeUse) : use.variantName ∈ variantNames := by
  cases use <;> simp [variantName, variantNames]

theorem toJson_ne_null (use : TypeUse) : use.toJson ≠ .null := by
  rw [toJson_eq]
  exact Json.noConfusion

theorem depth_lt_of_mem_parts {use part : TypeUse} (h : part ∈ use.parts) :
    part.toJson.depth < use.toJson.depth := by
  have hfield : ∀ name {value}, (name, some value) ∈ use.layoutFields →
      value.depth < use.toJson.depth := fun _ _ hmem => by
    rw [toJson_eq]
    exact depth_lt_of_mem_members (mem_layout.mpr (List.mem_cons_of_mem _ hmem))
  cases use with
  | declared name args =>
    have hargs : arrayIfAny (args.map toJson) = some (.arr (args.map toJson)) := by
      cases args with
      | nil => cases h
      | cons arg args => rfl
    exact (depth_lt_of_mem_items (List.mem_map_of_mem h)).trans
      (hfield "args" (by simp [layoutFields, parts, hargs]))
  | array component =>
    rw [List.mem_singleton.mp h]
    exact hfield "component" (by simp [layoutFields])
  | wildcard upper lower =>
    rcases List.mem_append.mp h with h | h
    · exact hfield "extends" (by simp [layoutFields, Option.mem_toList.mp h])
    · exact hfield "super" (by simp [layoutFields, Option.mem_toList.mp h])
  | primitive _ => cases h
  | parameter _ => cases h
  | void => cases h

theorem isProper_toJson {use : TypeUse} (h : ∀ part ∈ use.parts, part.toJson.isProper = true) :
    use.toJson.isProper = true := by
  rw [toJson_eq]
  refine isProper_layout use.nodup_fields ?_
  rw [List.all_cons, Option.all_some, isProper, Bool.true_and]
  cases use with
  | declared name args =>
    have hargs : areProper (args.map toJson) = true :=
      areProper_iff.mpr (List.forall_mem_map.mpr h)
    simp [layoutFields, isProper, all_isProper_arrayIfAny, hargs]
  | array component => simpa [layoutFields] using h component List.mem_cons_self
  | wildcard upper lower =>
    have hupper := all_isProper_map fun u (hu : upper = some u) =>
      h u (List.mem_append_left _ (Option.mem_toList.mpr hu))
    have hlower := all_isProper_map fun l (hl : lower = some l) =>
      h l (List.mem_append_right _ (Option.mem_toList.mpr hl))
    simp [layoutFields, hupper, hlower]
  | primitive kind => simp [layoutFields, isProper]
  | parameter name => simp [layoutFields, isProper]
  | void => rfl

/-- A use of a type is read back if the uses in it are. -/
theorem readsBackWithin_succ {bound : Nat} {use : TypeUse} (source : Source)
    (h : ∀ part ∈ use.parts, ReadsBack (readWithin? bound .setAside) part.toJson part) :
    ReadsBack (readWithin? (bound + 1) source) use.toJson use := by
  have hfields := List.Nodup.of_cons use.nodup_fields
  have hproper := isProper_toJson fun part hpart => (h part hpart).isProper
  refine ⟨hproper, ?_⟩
  rw [readWithin?, isUsable_of_isProper hproper, toJson_eq, splitTag?_layout use.nodup_fields]
  simp only [Bool.not_true, Bool.false_eq_true, if_false, Option.bind_eq_bind, Option.bind_some,
    tag?_str _ use.variantName_mem]
  cases use with
  | primitive kind =>
    have hkind : ReadsBack (choice? PrimitiveKind.all PrimitiveKind.name .setAside)
        (.str kind.name) kind :=
      readsBack_choice .setAside (by decide) (by cases kind <;> decide)
    exact read_next (record?_layout hfields _) <|
      read_next (required_layout hfields "primitive" rfl hkind) <| rfl
  | declared name args =>
    have hname := readsBack_string name
    have hargs := readsBack_list h
    exact read_next (record?_layout hfields _) <|
      read_next (required_layout hfields "name" rfl hname) <|
      read_next (list_layout hfields "args" rfl hargs) <| rfl
  | parameter name =>
    have hname := readsBack_string name
    exact read_next (record?_layout hfields _) <|
      read_next (required_layout hfields "name" rfl hname) <| rfl
  | array component =>
    have hcomponent := h component List.mem_cons_self
    exact read_next (record?_layout hfields _) <|
      read_next (required_layout hfields "component" rfl hcomponent) <| rfl
  | wildcard upper lower =>
    have hupper : ∀ u, upper = some u → _ ∧ u.toJson ≠ .null := fun u hu =>
      ⟨h u (List.mem_append_left _ (Option.mem_toList.mpr hu)), u.toJson_ne_null⟩
    have hlower : ∀ l, lower = some l → _ ∧ l.toJson ≠ .null := fun l hl =>
      ⟨h l (List.mem_append_right _ (Option.mem_toList.mpr hl)), l.toJson_ne_null⟩
    exact read_next (record?_layout hfields _) <|
      read_next (optional_layout hfields "extends" rfl hupper) <|
      read_next (optional_layout hfields "super" rfl hlower) <| rfl
  | void => exact read_next (record?_layout hfields _) <| rfl

/-- A use of a type is read back, however deep it is. -/
theorem readsBackWithin {bound : Nat} {use : TypeUse} (source : Source)
    (h : use.toJson.depth < bound) : ReadsBack (readWithin? bound source) use.toJson use := by
  induction bound generalizing use source with
  | zero => exact absurd h (Nat.not_lt_zero _)
  | succ bound ih =>
    exact readsBackWithin_succ source fun part hpart =>
      ih .setAside (by have := depth_lt_of_mem_parts hpart; omega)

end TypeUse

/-! ### Annotations and constants -/

/-- An integer of 64 bits with its sign. -/
def isInt64 (n : Int) : Bool := Int64.minValue.toInt ≤ n && n ≤ Int64.maxValue.toInt

mutual

/-- The value can be written: its integers have 64 bits, its doubles are finite, and the members of
its annotations stand in the order of their names. -/
def MemberValue.isWritable : MemberValue → Bool
  | .int n | .long n => isInt64 n
  | .float x | .double x => x.isFinite
  | .array items => MemberValue.areWritable items
  | .nested _ members => decide (Ordered members) && MemberValue.membersWritable members
  | .string _ | .bool _ | .char _ | .enumConstant .. | .classLiteral _ => true

/-- The values can be written. -/
def MemberValue.areWritable : List MemberValue → Bool
  | [] => true
  | item :: items => MemberValue.isWritable item && MemberValue.areWritable items

/-- The members' values can be written. -/
def MemberValue.membersWritable : List (String × MemberValue) → Bool
  | [] => true
  | (_, value) :: members => MemberValue.isWritable value && MemberValue.membersWritable members

end

/-- The annotation can be written. -/
def AnnotationUse.isWritable (a : AnnotationUse) : Bool :=
  decide (Ordered a.members) && MemberValue.membersWritable a.members

namespace MemberValue

theorem areWritable_iff {items : List MemberValue} :
    areWritable items = true ↔ ∀ item ∈ items, item.isWritable = true := by
  induction items with
  | nil => simp [areWritable]
  | cons item items ih => simp [areWritable, ih]

theorem membersWritable_iff {members : List (String × MemberValue)} :
    membersWritable members = true ↔ ∀ m ∈ members, m.2.isWritable = true := by
  induction members with
  | nil => simp [membersWritable]
  | cons m members ih => simp [membersWritable, ih]

theorem toJsonAll_eq (items : List MemberValue) : toJsonAll items = items.map toJson := by
  induction items with
  | nil => rw [toJsonAll, List.map_nil]
  | cons item items ih => rw [toJsonAll, ih, List.map_cons]

theorem toJsonMembers_eq (members : List (String × MemberValue)) :
    toJsonMembers members = members.map fun m => (m.1, m.2.toJson) := by
  induction members with
  | nil => rw [toJsonMembers, List.map_nil]
  | cons m members ih => rw [toJsonMembers, ih, List.map_cons]

end MemberValue

theorem AnnotationUse.isWritable_iff {a : AnnotationUse} :
    a.isWritable = true ↔ Ordered a.members ∧ ∀ m ∈ a.members, m.2.isWritable = true := by
  rw [isWritable, Bool.and_eq_true, decide_eq_true_iff, MemberValue.membersWritable_iff]

namespace AnnotationUse

/-- The fields of the record. -/
def layoutFields (a : AnnotationUse) : List (String × Option Json) :=
  [("type", some (.str a.typeName)),
    ("members", if a.members.isEmpty then none
      else some (.obj (MemberValue.toJsonMembers a.members)))]

theorem toJson_eq (a : AnnotationUse) : a.toJson = .obj (layout a.layoutFields) := by
  obtain ⟨typeName, members⟩ := a
  cases members <;> rfl

theorem nodup_fields (a : AnnotationUse) : (a.layoutFields.map (·.1)).Nodup := by
  simp [layoutFields]

theorem depth_lt_of_mem_members {a : AnnotationUse} {m : String × MemberValue}
    (h : m ∈ a.members) : m.2.toJson.depth + 1 < a.toJson.depth := by
  have hvalue : (m.1, m.2.toJson) ∈ MemberValue.toJsonMembers a.members := by
    rw [MemberValue.toJsonMembers_eq]
    exact List.mem_map_of_mem h
  have hmembers : ("members", some (.obj (MemberValue.toJsonMembers a.members))) ∈
      a.layoutFields := by
    simp [layoutFields, List.ne_nil_of_mem h]
  have hfield := Json.depth_lt_of_mem_members (mem_layout.mpr hmembers)
  rw [← toJson_eq] at hfield
  exact Nat.lt_of_le_of_lt (Json.depth_lt_of_mem_members hvalue) hfield

/-- An annotation is read back if its members' values are. -/
theorem readsBackWithin_succ {bound : Nat} {a : AnnotationUse} {source : Source}
    (ha : Ordered a.members)
    (h : ∀ m ∈ a.members, ReadsBack (MemberValue.readWithin? bound source) m.2.toJson m.2) :
    ReadsBack (readWithin? (bound + 1) source) a.toJson a := by
  have hmembers : (Json.obj (MemberValue.toJsonMembers a.members)).isProper = true := by
    rw [MemberValue.toJsonMembers_eq, isProper_obj_iff, List.map_map]
    exact ⟨ha.nodup_keys, List.forall_mem_map.mpr fun m hm => (h m hm).isProper⟩
  have hlookup : (layout a.layoutFields).lookup "members" =
      if a.members.isEmpty then none else some (.obj (MemberValue.toJsonMembers a.members)) := by
    rw [lookup_layout a.nodup_fields]
    rfl
  rw [toJson_eq]
  refine ⟨isProper_layout a.nodup_fields ?_, ?_⟩
  · simp only [layoutFields, List.all_cons, Option.all_some, isProper, Bool.true_and]
    split <;> simp [hmembers]
  · simp only [readWithin?, record?_layout a.nodup_fields, Option.bind_eq_bind, Option.bind_some,
      required_layout a.nodup_fields "type" rfl (readsBack_string a.typeName), Option.pure_def,
      Fields.defaulted, hlookup]
    rcases a with ⟨typeName, _ | ⟨m, members⟩⟩
    · rfl
    · simp only [List.isEmpty_cons, Bool.false_eq_true, if_false, MemberValue.toJsonMembers_eq,
        mapM_members h, Option.bind_some, ha.foldl_insertByKey]

end AnnotationUse

namespace MemberValue

/-- The name of the variant. -/
def variantName : MemberValue → String
  | .string _ => "string"
  | .bool _ => "bool"
  | .int _ => "int"
  | .long _ => "long"
  | .float _ => "float"
  | .double _ => "double"
  | .char _ => "char"
  | .enumConstant .. => "enum"
  | .classLiteral _ => "class"
  | .array _ => "array"
  | .nested .. => "annotation"

/-- The fields of a constant of an enum. -/
def enumFields (typeName constant : String) : List (String × Option Json) :=
  [("type_name", some (.str typeName)), ("constant", some (.str constant))]

/-- The contents of the variant. -/
def content : MemberValue → Json
  | .string s | .classLiteral s => .str s
  | .bool b => .bool b
  | .int n | .long n => .int n
  | .float x | .double x => .double x
  | .char c => .str (String.singleton c)
  | .enumConstant typeName constant => .obj (layout (enumFields typeName constant))
  | .array items => .arr (items.map toJson)
  | .nested typeName members => AnnotationUse.toJson ⟨typeName, members⟩

theorem toJson_eq (v : MemberValue) : v.toJson = .variant v.variantName v.content := by
  cases v <;> simp [toJson, variantName, content, toJsonAll_eq, AnnotationUse.toJson, enumFields,
    layout, optionalMember]

theorem variantNames_nodup : variantNames.Nodup := by decide

theorem variantName_mem (v : MemberValue) : v.variantName ∈ variantNames := by
  cases v <;> simp [variantName, variantNames]

theorem depth_toJson (v : MemberValue) : v.toJson.depth = v.content.depth + 1 := by
  simp [toJson_eq, Json.variant, depth, depthOfMembers]

/-- A member's value is read back if the values in it are. -/
theorem readsBackWithin_succ {bound : Nat} {v : MemberValue} {source : Source}
    (hv : v.isWritable = true)
    (hitems : ∀ items, v = .array items →
      ∀ item ∈ items, ReadsBack (readWithin? bound source) item.toJson item)
    (hnested : ∀ typeName members, v = .nested typeName members →
      ReadsBack (AnnotationUse.readWithin? bound source)
        (AnnotationUse.toJson ⟨typeName, members⟩) ⟨typeName, members⟩) :
    ReadsBack (readWithin? (bound + 1) source) v.toJson v := by
  have hsplit := splitContent?_variant source variantNames_nodup v.variantName_mem v.content
  suffices h : v.content.isProper = true ∧
      readWithin? (bound + 1) source (.variant v.variantName v.content) = some v by
    rw [toJson_eq]
    exact ⟨isProper_variant h.1, h.2⟩
  rw [readWithin?, hsplit]
  simp only [Option.bind_eq_bind, Option.bind_some]
  cases v with
  | string s => exact ⟨(readsBack_string s).isProper, rfl⟩
  | bool b => exact ⟨(readsBack_bool b).isProper, rfl⟩
  | int n =>
    have h := readsBack_int64 hv
    exact ⟨h.isProper, by simp [variantName, content, h.read]⟩
  | long n =>
    have h := readsBack_int64 hv
    exact ⟨h.isProper, by simp [variantName, content, h.read]⟩
  | float x => exact ⟨(readsBack_double hv).isProper, rfl⟩
  | double x => exact ⟨(readsBack_double hv).isProper, rfl⟩
  | char c =>
    have h := readsBack_char c
    exact ⟨h.isProper, by simp [variantName, content, h.read]⟩
  | enumConstant typeName constant =>
    have hfields : ((enumFields typeName constant).map (·.1)).Nodup := by simp [enumFields]
    refine ⟨isProper_layout hfields (by simp [enumFields, isProper]), ?_⟩
    exact read_next (fields?_layout hfields _) <|
      read_next (required_layout hfields "type_name" rfl (readsBack_string typeName)) <|
      read_next (required_layout hfields "constant" rfl (readsBack_string constant)) <| rfl
  | classLiteral name => exact ⟨(readsBack_string name).isProper, rfl⟩
  | array items =>
    have h := readsBack_list (hitems items rfl)
    exact ⟨h.isProper, by simp [variantName, content, h.read]⟩
  | nested typeName members =>
    have h := hnested typeName members rfl
    exact ⟨h.isProper, by simp [variantName, content, h.read]⟩

end MemberValue

/-- A member's value and an annotation are read back, however deep they are. -/
theorem readsBackWithin_values (bound : Nat) :
    (∀ v source, MemberValue.isWritable v = true → v.toJson.depth < bound →
      ReadsBack (MemberValue.readWithin? bound source) v.toJson v) ∧
    ∀ a source, AnnotationUse.isWritable a = true → a.toJson.depth < bound →
      ReadsBack (AnnotationUse.readWithin? bound source) a.toJson a := by
  induction bound with
  | zero =>
    exact ⟨fun _ _ _ h => absurd h (Nat.not_lt_zero _),
      fun _ _ _ h => absurd h (Nat.not_lt_zero _)⟩
  | succ bound ih =>
    obtain ⟨ihValue, ihAnnotation⟩ := ih
    refine ⟨fun v source hv hdepth => ?_, fun a source ha hdepth => ?_⟩
    · rw [MemberValue.depth_toJson] at hdepth
      refine MemberValue.readsBackWithin_succ hv ?_ ?_
      · rintro items rfl item hitem
        have hlt := depth_lt_of_mem_items (List.mem_map_of_mem (f := MemberValue.toJson) hitem)
        exact ihValue item source (MemberValue.areWritable_iff.mp hv item hitem)
          (hlt.trans (Nat.lt_of_succ_lt_succ hdepth))
      · rintro typeName members rfl
        exact ihAnnotation _ source hv (Nat.lt_of_succ_lt_succ hdepth)
    · obtain ⟨hordered, hmembers⟩ := AnnotationUse.isWritable_iff.mp ha
      refine AnnotationUse.readsBackWithin_succ hordered fun m hm => ?_
      have hlt := AnnotationUse.depth_lt_of_mem_members hm
      exact ihValue m.2 source (hmembers m hm) (by omega)

theorem AnnotationUse.readsBack {a : AnnotationUse} (ha : a.isWritable = true) :
    ReadsBack ofJson? a.toJson a := by
  have h := (readsBackWithin_values (a.toJson.depth + 1)).2 a .document ha (Nat.lt_succ_self _)
  exact ⟨h.isProper, h.read⟩

/-- Annotations are read back. -/
theorem AnnotationUse.readsBack_list {annotations : List AnnotationUse}
    (h : annotations.all isWritable = true) :
    ReadsBack (list? ofJson?) (.arr (annotations.map toJson)) annotations :=
  Json.readsBack_list fun a ha => readsBack (List.all_eq_true.mp h a ha)

theorem TypeUse.readsBack (use : TypeUse) : ReadsBack ofJson? use.toJson use := by
  have h := readsBackWithin .document (Nat.lt_succ_self use.toJson.depth)
  exact ⟨h.isProper, h.read⟩

theorem TypeUse.readsBack_list (uses : List TypeUse) :
    ReadsBack (list? ofJson?) (.arr (uses.map toJson)) uses :=
  Json.readsBack_list fun use _ => readsBack use

namespace Constant

/-- The constant can be written: an integer has 64 bits, a double is finite. -/
def isWritable : Constant → Bool
  | .int n | .long n => isInt64 n
  | .float x | .double x => x.isFinite
  | .string _ | .bool _ | .char _ => true

/-- The name of the variant. -/
def variantName : Constant → String
  | .string _ => "string"
  | .bool _ => "bool"
  | .int _ => "int"
  | .long _ => "long"
  | .float _ => "float"
  | .double _ => "double"
  | .char _ => "char"

/-- The contents of the variant. -/
def content : Constant → Json
  | .string s => .str s
  | .bool b => .bool b
  | .int n | .long n => .int n
  | .float x | .double x => .double x
  | .char c => .str (String.singleton c)

theorem toJson_eq (c : Constant) : c.toJson = .variant c.variantName c.content := by
  cases c <;> rfl

theorem variantNames_nodup : variantNames.Nodup := by decide

theorem variantName_mem (c : Constant) : c.variantName ∈ variantNames := by
  cases c <;> simp [variantName, variantNames]

theorem toJson_ne_null (c : Constant) : c.toJson ≠ .null := by
  rw [toJson_eq]
  exact Json.noConfusion

/-- A constant is read back. -/
theorem readsBack {c : Constant} (hc : c.isWritable = true) : ReadsBack ofJson? c.toJson c := by
  have hsplit := splitContent?_variant .document variantNames_nodup c.variantName_mem c.content
  suffices h : c.content.isProper = true ∧
      ofJson? (.variant c.variantName c.content) = some c by
    rw [toJson_eq]
    exact ⟨isProper_variant h.1, h.2⟩
  rw [ofJson?, hsplit]
  simp only [Option.bind_eq_bind, Option.bind_some]
  cases c with
  | string s => exact ⟨(readsBack_string s).isProper, rfl⟩
  | bool b => exact ⟨(readsBack_bool b).isProper, rfl⟩
  | int n =>
    have h := readsBack_int64 hc
    exact ⟨h.isProper, by simp [variantName, content, h.read]⟩
  | long n =>
    have h := readsBack_int64 hc
    exact ⟨h.isProper, by simp [variantName, content, h.read]⟩
  | float x => exact ⟨(readsBack_double hc).isProper, rfl⟩
  | double x => exact ⟨(readsBack_double hc).isProper, rfl⟩
  | char c =>
    have h := readsBack_char c
    exact ⟨h.isProper, by simp [variantName, content, h.read]⟩

end Constant

end DataClassGen
