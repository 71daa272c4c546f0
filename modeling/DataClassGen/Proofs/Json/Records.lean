import DataClassGen.Json.Record
import Mathlib.Data.List.Nodup

/-!
# Records read back

For each shape that a value is laid out in there is one law: what was written in the shape is read
back. A value is read back (`ReadsBack`) if a document can hold it at all, so that no number is
beyond its range and no object has a key twice, and the reader gives what was written.

A record is its fields in order, each there or not (`layout`). Looking a field up in the layout
gives what was put under its name, and the laws for the four kinds of fields rest on this alone;
so the order of the fields has no part in reading them.
-/

namespace DataClassGen.Json

variable {α β : Type}

/-! ### Values that a document can hold -/

mutual

/-- A document can hold the value: an integer fits the signed or the unsigned 64-bit range, a double
is finite, no object has a key twice, and nothing is unusable. -/
def isProper : Json → Bool
  | .null | .bool _ | .str _ => true
  | .int n => Int64.minValue.toInt ≤ n && n ≤ (UInt64.size : Int) - 1
  | .double x => x.isFinite
  | .arr items => areProper items
  | .obj members => decide (members.map (·.1)).Nodup && membersProper members
  | .unusable => false

/-- A document can hold the items. -/
def areProper : List Json → Bool
  | [] => true
  | item :: items => isProper item && areProper items

/-- A document can hold the members' values. -/
def membersProper : List (String × Json) → Bool
  | [] => true
  | (_, value) :: members => isProper value && membersProper members

end

theorem areProper_iff {items : List Json} :
    areProper items = true ↔ ∀ item ∈ items, item.isProper = true := by
  induction items with
  | nil => simp [areProper]
  | cons item items ih => simp [areProper, ih]

theorem membersProper_iff {members : List (String × Json)} :
    membersProper members = true ↔ ∀ m ∈ members, m.2.isProper = true := by
  induction members with
  | nil => simp [membersProper]
  | cons m members ih => simp [membersProper, ih]

theorem isProper_obj_iff {members : List (String × Json)} :
    (Json.obj members).isProper = true ↔
      (members.map (·.1)).Nodup ∧ ∀ m ∈ members, m.2.isProper = true := by
  rw [isProper, Bool.and_eq_true, decide_eq_true_iff, membersProper_iff]

mutual

/-- What a document can hold is usable. -/
theorem isUsable_of_isProper : ∀ {value : Json}, value.isProper = true → value.isUsable = true
  | .null, _ | .bool _, _ | .int _, _ | .double _, _ | .str _, _ => by rw [isUsable]
  | .arr _, h => by
    rw [isProper] at h
    rw [isUsable]
    exact areUsable_of_areProper h
  | .obj _, h => by
    rw [isProper, Bool.and_eq_true] at h
    rw [isUsable]
    exact membersUsable_of_membersProper h.2
  | .unusable, h => by rw [isProper] at h; cases h

theorem areUsable_of_areProper : ∀ {items : List Json}, areProper items = true →
    areUsable items = true
  | [], _ => by rw [areUsable]
  | _ :: _, h => by
    rw [areProper, Bool.and_eq_true] at h
    rw [areUsable, isUsable_of_isProper h.1, areUsable_of_areProper h.2]
    rfl

theorem membersUsable_of_membersProper : ∀ {members : List (String × Json)},
    membersProper members = true → membersUsable members = true
  | [], _ => by rw [membersUsable]
  | (_, _) :: _, h => by
    rw [membersProper, Bool.and_eq_true] at h
    rw [membersUsable, isUsable_of_isProper h.1, membersUsable_of_membersProper h.2]
    rfl

end

/-- A document can hold the value, and reading it gives `a`. -/
structure ReadsBack (read : Json → Option α) (value : Json) (a : α) : Prop where
  isProper : value.isProper = true
  read : read value = some a

/-! ### Depth -/

theorem depth_lt_of_mem_items {item : Json} {items : List Json} (h : item ∈ items) :
    item.depth < (Json.arr items).depth := by
  rw [depth, Nat.lt_succ_iff]
  induction items with
  | nil => cases h
  | cons first items ih =>
    rw [depthOfItems]
    rcases List.mem_cons.mp h with rfl | h
    · exact Nat.le_max_left ..
    · exact Nat.le_trans (ih h) (Nat.le_max_right ..)

theorem depth_lt_of_mem_members {key : String} {value : Json} {members : List (String × Json)}
    (h : (key, value) ∈ members) : value.depth < (Json.obj members).depth := by
  rw [depth, Nat.lt_succ_iff]
  induction members with
  | nil => cases h
  | cons first members ih =>
    obtain ⟨k, v⟩ := first
    rw [depthOfMembers]
    rcases List.mem_cons.mp h with h | h
    · cases h
      exact Nat.le_max_left ..
    · exact Nat.le_trans (ih h) (Nat.le_max_right ..)

/-! ### Simple values -/

theorem readsBack_string (s : String) : ReadsBack string? (.str s) s := ⟨by rw [isProper], rfl⟩

theorem readsBack_bool (b : Bool) : ReadsBack bool? (.bool b) b := ⟨by rw [isProper], rfl⟩

/-- Integers of 64 bits with their sign are read back. -/
theorem readsBack_int64 {n : Int}
    (h : (Int64.minValue.toInt ≤ n && n ≤ Int64.maxValue.toInt) = true) :
    ReadsBack int64? (.int n) n := by
  refine ⟨?_, if_pos h⟩
  rw [Bool.and_eq_true, decide_eq_true_iff, decide_eq_true_iff] at h
  have hmax : Int64.maxValue.toInt ≤ (UInt64.size : Int) - 1 := by decide
  rw [isProper, Bool.and_eq_true, decide_eq_true_iff, decide_eq_true_iff]
  exact ⟨h.1, Int.le_trans h.2 hmax⟩

/-- Doubles are read back if they are finite. -/
theorem readsBack_double {x : Binary64} (h : x.isFinite = true) :
    ReadsBack double? (.double x) x := ⟨by rw [isProper, h], rfl⟩

theorem readsBack_char (c : Char) : ReadsBack char? (.str (String.singleton c)) c :=
  ⟨by rw [isProper], by simp [char?]⟩

/-- A choice is read back by its name, if the names tell the choices apart. -/
theorem readsBack_choice {choices : List α} {name : α → String} {a : α} (source : Source)
    (hnames : (choices.map name).Nodup) (ha : a ∈ choices) :
    ReadsBack (choice? choices name source) (.str (name a)) a := by
  refine ⟨by rw [isProper], ?_⟩
  rw [choice?]
  induction choices with
  | nil => cases ha
  | cons first choices ih =>
    obtain ⟨hfirst, hrest⟩ := List.nodup_cons.mp hnames
    rcases List.mem_cons.mp ha with rfl | ha
    · simp
    · have hne : name first ≠ name a := fun heq => hfirst (heq ▸ List.mem_map_of_mem ha)
      rw [List.find?_cons_of_neg (by simpa using hne)]
      exact ih hrest ha

/-- A list is read back if its items are. -/
theorem readsBack_list {read : Json → Option α} {write : α → Json} {items : List α}
    (h : ∀ a ∈ items, ReadsBack read (write a) a) :
    ReadsBack (list? read) (.arr (items.map write)) items := by
  refine ⟨?_, ?_⟩
  · rw [isProper, areProper_iff]
    exact List.forall_mem_map.mpr fun a ha => (h a ha).isProper
  · rw [list?]
    induction items with
    | nil => rfl
    | cons a items ih =>
      have htail := ih fun b hb => h b (List.mem_cons_of_mem a hb)
      rw [List.map_cons, List.mapM_cons, (h a List.mem_cons_self).read, htail]
      rfl

/-- The members of an object are read back if their values are. -/
theorem mapM_members {read : Json → Option α} {write : α → Json} {entries : List (String × α)}
    (h : ∀ e ∈ entries, ReadsBack read (write e.2) e.2) :
    (entries.map fun e => (e.1, write e.2)).mapM (fun m => (read m.2).map (m.1, ·)) =
      some entries := by
  induction entries with
  | nil => rfl
  | cons e entries ih =>
    have htail := ih fun d hd => h d (List.mem_cons_of_mem e hd)
    rw [List.map_cons, List.mapM_cons, (h e List.mem_cons_self).read, htail]
    rfl

/-! ### Records -/

/-- The fields that are there, in order. -/
def layout (fields : List (String × Option Json)) : Fields :=
  fields.flatMap fun f => optionalMember f.1 f.2

/-- The list, if it has an item. -/
def arrayIfAny (items : List Json) : Option Json :=
  if items.isEmpty then none else some (.arr items)

theorem layout_cons (name : String) (value : Option Json) (fields : List (String × Option Json)) :
    layout ((name, value) :: fields) = optionalMember name value ++ layout fields := rfl

theorem listMember_eq (name : String) (items : List Json) :
    listMember name items = optionalMember name (arrayIfAny items) := by
  cases items <;> rfl

theorem mem_layout {name : String} {value : Json} {fields : List (String × Option Json)} :
    (name, value) ∈ layout fields ↔ (name, some value) ∈ fields := by
  induction fields with
  | nil => simp [layout]
  | cons f fields ih =>
    obtain ⟨n, v⟩ := f
    rw [layout_cons, List.mem_append, ih, List.mem_cons]
    cases v <;> simp [optionalMember]

/-- The names in a layout stand among the fields' names in the same order. -/
theorem keys_layout_sublist (fields : List (String × Option Json)) :
    ((layout fields).map (·.1)).Sublist (fields.map (·.1)) := by
  induction fields with
  | nil => exact List.Sublist.slnil
  | cons f fields ih =>
    obtain ⟨n, v⟩ := f
    rw [layout_cons, List.map_append, List.map_cons]
    cases v with
    | none => exact ih.cons _
    | some v => exact ih.cons_cons n

/-- Looking a field up gives what was put under its name. -/
theorem lookup_layout {fields : List (String × Option Json)} (h : (fields.map (·.1)).Nodup)
    (name : String) : (layout fields).lookup name = (fields.lookup name).join := by
  induction fields with
  | nil => rfl
  | cons f fields ih =>
    obtain ⟨n, v⟩ := f
    obtain ⟨hn, hfields⟩ := List.nodup_cons.mp h
    rw [layout_cons, List.lookup_cons]
    by_cases hname : name = n
    · subst hname
      have hrest : (layout fields).lookup name = none := by
        rw [List.lookup_eq_none_iff]
        intro entry hentry
        have hmem := (keys_layout_sublist fields).subset (List.mem_map_of_mem hentry)
        exact bne_iff_ne.mpr fun heq => hn (heq ▸ hmem)
      cases v <;> simp [optionalMember, hrest]
    · rw [beq_false_of_ne hname, ← ih hfields]
      cases v <;> simp [optionalMember, List.lookup_cons, beq_false_of_ne hname]

/-- A document can hold a layout if it can hold each value. -/
theorem isProper_layout {fields : List (String × Option Json)} (h : (fields.map (·.1)).Nodup)
    (hvalues : (fields.all fun f => f.2.all isProper) = true) :
    (Json.obj (layout fields)).isProper = true := by
  refine isProper_obj_iff.mpr ⟨(keys_layout_sublist fields).nodup h, fun m hm => ?_⟩
  exact List.all_eq_true.mp hvalues _ (mem_layout.mp hm)

theorem all_isProper_arrayIfAny (items : List Json) :
    (arrayIfAny items).all isProper = (Json.arr items).isProper := by
  cases items with
  | nil => simp [arrayIfAny, isProper, areProper]
  | cons item items => rfl

theorem all_isProper_map {write : α → Json} {x : Option α}
    (h : ∀ a, x = some a → (write a).isProper = true) : (x.map write).all isProper = true := by
  cases x with
  | none => rfl
  | some a => exact h a rfl

/-- A layout is a variant with fields of any names. -/
theorem fields?_layout {fields : List (String × Option Json)} (h : (fields.map (·.1)).Nodup)
    (names : List String) : fields? names (.obj (layout fields)) = some (layout fields) := by
  refine if_pos (List.all_eq_true.mpr fun name _ => decide_eq_true ?_)
  have hkeys := (keys_layout_sublist fields).nodup h
  have hcount := List.nodup_iff_count_le_one.mp hkeys name
  rwa [List.count, List.countP_map] at hcount

/-- A layout is a record whose fields have any names. -/
theorem record?_layout {fields : List (String × Option Json)} (h : (fields.map (·.1)).Nodup)
    (names : List String) : record? names (.obj (layout fields)) = some (layout fields) :=
  fields?_layout h names

/-- A reader that reads a part first gives what it gives for that part. -/
theorem read_next {part : Option α} {rest : α → Option β} {a : α} {b : β} (hpart : part = some a)
    (hrest : rest a = some b) : (part >>= rest) = some b := by
  rw [hpart]
  exact hrest

section

variable {fields : List (String × Option Json)} (hfields : (fields.map (·.1)).Nodup) (name : String)
include hfields

/-- A field that must be there is read back. -/
theorem required_layout {read : Json → Option α} {value : Json} {a : α}
    (hname : fields.lookup name = some (some value)) (h : ReadsBack read value a) :
    (layout fields).required name read = some a := by
  rw [Fields.required, lookup_layout hfields, hname]
  exact h.read

/-- A field with a default is read back where it is written. -/
theorem defaulted_layout {read : Json → Option α} {value : Json} {a default : α}
    (hname : fields.lookup name = some (some value)) (h : ReadsBack read value a) :
    (layout fields).defaulted name default read = some a := by
  rw [Fields.defaulted, lookup_layout hfields, hname]
  exact h.read

/-- A list is read back, though it is left out without items. -/
theorem list_layout {read : Json → Option α} {write : α → Json} {items : List α}
    (hname : fields.lookup name = some (arrayIfAny (items.map write)))
    (h : ReadsBack (list? read) (.arr (items.map write)) items) :
    (layout fields).list name read = some items := by
  rw [Fields.list, Fields.defaulted, lookup_layout hfields, hname]
  cases items with
  | nil => rfl
  | cons a items => exact h.read

/-- A field that may be absent is read back, unless it is written as `null`. -/
theorem optional_layout {read : Json → Option α} {write : α → Json} {x : Option α}
    (hname : fields.lookup name = some (x.map write))
    (h : ∀ a, x = some a → ReadsBack read (write a) a ∧ write a ≠ .null) :
    (layout fields).optional name read = some x := by
  rw [Fields.optional, lookup_layout hfields, hname]
  cases x with
  | none => rfl
  | some a =>
    obtain ⟨hread, hnull⟩ := h a rfl
    simp only [Option.map_some, Option.join_some]
    rw [hread.read, Option.map_some]

end

/-! ### Variants -/

/-- The name of a variant is told from its contents, which come after it. -/
theorem splitTag?_layout {fields : List (String × Option Json)} {tag : Json}
    (h : ("kind" :: fields.map (·.1)).Nodup) :
    splitTag? (.obj (layout (("kind", some tag) :: fields))) =
      some (tag, .obj (layout fields)) := by
  have hkind : ∀ m ∈ layout fields, (m.1 == "kind") = false := fun m hm =>
    beq_false_of_ne fun heq => (List.nodup_cons.mp h).1
      (heq ▸ (keys_layout_sublist fields).subset (List.mem_map_of_mem hm))
  have hcount : (layout fields).countP (·.1 == "kind") = 0 :=
    List.countP_eq_zero.mpr fun m hm => by simp [hkind m hm]
  have hfilter : (layout fields).filter (·.1 != "kind") = layout fields :=
    List.filter_eq_self.mpr fun m hm => by simp [bne, hkind m hm]
  simp [splitTag?, layout_cons, optionalMember, countKey, hcount, hfilter]

/-- A variant's name is read back. -/
theorem tag?_str {names : List String} {name : String} (source : Source) (h : name ∈ names) :
    tag? names source (.str name) = some name := by
  rw [tag?, if_pos (List.contains_iff_mem.mpr h)]

end DataClassGen.Json
