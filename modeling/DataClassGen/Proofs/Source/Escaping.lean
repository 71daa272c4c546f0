import DataClassGen.Proofs.Source.Imports
import DataClassGen.Proofs.Source.LookUp

/-!
# Names that have to be escaped

A name that is a keyword, or no plain identifier, stands between backticks wherever it is declared,
and in the package of the file. A class is referred to by simple names, which are escaped as well,
or by its canonical name, which is not; and what is imported are canonical names. So a class with a
segment that has to be escaped is written as it must be in some places of a file and not in others:
which it is depends on the other classes that the file refers to (`names_are_escaped_iff`).

The text is compared with what the names would be, escaped one by one. It is never made up for
elsewhere: an escaped name is longer than the name, and dots are counted to tell where in the
canonical name of the class the text begins.
-/

namespace DataClassGen.Source

/-! ### Names -/

/-- The name is written without backticks. -/
def IsPlain (name : String) : Prop := isKeyword name = false ∧ isPlainIdentifier name = true

instance (name : String) : Decidable (IsPlain name) := inferInstanceAs (Decidable (_ ∧ _))

theorem escape_of_isPlain {name : String} (h : IsPlain name) : escape name = name := by
  rw [escape, h.1, h.2]
  rfl

theorem length_escape {name : String} (h : ¬IsPlain name) :
    (escape name).toList.length = name.toList.length + 2 := by
  have hescaped : (isKeyword name || !isPlainIdentifier name) = true := by
    cases hkeyword : isKeyword name
    · cases hidentifier : isPlainIdentifier name
      · rfl
      · exact absurd ⟨hkeyword, hidentifier⟩ h
    · rfl
  rw [escape, if_pos hescaped]
  simp only [String.toList_append, List.length_append]
  show 1 + name.toList.length + 1 = _
  omega

theorem length_le_escape (name : String) : name.toList.length ≤ (escape name).toList.length := by
  by_cases h : IsPlain name
  · rw [escape_of_isPlain h]
  · rw [length_escape h]
    omega

/-- Joining the names as they are gives no longer text than joining them escaped, and a shorter one
unless they are all plain. -/
theorem length_joinWith_le_dotted (names : List String) :
    (Text.joinWith "." names).toList.length ≤ (dotted names).toList.length ∧
      ((Text.joinWith "." names).toList.length = (dotted names).toList.length →
        ∀ name ∈ names, IsPlain name) := by
  have hone : ∀ name, name.toList.length = (escape name).toList.length → IsPlain name := by
    intro name hlength
    by_contra h
    rw [length_escape h] at hlength
    omega
  induction names with
  | nil => exact ⟨Nat.le_refl _, fun _ _ h => nomatch h⟩
  | cons name names ih =>
    cases names with
    | nil =>
      refine ⟨length_le_escape name, fun hlength other hother => ?_⟩
      rw [List.mem_singleton.mp hother]
      exact hone name hlength
    | cons next names =>
      have hfirst := length_le_escape name
      obtain ⟨hrest, hplain⟩ := ih
      simp only [dotted, List.map_cons, Text.joinWith, String.toList_append,
        List.length_append] at hrest hplain ⊢
      refine ⟨by omega, fun hlength => List.forall_mem_cons.mpr ⟨hone name ?_, hplain ?_⟩⟩ <;> omega

/-- Names are joined as they have to be written just when none of them has to be escaped. -/
theorem joinWith_eq_dotted_iff {names : List String} :
    Text.joinWith "." names = dotted names ↔ ∀ name ∈ names, IsPlain name := by
  constructor
  · intro h
    exact (length_joinWith_le_dotted names).2 (congrArg (fun s => s.toList.length) h)
  · intro h
    have hescape : names.map escape = names :=
      (List.map_congr_left fun name hname => escape_of_isPlain (h name hname)).trans (List.map_id _)
    rw [dotted, hescape]

/-! ### Classes -/

namespace ClassName

variable {cls : ClassName}

/-- The segments of the canonical name: those of the package, then the simple names. -/
def segments (cls : ClassName) : List String :=
  (if cls.package.isEmpty then [] else Text.split '.' cls.package) ++ cls.simpleNames

theorem joinWith_segments (h : cls.simpleNames ≠ []) :
    Text.joinWith "." cls.segments = cls.canonical := by
  rw [segments, canonical]
  split
  · rfl
  · rw [Text.joinWith_append "." (Text.split_ne_nil '.' _) h]
    exact congrArg (· ++ "." ++ _) (Text.joinWith_split '.' cls.package)

/-- The text is the class's name as it has to be written: some last segments of it with dots between
them, each of them escaped where it has to be. -/
def IsWrittenAs (cls : ClassName) (text : String) : Prop :=
  ∃ names, names ≠ [] ∧ names <:+ cls.segments ∧ text = dotted names

/-- Simple names are written as they have to be, whichever they begin with. -/
theorem isWrittenAs_dotted {names : List String} (h : names ≠ [])
    (hsuffix : names <:+ cls.simpleNames) :
    cls.IsWrittenAs (dotted names) :=
  ⟨names, h, hsuffix.trans (List.suffix_append ..), rfl⟩

/-- A canonical name is as it has to be written just when none of its segments has to be escaped. -/
theorem isWrittenAs_canonical_iff (h : cls.simpleNames ≠ []) :
    cls.IsWrittenAs cls.canonical ↔ ∀ segment ∈ cls.segments, IsPlain segment := by
  rw [← joinWith_segments h, ← joinWith_eq_dotted_iff]
  constructor
  · rintro ⟨names, hne, ⟨before, hbefore⟩, htext⟩
    -- the text has all the dots, so it begins with the first segment
    obtain rfl : before = [] := by
      by_contra hnil
      have hdots := congrArg (fun s : String => s.toList.count '.') htext
      rw [← hbefore, Text.joinWith_append "." hnil hne] at hdots
      simp only [count_dot_dotted, String.toList_append, List.count_append] at hdots
      have hdot : ".".toList.count '.' = 1 := rfl
      omega
    rw [List.nil_append] at hbefore
    rw [htext, hbefore]
  · intro htext
    exact ⟨cls.segments, List.append_ne_nil_of_right_ne_nil _ h, List.suffix_rfl, htext⟩

end ClassName

/-! ### Files -/

/-- A reference is written as it has to be, unless it is a canonical name with a segment that has to
be escaped. -/
theorem SourceFile.isWrittenAs_reference_iff (file : SourceFile) {cls : ClassName}
    (h : cls.simpleNames ≠ []) (scope : List String) :
    cls.IsWrittenAs (file.names.reference scope cls) ↔
      (isForeign file.package cls = true → cls.topLevel ∉ file.imported →
        ∀ segment ∈ cls.segments, IsPlain segment) := by
  by_cases hforeign : isForeign file.package cls = true
  · rw [file.reference_of_foreign hforeign]
    split
    · next himported =>
      exact iff_of_true (ClassName.isWrittenAs_dotted h List.suffix_rfl)
        fun _ hnot => absurd himported hnot
    · next himported =>
      rw [ClassName.isWrittenAs_canonical_iff h]
      exact ⟨fun hplain _ _ => hplain, fun hplain => hplain hforeign himported⟩
  · refine iff_of_true ?_ fun h => absurd h hforeign
    rw [isForeign_iff, not_and_or, not_not, not_not] at hforeign
    rw [Names.reference]
    split
    · exact ClassName.isWrittenAs_dotted (relativeNames_ne_nil h scope) (List.drop_suffix _ _)
    · next hother =>
      rw [if_pos (by simpa using hforeign.resolve_left hother)]
      exact ClassName.isWrittenAs_dotted h List.suffix_rfl

/-- The package of a file is written as it has to be. So is an import just when no segment of the
class has to be escaped; and so is every reference, but for a canonical name with a segment that has
to be. -/
theorem names_are_escaped_iff (file : SourceFile) :
    (file.package ≠ "" → ∃ names, (∀ name ∈ names, '.' ∉ name.toList) ∧
      Text.joinWith "." names = file.package ∧
      file.packageText = "package " ++ dotted names ++ "\n\n") ∧
    (∀ name, name ∈ file.importNames ↔ ∃ cls ∈ file.imported, cls.canonical = name) ∧
    (∀ cls ∈ file.imported, cls.simpleNames ≠ [] →
      (cls.IsWrittenAs cls.canonical ↔ ∀ segment ∈ cls.segments, IsPlain segment)) ∧
    ∀ scope cls, (scope, cls) ∈ lineReferences file.layout → cls.simpleNames ≠ [] →
      (cls.IsWrittenAs (file.names.reference scope cls) ↔
        (isForeign file.package cls = true → cls.topLevel ∉ file.imported →
          ∀ segment ∈ cls.segments, IsPlain segment)) := by
  refine ⟨fun hpackage => ⟨Text.split '.' file.package, fun name hname => ?_,
    Text.joinWith_split '.' file.package, ?_⟩, fun name => ?_, fun cls _ h =>
    ClassName.isWrittenAs_canonical_iff h,
    fun scope cls _ h => file.isWrittenAs_reference_iff h scope⟩
  · obtain ⟨piece, hpiece, rfl⟩ := List.mem_map.mp hname
    rw [String.toList_ofList]
    exact Text.not_mem_of_mem_cut hpiece
  · rw [SourceFile.packageText, if_neg (by simpa using hpackage)]
  · rw [file.importNames_eq, (orderedNames_spec _).2, List.mem_map]

/-- A class `A` with a type `B` in it, in a package with a keyword in its name, and references to
classes of another one: `I`, which is imported, and another `B`. -/
def keywordFile : SourceFile where
  package := "test.in"
  root := {
    kind := .classDecl
    name := "A"
    properties := [
      { name := "i", type := .ofClass ⟨"com.object", ["I"]⟩ },
      { name := "b", type := .ofClass ⟨"com.object", ["B"]⟩ },
      { name := "c", type := .ofClass ⟨"test.in", ["val"]⟩ }]
    types := [{ kind := .enumDecl, name := "B" }] }

/-- The package and the class of its own are escaped there; what is imported is not, and neither is
the canonical name. -/
theorem keyword_file_is_escaped_in_part :
    keywordFile.packageText = "package test.`in`\n\n" ∧
    keywordFile.imported = [⟨"com.object", ["I"]⟩] ∧
    ¬(ClassName.mk "com.object" ["I"]).IsWrittenAs "com.object.I" ∧
    (ClassName.mk "com.object" ["I"]).IsWrittenAs
      (keywordFile.names.reference ["A"] ⟨"com.object", ["I"]⟩) ∧
    ¬(ClassName.mk "com.object" ["B"]).IsWrittenAs
      (keywordFile.names.reference ["A"] ⟨"com.object", ["B"]⟩) ∧
    (ClassName.mk "test.in" ["val"]).IsWrittenAs
      (keywordFile.names.reference ["A"] ⟨"test.in", ["val"]⟩) := by
  obtain ⟨-, -, himports, hreferences⟩ := names_are_escaped_iff keywordFile
  have himported : keywordFile.imported = [⟨"com.object", ["I"]⟩] := by decide +kernel
  have hlines : lineReferences keywordFile.layout = [(["A"], ⟨"com.object", ["I"]⟩),
      (["A"], ⟨"com.object", ["B"]⟩), (["A"], ⟨"test.in", ["val"]⟩)] := by decide +kernel
  refine ⟨by decide +kernel, himported, fun h => ?_, ?_, fun h => ?_, ?_⟩
  · have hplain := (himports ⟨"com.object", ["I"]⟩ (by simp [himported]) (by decide)).mp h
    exact absurd (hplain "object" (by decide +kernel)) (by decide +kernel)
  · refine (hreferences ["A"] _ (by simp [hlines]) (by decide)).mpr fun _ hnot => ?_
    exact absurd (by simp [himported, ClassName.topLevel]) hnot
  · have hplain := (hreferences ["A"] ⟨"com.object", ["B"]⟩ (by simp [hlines]) (by decide)).mp h
      (by decide +kernel) (by rw [himported]; decide)
    exact absurd (hplain "object" (by decide +kernel)) (by decide +kernel)
  · refine (hreferences ["A"] _ (by simp [hlines]) (by decide)).mpr fun hforeign => ?_
    exact absurd hforeign (by decide)

end DataClassGen.Source
