import DataClassGen.Proofs.Source.CleanedFiles

/-!
# Cleaning up a second time

Each line is looked at once: first whether it is a redundant import, then for an explicit `public`.
So an import behind an explicit `public` is kept when a text is cleaned up, and what is left of its
line is an import that the next time goes. Nothing else is done to a text that is cleaned up again
(`clean_clean_iff`), and there is nothing left to do for a third time, since no line of a cleaned text
has an explicit `public`.
-/

namespace DataClassGen.Source

/-! ### Imports behind explicit `public` -/

/-- The word `public` and a blank, once for each of these runs of further blanks. -/
def publics (gaps : List (List Char)) : List Char := gaps.flatMap fun gap => "public ".toList ++ gap

/-- The line is a redundant import but for explicit `public` in front of it, once or more often. -/
def HidesImport (package : String) (line : List Char) : Prop :=
  ∃ gaps rest, gaps ≠ [] ∧ (∀ gap ∈ gaps, Text.isBlankLine gap = true) ∧
    line = publics gaps ++ rest ∧ isRedundantImport package rest = true

theorem publics_cons (gap : List Char) (gaps : List (List Char)) :
    publics (gap :: gaps) = "public ".toList ++ (gap ++ publics gaps) := by
  rw [publics, List.flatMap_cons, List.append_assoc, publics]

theorem dropPublic_public (cs : List Char) :
    dropPublic ("public ".toList ++ cs) = dropPublic (Text.trimLeft cs) := by
  rw [dropPublic]
  split
  · next h =>
    rw [List.isPrefixOf?_eq_some_iff_append_eq.mpr rfl] at h
    cases h
  · next rest h =>
    rw [List.append_cancel_left (Text.eq_append_of_isPrefixOf? h)]

/-- All of them are dropped, with the blanks behind them. -/
theorem dropPublic_publics {gaps : List (List Char)} (h : ∀ gap ∈ gaps, Text.isBlankLine gap = true)
    {rest : List Char} (hrest : Text.trimLeft rest = rest) :
    dropPublic (publics gaps ++ rest) = dropPublic rest := by
  induction gaps with
  | nil => rfl
  | cons gap gaps ih =>
    obtain ⟨hgap, hgaps⟩ := List.forall_mem_cons.mp h
    have htrim : Text.trimLeft (publics gaps ++ rest) = publics gaps ++ rest := by
      cases gaps with
      | nil => exact hrest
      | cons gap gaps => rfl
    rw [publics_cons, List.append_assoc, List.append_assoc, dropPublic_public,
      trimLeft_append_of_blanks (List.all_eq_true.mp hgap), htrim, ih hgaps]

/-- What is dropped is explicit `public` with blanks behind it, as often as it stands there. -/
theorem exists_publics (cs : List Char) :
    ∃ gaps, (∀ gap ∈ gaps, Text.isBlankLine gap = true) ∧ cs = publics gaps ++ dropPublic cs := by
  fun_induction dropPublic cs with
  | case1 cs h => exact ⟨[], by simp, rfl⟩
  | case2 cs rest h ih =>
    obtain ⟨gaps, hgaps, heq⟩ := ih
    refine ⟨rest.takeWhile Text.isBlank :: gaps, List.forall_mem_cons.mpr ⟨?_, hgaps⟩, ?_⟩
    · exact List.all_eq_true.mpr fun c hc => List.mem_takeWhile_imp hc
    · rw [publics_cons, List.append_assoc, List.append_assoc, ← heq, indent_append]
      exact Text.eq_append_of_isPrefixOf? h

/-! ### Lines that become imports -/

variable {package : String} {line : List Char}

/-- A redundant import has no blank and no explicit `public` in front. -/
theorem cleanLine_of_isRedundantImport (h : isRedundantImport package line = true) :
    Text.trimLeft line = line ∧ dropPublic line = line ∧ cleanLine line = line := by
  obtain ⟨rest, rfl⟩ := prefix_of_isRedundantImport h
  have hmarked : ¬ IsMarkedPublic ("import ".toList ++ rest) := by
    rintro ⟨_, heq⟩
    exact absurd (List.cons.inj heq).1 (by decide)
  refine ⟨rfl, dropPublic_of_not_prefix hmarked, ?_⟩
  rw [cleanLine_of_not_marked hmarked, emptied, if_neg]
  exact fun hblank => absurd (List.all_eq_true.mp hblank 'i' (by simp)) (by decide)

theorem cleanLine_of_starts (h : "public ".toList <+: line) :
    cleanLine line = emptied (dropPublic line) := by
  obtain ⟨rest, rfl⟩ := h
  rfl

/-- A line hides an import if `public` is its beginning and a redundant import comes out of it. -/
theorem hidesImport_iff : HidesImport package line ↔
    "public ".toList <+: line ∧ isRedundantImport package (cleanLine line) = true := by
  constructor
  · rintro ⟨_ | ⟨gap, gaps⟩, rest, hne, hgaps, rfl, hrest⟩
    · exact absurd rfl hne
    · obtain ⟨htrim, hdrop, hclean⟩ := cleanLine_of_isRedundantImport hrest
      have hstart : "public ".toList <+: publics (gap :: gaps) ++ rest := by
        rw [publics_cons, List.append_assoc]
        exact List.prefix_append _ _
      have hfull : emptied rest = rest := by rw [← hclean, emptied_cleanLine]
      rw [cleanLine_of_starts hstart, dropPublic_publics hgaps htrim, hdrop, hfull]
      exact ⟨hstart, hrest⟩
  · rintro ⟨hstart, hredundant⟩
    rw [cleanLine_of_starts hstart, emptied] at hredundant
    split at hredundant
    · cases hredundant
    · obtain ⟨gaps, hgaps, heq⟩ := exists_publics line
      refine ⟨gaps, dropPublic line, ?_, hgaps, heq, hredundant⟩
      rintro rfl
      rw [publics, List.flatMap_nil, List.nil_append] at heq
      exact not_prefix_dropPublic line (heq ▸ hstart)

/-- A kept line becomes a redundant import just when it hides one. -/
theorem isRedundantImport_cleanLine_iff (h : isRedundantImport package line = false) :
    isRedundantImport package (cleanLine line) = true ↔ HidesImport package line := by
  refine ⟨fun hcleaned => ?_, fun hhides => (hidesImport_iff.mp hhides).2⟩
  refine hidesImport_iff.mpr ⟨?_, hcleaned⟩
  by_contra hpublic
  have himport : "import ".toList <+: line := by
    by_contra himport
    exact SourceFile.not_import_cleanLine himport hpublic (prefix_of_isRedundantImport hcleaned)
  obtain ⟨rest, rfl⟩ := himport
  have hmarked : ¬ IsMarkedPublic ("import ".toList ++ rest) := hpublic
  rw [cleanLine_of_not_marked hmarked, emptied] at hcleaned
  split at hcleaned
  · cases hcleaned
  · rw [h] at hcleaned
    cases hcleaned

variable {text : List Char}

/-- None of the kept lines becomes a redundant import just when no line hides one. -/
theorem forall_keptLines_iff :
    (∀ line ∈ keptLines package text, isRedundantImport package (cleanLine line) = false) ↔
      ∀ line ∈ Text.lines text, ¬ HidesImport package line := by
  constructor
  · intro h line hline hhides
    have hkept : isRedundantImport package line = false := by
      by_contra hredundant
      have hredundant := Bool.eq_true_of_not_eq_false hredundant
      obtain ⟨rest, rfl⟩ := (hidesImport_iff.mp hhides).1
      have hhead := head?_of_starts (show "import ".toList.head? = some 'i' from rfl)
        (prefix_of_isRedundantImport hredundant)
      exact absurd (Option.some.inj hhead) (by decide)
    have := h line (List.mem_filter.mpr ⟨hline, by rw [hkept, Bool.not_false]⟩)
    rw [(isRedundantImport_cleanLine_iff hkept).mpr hhides] at this
    cases this
  · intro h line hline
    obtain ⟨hline, hkept⟩ := List.mem_filter.mp hline
    rw [Bool.not_eq_true'] at hkept
    exact Bool.eq_false_of_not_eq_true fun hcleaned =>
      h line hline ((isRedundantImport_cleanLine_iff hkept).mp hcleaned)

/-! ### Lines that stay -/

theorem mem_mergeEmpty {afterEmpty : Bool} {lines : List (List Char)} (h : line ∈ lines)
    (hne : line ≠ []) : line ∈ mergeEmpty afterEmpty lines := by
  induction lines generalizing afterEmpty with
  | nil => cases h
  | cons first lines ih =>
    by_cases hfirst : first = []
    · subst hfirst
      have hmem := (List.mem_cons.mp h).resolve_left hne
      cases afterEmpty with
      | true => exact ih hmem
      | false => exact List.mem_cons_of_mem _ (ih hmem)
    · rw [mergeEmpty_cons hfirst]
      exact (List.mem_cons.mp h).elim (fun heq => heq ▸ List.mem_cons_self)
        fun hmem => List.mem_cons_of_mem _ (ih hmem)

theorem mem_dropEmptyEnd {lines : List (List Char)} (h : line ∈ lines) (hne : line ≠ []) :
    line ∈ dropEmptyEnd lines := by
  induction lines with
  | nil => cases h
  | cons first lines ih =>
    by_cases hfirst : first = []
    · subst hfirst
      have hmem := ih ((List.mem_cons.mp h).resolve_left hne)
      rw [dropEmptyEnd_nil_cons, if_neg (List.ne_nil_of_mem hmem)]
      exact List.mem_cons_of_mem _ hmem
    · rw [dropEmptyEnd_cons hfirst]
      exact (List.mem_cons.mp h).elim (fun heq => heq ▸ List.mem_cons_self)
        fun hmem => List.mem_cons_of_mem _ (ih hmem)

/-- A kept line of which anything is left is there when the text is cleaned up. -/
theorem cleanLine_mem_cleanLines (h : line ∈ keptLines package text) (hne : cleanLine line ≠ []) :
    cleanLine line ∈ cleanLines package text :=
  mem_dropEmptyEnd (mem_mergeEmpty (List.mem_map_of_mem h) hne) hne

/-- A cleaned text has no redundant import just when no line of the text hides one. -/
theorem forall_cleanLines_iff :
    (∀ line ∈ cleanLines package text, isRedundantImport package line = false) ↔
      ∀ line ∈ Text.lines text, ¬ HidesImport package line := by
  rw [← forall_keptLines_iff]
  constructor
  · intro hall line hline
    by_cases hnil : cleanLine line = []
    · rw [hnil]
      rfl
    · exact hall _ (cleanLine_mem_cleanLines hline hnil)
  · intro hall line hline
    obtain ⟨kept, hkept, rfl⟩ := List.mem_map.mp (cleanLines_sublist.subset hline)
    exact hall kept hkept

theorem return_not_mem_ended {lines : List (List Char)} (h : ∀ line ∈ lines, Text.IsLine line) :
    '\r' ∉ Text.ended lines := by
  intro hmem
  obtain ⟨line, hline, hmem⟩ := List.mem_flatMap.mp hmem
  rcases List.mem_append.mp hmem with hmem | hmem
  · exact (h line hline).2 hmem
  · exact absurd hmem (by decide)

theorem return_not_mem_cleaned (h : '\r' ∉ text) :
    '\r' ∉ Text.ended (cleanLines package text) :=
  return_not_mem_ended fun _ => isLine_of_mem_cleanLines h

/-- No line is a redundant import after a second time. -/
theorem not_redundant_of_cleaned (h : '\r' ∉ text)
    (hline : line ∈ cleanLines package (Text.ended (cleanLines package text))) :
    isRedundantImport package line = false := by
  obtain ⟨kept, hkept, rfl⟩ := List.mem_map.mp (cleanLines_sublist.subset hline)
  obtain ⟨hmem, hkept⟩ := List.mem_filter.mp hkept
  rw [Text.lines_ended fun _ => isLine_of_mem_cleanLines h] at hmem
  obtain ⟨first, -, rfl⟩ := List.mem_map.mp (cleanLines_sublist.subset hmem)
  rwa [cleanLine_cleanLine, ← Bool.not_eq_true']

theorem clean_clean_of_not_hides {text : String} (h : '\r' ∉ text.toList)
    (hnone : ∀ line ∈ Text.lines text.toList, ¬ HidesImport package line) :
    clean package (clean package text) = clean package text := by
  rw [← String.toList_inj, toList_clean, toList_clean,
    cleanLines_cleaned h (forall_keptLines_iff.mpr hnone)]

/-- A text that was cleaned up stays as it is when it is cleaned up again just when no line was a
redundant import behind explicit `public`; that is also when no line of it is a redundant import.
The third time never changes anything. -/
theorem clean_clean_iff (package text : String) (h : '\r' ∉ text.toList) :
    (clean package (clean package text) = clean package text ↔
      ∀ line ∈ Text.lines text.toList, ¬ HidesImport package line) ∧
    ((∀ line ∈ Text.lines (clean package text).toList, isRedundantImport package line = false) ↔
      ∀ line ∈ Text.lines text.toList, ¬ HidesImport package line) ∧
    clean package (clean package (clean package text)) = clean package (clean package text) := by
  refine ⟨⟨fun hagain => ?_, clean_clean_of_not_hides h⟩, ?_, ?_⟩
  · rw [← String.toList_inj, toList_clean, toList_clean] at hagain
    have hlines := congrArg Text.lines hagain
    rw [Text.lines_ended fun _ => isLine_of_mem_cleanLines h,
      Text.lines_ended fun _ => isLine_of_mem_cleanLines (return_not_mem_cleaned h)] at hlines
    exact forall_cleanLines_iff.mp fun line hline => not_redundant_of_cleaned h (by rwa [hlines])
  · rw [lines_clean h, forall_cleanLines_iff]
  · have hreturn : '\r' ∉ (clean package text).toList := by
      rw [toList_clean]
      exact return_not_mem_cleaned h
    refine clean_clean_of_not_hides hreturn fun line hline hhides => ?_
    rw [lines_clean h] at hline
    obtain ⟨kept, -, rfl⟩ := List.mem_map.mp (cleanLines_sublist.subset hline)
    exact not_marked_cleanLine kept (isMarkedPublic_of_starts (hidesImport_iff.mp hhides).1)

/-- An import behind `public` is still there after cleaning up, but not after doing so again. -/
theorem hidden_import_goes_later :
    clean "test" "public import kotlin.String\n" = "import kotlin.String\n" ∧
      clean "test" (clean "test" "public import kotlin.String\n") ≠
        clean "test" "public import kotlin.String\n" := by
  refine ⟨by decide +kernel, fun hagain => ?_⟩
  have hnone := (clean_clean_iff "test" "public import kotlin.String\n" (by decide)).1.mp hagain
  refine hnone "public import kotlin.String".toList (by decide)
    ⟨[[]], "import kotlin.String".toList, ?_⟩
  exact ⟨by decide, by decide, rfl, by decide⟩

end DataClassGen.Source
