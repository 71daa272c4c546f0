import Mathlib.Data.List.DropRight
import DataClassGen.Proofs.Names
import DataClassGen.Source.Cleanup

/-!
# What cleaning up leaves of a text

Cleaning up works on the lines of a text, one by one but for the empty ones. If no line has an
explicit `public`, the lines that are left are those of the text but redundant imports, as they
stand; only where blank lines stood between two of them, one empty line stands now. And if one has,
they are not, since the cleaned lines are shorter altogether (`cleanLines_eq_iff`). A text that was
cleaned up is not changed by cleaning it up again, unless lines that began with `public` have turned
into imports (`cleanLines_cleaned`).
-/

namespace DataClassGen

/-! ### Lines -/

namespace Text

/-- Lines, each with a line feed behind it. -/
def ended (lines : List (List Char)) : List Char := lines.flatMap fun line => line ++ ['\n']

/-- The characters are those of one line. -/
def IsLine (line : List Char) : Prop := '\n' ∉ line ∧ '\r' ∉ line

/-- The pieces of a text have its characters but the one it is cut at. -/
theorem of_mem_cut {sep : Char} {cs piece : List Char} (h : piece ∈ cut sep cs) :
    sep ∉ piece ∧ piece ⊆ cs := by
  induction cs generalizing piece with
  | nil =>
    obtain rfl := List.mem_singleton.mp h
    exact ⟨List.not_mem_nil, List.nil_subset _⟩
  | cons c cs ih =>
    rw [cut] at h
    split at h
    · rcases List.mem_cons.mp h with rfl | h
      · exact ⟨List.not_mem_nil, List.nil_subset _⟩
      · exact ⟨(ih h).1, List.subset_cons_of_subset _ (ih h).2⟩
    · next hc =>
      split at h
      · next hnil => exact absurd hnil (cut_ne_nil sep cs)
      · next first rest hcut =>
        rw [hcut] at ih
        rcases List.mem_cons.mp h with rfl | h
        · obtain ⟨hsep, hsub⟩ := ih List.mem_cons_self
          refine ⟨?_, List.cons_subset_cons _ hsub⟩
          exact fun hmem => (List.mem_cons.mp hmem).elim (fun heq => hc heq.symm) hsep
        · obtain ⟨hsep, hsub⟩ := ih (List.mem_cons_of_mem _ h)
          exact ⟨hsep, List.subset_cons_of_subset _ hsub⟩

theorem cut_append_sep {sep : Char} {line : List Char} (h : sep ∉ line) (rest : List Char) :
    cut sep (line ++ sep :: rest) = line :: cut sep rest := by
  induction line with
  | nil => simp [cut]
  | cons c line ih =>
    obtain ⟨hc, hline⟩ := not_or.mp (mt List.mem_cons.mpr h)
    rw [List.cons_append, cut, if_neg (Ne.symm hc), ih hline]

theorem cut_of_not_mem {sep : Char} {cs : List Char} (h : sep ∉ cs) : cut sep cs = [cs] := by
  induction cs with
  | nil => rfl
  | cons c cs ih =>
    obtain ⟨hc, hcs⟩ := not_or.mp (mt List.mem_cons.mpr h)
    rw [cut, if_neg (Ne.symm hc), ih hcs]

theorem cut_ended {lines : List (List Char)} (h : ∀ line ∈ lines, '\n' ∉ line) :
    cut '\n' (ended lines) = lines ++ [[]] := by
  induction lines with
  | nil => rfl
  | cons line lines ih =>
    obtain ⟨hline, hlines⟩ := List.forall_mem_cons.mp h
    rw [ended, List.flatMap_cons, List.append_assoc, List.singleton_append, cut_append_sep hline]
    rw [show lines.flatMap (fun line => line ++ ['\n']) = ended lines from rfl, ih hlines,
      List.cons_append]

theorem dropReturn_of_not_mem {line : List Char} (h : '\r' ∉ line) : dropReturn line = line := by
  rw [dropReturn, if_neg]
  exact fun hlast => h (List.mem_of_getLast? hlast)

/-- Without carriage returns, lines are what line feeds stand between. -/
theorem mem_cut_of_mem_lines {cs line : List Char} (h : '\r' ∉ cs) (hline : line ∈ Text.lines cs) :
    line ∈ cut '\n' cs := by
  have hended : ∀ line ∈ (cut '\n' cs).dropLast.map dropReturn, line ∈ cut '\n' cs := by
    intro line hline
    obtain ⟨piece, hpiece, rfl⟩ := List.mem_map.mp hline
    have hpiece := List.dropLast_subset _ hpiece
    rwa [dropReturn_of_not_mem fun hmem => h ((of_mem_cut hpiece).2 hmem)]
  rw [Text.lines] at hline
  split at hline
  · exact hended line hline
  · exact hended line hline
  · next rest _ hlast =>
    rcases List.mem_append.mp hline with hline | hline
    · exact hended line hline
    · rw [List.mem_singleton.mp hline]
      exact List.mem_of_getLast? hlast

theorem isLine_of_mem_cut {cs line : List Char} (h : '\r' ∉ cs) (hline : line ∈ cut '\n' cs) :
    IsLine line :=
  have ⟨hfeed, hsub⟩ := of_mem_cut hline
  ⟨hfeed, fun hmem => h (hsub hmem)⟩

/-- Lines that are ended one by one are the lines of the whole. -/
theorem lines_ended {lines : List (List Char)} (h : ∀ line ∈ lines, IsLine line) :
    Text.lines (ended lines) = lines := by
  have hmap : lines.map dropReturn = lines :=
    (List.map_congr_left fun line hline => dropReturn_of_not_mem (h line hline).2).trans
      (List.map_id lines)
  rw [Text.lines, cut_ended fun line hline => (h line hline).1]
  simp only [List.getLast?_concat, List.dropLast_concat, hmap]

end Text

namespace Source

/-! ### Lines one by one -/

/-- The characters begin with an explicit `public` behind their blanks. -/
def IsMarkedPublic (line : List Char) : Prop := "public ".toList <+: Text.trimLeft line

instance (line : List Char) : Decidable (IsMarkedPublic line) :=
  inferInstanceAs (Decidable ("public ".toList <+: Text.trimLeft line))

/-- A line of blanks is as good as an empty one. -/
def emptied (line : List Char) : List Char := if Text.isBlankLine line then [] else line

theorem dropPublic_of_not_prefix {cs : List Char} (h : ¬ "public ".toList <+: cs) :
    dropPublic cs = cs := by
  rw [dropPublic]
  split
  · rfl
  · next rest hrest =>
    exact absurd ⟨rest, (Text.eq_append_of_isPrefixOf? hrest).symm⟩ h

/-- What is left has no explicit `public` in front. -/
theorem not_prefix_dropPublic (cs : List Char) : ¬ "public ".toList <+: dropPublic cs := by
  fun_induction dropPublic cs with
  | case1 cs h =>
    rintro ⟨rest, rfl⟩
    rw [List.isPrefixOf?_eq_some_iff_append_eq.mpr rfl] at h
    cases h
  | case2 cs rest h ih => exact ih

/-- What is left is the end of what was there. -/
theorem dropPublic_suffix (cs : List Char) : dropPublic cs <:+ cs := by
  fun_induction dropPublic cs with
  | case1 cs h => exact List.suffix_rfl
  | case2 cs rest h ih =>
    rw [Text.eq_append_of_isPrefixOf? h]
    exact (ih.trans (List.dropWhile_suffix _)).trans (List.suffix_append _ _)

theorem trimLeft_trimLeft (cs : List Char) : Text.trimLeft (Text.trimLeft cs) = Text.trimLeft cs :=
  List.dropWhile_idempotent _ _

theorem trimLeft_dropPublic {cs : List Char} (h : Text.trimLeft cs = cs) :
    Text.trimLeft (dropPublic cs) = dropPublic cs := by
  fun_induction dropPublic cs with
  | case1 cs _ => exact h
  | case2 cs rest _ ih => exact ih (trimLeft_trimLeft rest)

theorem indent_append (line : List Char) :
    line.takeWhile Text.isBlank ++ Text.trimLeft line = line := List.takeWhile_append_dropWhile

theorem trimLeft_append_of_blanks {blanks : List Char} (h : ∀ c ∈ blanks, Text.isBlank c = true)
    (cs : List Char) : Text.trimLeft (blanks ++ cs) = Text.trimLeft cs :=
  List.dropWhile_append_of_pos h

/-- A line without an explicit `public` stays as it is, if it has anything but blanks. -/
theorem cleanLine_of_not_marked {line : List Char} (h : ¬ IsMarkedPublic line) :
    cleanLine line = emptied line := by
  rw [cleanLine, dropPublic_of_not_prefix h, indent_append, emptied]

/-- A cleaned line has no explicit `public`. -/
theorem not_marked_cleanLine (line : List Char) : ¬ IsMarkedPublic (cleanLine line) := by
  rw [cleanLine]
  split
  · simp [IsMarkedPublic, Text.trimLeft]
  · rw [IsMarkedPublic, trimLeft_append_of_blanks fun c hc => List.mem_takeWhile_imp hc,
      trimLeft_dropPublic (trimLeft_trimLeft line)]
    exact not_prefix_dropPublic _

theorem emptied_cleanLine (line : List Char) : emptied (cleanLine line) = cleanLine line := by
  rw [cleanLine]
  split
  · rfl
  · next h => rw [emptied, if_neg h]

/-- Cleaning a line once is enough. -/
theorem cleanLine_cleanLine (line : List Char) : cleanLine (cleanLine line) = cleanLine line := by
  rw [cleanLine_of_not_marked (not_marked_cleanLine line), emptied_cleanLine]

/-- A line with an explicit `public` gets shorter. -/
theorem length_cleanLine_lt {line : List Char} (h : IsMarkedPublic line) :
    (cleanLine line).length < (emptied line).length := by
  have hblank : ¬ Text.isBlankLine line = true := by
    intro hblank
    have hpublic : 'p' ∈ line := (List.dropWhile_sublist _).subset (h.subset (by simp))
    exact absurd (List.all_eq_true.mp hblank 'p' hpublic) (by decide)
  obtain ⟨rest, hrest⟩ := h
  have hdrop : (dropPublic (Text.trimLeft line)).length < (Text.trimLeft line).length := by
    rw [dropPublic]
    split
    · next hnone =>
      rw [← hrest, List.isPrefixOf?_eq_some_iff_append_eq.mpr rfl] at hnone
      cases hnone
    · next rest' hrest' =>
      have hsuffix := (dropPublic_suffix (Text.trimLeft rest')).trans (List.dropWhile_suffix _)
      have hlength := congrArg List.length (Text.eq_append_of_isPrefixOf? hrest')
      have := hsuffix.length_le
      rw [List.length_append, show "public ".toList.length = 7 from rfl] at hlength
      omega
  have hlength := congrArg List.length (indent_append line)
  rw [emptied, if_neg hblank, cleanLine]
  rw [List.length_append] at hlength
  split
  · rw [List.length_nil]
    omega
  · rw [List.length_append]
    omega

/-- No line gets longer. -/
theorem length_cleanLine_le (line : List Char) :
    (cleanLine line).length ≤ (emptied line).length := by
  by_cases h : IsMarkedPublic line
  · exact Nat.le_of_lt (length_cleanLine_lt h)
  · rw [cleanLine_of_not_marked h]

/-! ### Empty lines -/

/-- The paragraphs of some lines: what stands between blank ones. -/
def paragraphs (lines : List (List Char)) : List (List (List Char)) :=
  (lines.splitOnP Text.isBlankLine).filter (· ≠ [])

theorem dropEmptyEnd_cons {line : List Char} (h : line ≠ []) (lines : List (List Char)) :
    dropEmptyEnd (line :: lines) = line :: dropEmptyEnd lines := by
  rw [dropEmptyEnd, dropEmptyEnd, List.reverse_cons, List.dropWhile_append]
  split
  · next hnil => simp [List.isEmpty_iff.mp hnil, h]
  · rw [List.reverse_append, List.reverse_singleton, List.singleton_append]

theorem dropEmptyEnd_nil_cons (lines : List (List Char)) :
    dropEmptyEnd ([] :: lines) =
      if dropEmptyEnd lines = [] then [] else [] :: dropEmptyEnd lines := by
  rw [dropEmptyEnd, List.reverse_cons, List.dropWhile_append]
  by_cases hnil : dropEmptyEnd lines = []
  · have := List.reverse_eq_nil_iff.mp hnil
    simp [this, hnil]
  · have : ¬ (lines.reverse.dropWhile (·.isEmpty)).isEmpty = true := fun h =>
      hnil (by rw [dropEmptyEnd, List.isEmpty_iff.mp h, List.reverse_nil])
    rw [if_neg this, if_neg hnil, List.reverse_append, List.reverse_singleton,
      List.singleton_append, dropEmptyEnd]

theorem mergeEmpty_true_nil (lines : List (List Char)) :
    mergeEmpty true ([] :: lines) = mergeEmpty true lines := rfl

theorem mergeEmpty_false_nil (lines : List (List Char)) :
    mergeEmpty false ([] :: lines) = [] :: mergeEmpty true lines := rfl

theorem mergeEmpty_cons {line : List Char} (h : line ≠ []) (afterEmpty : Bool)
    (lines : List (List Char)) :
    mergeEmpty afterEmpty (line :: lines) = line :: mergeEmpty false lines := by
  rw [mergeEmpty, if_neg (by simpa using h)]

/-- Paragraphs with an empty line between neighbours. -/
def spacedOut (paragraphs : List (List (List Char))) : List (List Char) :=
  [[]].intercalate paragraphs

theorem spacedOut_eq_nil_iff {paragraphs : List (List (List Char))}
    (h : ∀ p ∈ paragraphs, p ≠ []) : spacedOut paragraphs = [] ↔ paragraphs = [] := by
  cases paragraphs with
  | nil => simp [spacedOut]
  | cons p rest =>
    have hp := h p List.mem_cons_self
    cases rest <;> simp [spacedOut, List.intercalate_cons_cons, hp]

/-- With a paragraph more in front. -/
theorem spacedOut_cons (p : List (List Char)) (rest : List (List (List Char))) :
    spacedOut (p :: rest) = if rest = [] then p else p ++ [] :: spacedOut rest := by
  split
  · next h => rw [h, spacedOut, List.intercalate_singleton]
  · next h =>
    rw [spacedOut, List.intercalate_cons_of_ne_nil h, List.append_assoc, List.singleton_append,
      spacedOut]

theorem ne_nil_of_mem_paragraphs {lines : List (List Char)} :
    ∀ p ∈ paragraphs lines, p ≠ [] := fun p hp => by simpa using (List.mem_filter.mp hp).2

/-- Emptied lines with the empty ones merged are paragraphs with an empty line between neighbours;
below a line that is not empty, the first of them goes on with its paragraph. -/
theorem dropEmptyEnd_mergeEmpty (lines : List (List Char)) :
    dropEmptyEnd (mergeEmpty true (lines.map emptied)) = spacedOut (paragraphs lines) ∧
      ∀ first rest, lines.splitOnP Text.isBlankLine = first :: rest →
        dropEmptyEnd (mergeEmpty false (lines.map emptied)) =
          if rest.filter (· ≠ []) = [] then first
          else first ++ [] :: spacedOut (rest.filter (· ≠ [])) := by
  induction lines with
  | nil =>
    refine ⟨rfl, fun first rest h => ?_⟩
    obtain ⟨rfl, rfl⟩ := List.cons.inj (List.splitOnP_nil.symm.trans h)
    rfl
  | cons line lines ih =>
    obtain ⟨hstart, hwithin⟩ := ih
    by_cases hblank : Text.isBlankLine line = true
    · have hempty : emptied line = [] := if_pos hblank
      have hsplit : (line :: lines).splitOnP Text.isBlankLine =
          [] :: lines.splitOnP Text.isBlankLine := by
        rw [List.splitOnP_cons_eq_if_modifyHead, if_pos hblank]
      constructor
      · rw [List.map_cons, hempty, mergeEmpty_true_nil, hstart, paragraphs,
          paragraphs, hsplit, List.filter_cons_of_neg (by simp)]
      · rintro first rest h
        obtain ⟨rfl, rfl⟩ := List.cons.inj (hsplit.symm.trans h)
        rw [List.map_cons, hempty, mergeEmpty_false_nil, dropEmptyEnd_nil_cons, hstart,
          ← paragraphs.eq_1]
        simp only [spacedOut_eq_nil_iff ne_nil_of_mem_paragraphs, List.nil_append]
    · have hfull : emptied line = line := if_neg hblank
      have hne : line ≠ [] := by
        rintro rfl
        exact hblank rfl
      obtain ⟨first, rest, hrest⟩ := List.exists_cons_of_ne_nil
        (List.splitOnP_ne_nil Text.isBlankLine lines)
      have hsplit : (line :: lines).splitOnP Text.isBlankLine = (line :: first) :: rest := by
        rw [List.splitOnP_cons_eq_if_modifyHead, if_neg hblank, hrest, List.modifyHead_cons]
      have hmerge (afterEmpty : Bool) : dropEmptyEnd (mergeEmpty afterEmpty
          ((line :: lines).map emptied)) =
            if rest.filter (· ≠ []) = [] then line :: first
            else (line :: first) ++ [] :: spacedOut (rest.filter (· ≠ [])) := by
        rw [List.map_cons, hfull, mergeEmpty_cons hne, dropEmptyEnd_cons hne,
          hwithin first rest hrest]
        split <;> rfl
      constructor
      · rw [hmerge, paragraphs, hsplit, List.filter_cons_of_pos (by simp), spacedOut_cons]
      · rintro first' rest' h
        obtain ⟨rfl, rfl⟩ := List.cons.inj (hsplit.symm.trans h)
        exact hmerge false

theorem mergeEmpty_sublist (afterEmpty : Bool) (lines : List (List Char)) :
    (mergeEmpty afterEmpty lines).Sublist lines := by
  induction lines generalizing afterEmpty with
  | nil => exact .slnil
  | cons line lines ih =>
    by_cases h : line = []
    · subst h
      cases afterEmpty with
      | true => exact (ih true).cons _
      | false => exact (ih true).cons_cons _
    · rw [mergeEmpty_cons h]
      exact (ih false).cons_cons _

theorem dropEmptyEnd_isPrefix (lines : List (List Char)) : dropEmptyEnd lines <+: lines :=
  List.rdropWhile_prefix _ _

/-- Merging empty lines takes nothing away but those. -/
theorem flatten_mergeEmpty (afterEmpty : Bool) (lines : List (List Char)) :
    (mergeEmpty afterEmpty lines).flatten = lines.flatten := by
  induction lines generalizing afterEmpty with
  | nil => rfl
  | cons line lines ih =>
    by_cases h : line = []
    · subst h
      cases afterEmpty with
      | true => rw [mergeEmpty_true_nil, ih, List.flatten_cons, List.nil_append]
      | false => rw [mergeEmpty_false_nil, List.flatten_cons, ih, List.flatten_cons]
    · rw [mergeEmpty_cons h, List.flatten_cons, ih, List.flatten_cons]

theorem flatten_dropEmptyEnd (lines : List (List Char)) :
    (dropEmptyEnd lines).flatten = lines.flatten := by
  induction lines with
  | nil => rfl
  | cons line lines ih =>
    by_cases h : line = []
    · subst h
      rw [dropEmptyEnd_nil_cons, List.flatten_cons, List.nil_append, ← ih]
      split
      · next hnil => rw [hnil]
      · rfl
    · rw [dropEmptyEnd_cons h, List.flatten_cons, ih, List.flatten_cons]

/-- Empty lines that were merged stay as they are. -/
theorem mergeEmpty_mergeEmpty (afterEmpty : Bool) (lines : List (List Char)) :
    mergeEmpty afterEmpty (mergeEmpty afterEmpty lines) = mergeEmpty afterEmpty lines := by
  induction lines generalizing afterEmpty with
  | nil => rfl
  | cons line lines ih =>
    by_cases h : line = []
    · subst h
      cases afterEmpty with
      | true => rw [mergeEmpty_true_nil, ih]
      | false => rw [mergeEmpty_false_nil, mergeEmpty_false_nil, ih]
    · rw [mergeEmpty_cons h, mergeEmpty_cons h, ih]

/-- So do the first of them. -/
theorem mergeEmpty_of_append {afterEmpty : Bool} {first last : List (List Char)}
    (h : mergeEmpty afterEmpty (first ++ last) = first ++ last) :
    mergeEmpty afterEmpty first = first := by
  induction first generalizing afterEmpty with
  | nil => rfl
  | cons line first ih =>
    rw [List.cons_append] at h
    by_cases hline : line = []
    · subst hline
      cases afterEmpty with
      | true =>
        have hlength := (mergeEmpty_sublist true (first ++ last)).length_le
        rw [mergeEmpty_true_nil] at h
        rw [h, List.length_cons] at hlength
        omega
      | false =>
        rw [mergeEmpty_false_nil] at h ⊢
        rw [ih (List.cons.inj h).2]
    · rw [mergeEmpty_cons hline] at h ⊢
      rw [ih (List.cons.inj h).2]

/-! ### The whole text -/

/-- The lines of a text but for redundant imports. -/
def keptLines (package : String) (text : List Char) : List (List Char) :=
  (Text.lines text).filter fun line => !isRedundantImport package line

variable {package : String} {text : List Char}

theorem cleanLines_sublist :
    (cleanLines package text).Sublist ((keptLines package text).map cleanLine) :=
  (dropEmptyEnd_isPrefix _).sublist.trans (mergeEmpty_sublist _ _)

theorem flatten_cleanLines :
    (cleanLines package text).flatten = ((keptLines package text).map cleanLine).flatten := by
  rw [cleanLines, flatten_dropEmptyEnd, flatten_mergeEmpty, keptLines]

/-- Some lines are shorter cleaned up than emptied, if any has an explicit `public`. -/
theorem length_flatten_lt {lines : List (List Char)} {line : List Char} (hline : line ∈ lines)
    (h : IsMarkedPublic line) :
    (lines.map cleanLine).flatten.length < (lines.map emptied).flatten.length := by
  obtain ⟨before, after, rfl⟩ := List.append_of_mem hline
  have hle (lines : List (List Char)) :
      (lines.map cleanLine).flatten.length ≤ (lines.map emptied).flatten.length := by
    induction lines with
    | nil => exact Nat.le_refl _
    | cons line lines ih =>
      have := length_cleanLine_le line
      simp only [List.map_cons, List.flatten_cons, List.length_append]
      omega
  have hbefore := hle before
  have hafter := hle after
  have := length_cleanLine_lt h
  simp only [List.map_append, List.map_cons, List.flatten_append, List.flatten_cons,
    List.length_append]
  omega

/-- The lines that are left are the kept ones as they stand, with one empty line for the blank ones
between two paragraphs, just when none of them has an explicit `public`. -/
theorem cleanLines_eq_iff :
    cleanLines package text = spacedOut (paragraphs (keptLines package text)) ↔
      ∀ line ∈ keptLines package text, ¬ IsMarkedPublic line := by
  constructor
  · intro h line hline hmarked
    have hlength := congrArg (·.flatten.length) h
    rw [← (dropEmptyEnd_mergeEmpty _).1] at hlength
    simp only [flatten_cleanLines, flatten_dropEmptyEnd, flatten_mergeEmpty] at hlength
    exact Nat.ne_of_lt (length_flatten_lt hline hmarked) hlength
  · intro h
    rw [cleanLines, ← (dropEmptyEnd_mergeEmpty _).1, ← keptLines.eq_1,
      List.map_congr_left fun line hline => cleanLine_of_not_marked (h line hline)]

theorem cleanLine_sublist (line : List Char) : (cleanLine line).Sublist line := by
  rw [cleanLine]
  split
  · exact List.nil_sublist _
  · conv_rhs => rw [← indent_append line]
    exact (List.Sublist.refl _).append (dropPublic_suffix _).sublist

/-- Without carriage returns, cleaning up leaves single lines. -/
theorem isLine_of_mem_cleanLines (h : '\r' ∉ text) {line : List Char}
    (hline : line ∈ cleanLines package text) : Text.IsLine line := by
  obtain ⟨kept, hkept, rfl⟩ := List.mem_map.mp (cleanLines_sublist.subset hline)
  have hkept := Text.isLine_of_mem_cut h (Text.mem_cut_of_mem_lines h (List.mem_filter.mp hkept).1)
  have hsub := (cleanLine_sublist kept).subset
  exact ⟨fun hin => hkept.1 (hsub hin), fun hin => hkept.2 (hsub hin)⟩

/-- Cleaning up what was cleaned up changes nothing, unless a line has become an import. -/
theorem cleanLines_cleaned (hreturn : '\r' ∉ text)
    (h : ∀ line ∈ keptLines package text, isRedundantImport package (cleanLine line) = false) :
    cleanLines package (Text.ended (cleanLines package text)) = cleanLines package text := by
  have hcleaned : ∀ line ∈ cleanLines package text, ∃ kept ∈ keptLines package text,
      cleanLine kept = line := fun line hline =>
    List.mem_map.mp (cleanLines_sublist.subset hline)
  have hkept : keptLines package (Text.ended (cleanLines package text)) = cleanLines package text := by
    rw [keptLines, Text.lines_ended fun line => isLine_of_mem_cleanLines hreturn]
    refine List.filter_eq_self.mpr fun line hmem => ?_
    obtain ⟨kept, hkept, rfl⟩ := hcleaned line hmem
    rw [h kept hkept, Bool.not_false]
  have hmap : (cleanLines package text).map cleanLine = cleanLines package text := by
    refine (List.map_congr_left fun line hmem => ?_).trans (List.map_id _)
    obtain ⟨kept, -, rfl⟩ := hcleaned line hmem
    exact cleanLine_cleanLine kept
  have hmerged : mergeEmpty true (cleanLines package text) = cleanLines package text := by
    obtain ⟨last, hlast⟩ := dropEmptyEnd_isPrefix
      (mergeEmpty true ((keptLines package text).map cleanLine))
    have hself := mergeEmpty_mergeEmpty true ((keptLines package text).map cleanLine)
    rw [← hlast] at hself
    exact mergeEmpty_of_append hself
  rw [cleanLines, ← keptLines.eq_1, hkept, hmap, hmerged]
  exact List.rdropWhile_idempotent _ _

/-! ### The text that goes out -/

theorem toList_clean (package text : String) :
    (clean package text).toList = Text.ended (cleanLines package text.toList) := by
  rw [clean, String.toList_ofList, Text.ended]

theorem lines_clean {text : String} (h : '\r' ∉ text.toList) :
    Text.lines (clean package text).toList = cleanLines package text.toList := by
  rw [toList_clean, Text.lines_ended fun line => isLine_of_mem_cleanLines h]

/-- The last line that is left is not empty, and has one line feed behind it. -/
theorem clean_ends {text : String} (h : '\r' ∉ text.toList)
    (hne : cleanLines package text.toList ≠ []) :
    ∃ body, (clean package text).toList = body ++ ['\n'] ∧ body ≠ [] ∧ body.getLast? ≠ some '\n' := by
  have hlast : (cleanLines package text.toList).getLast hne ≠ [] := by
    have hlast := List.rdropWhile_last_not (fun line : List Char => line.isEmpty) _ hne
    exact fun hnil => hlast (List.isEmpty_iff.mpr hnil)
  have hline : '\n' ∉ (cleanLines package text.toList).getLast hne :=
    (isLine_of_mem_cleanLines h (List.getLast_mem hne)).1
  refine ⟨Text.ended (cleanLines package text.toList).dropLast ++
    (cleanLines package text.toList).getLast hne, ?_, by simp [hlast], ?_⟩
  · conv_lhs => rw [toList_clean, ← List.dropLast_concat_getLast hne]
    simp [Text.ended]
  · rw [List.getLast?_append, List.getLast?_eq_some_getLast hlast, Option.some_or]
    exact fun heq => hline (Option.some.inj heq ▸ List.getLast_mem hlast)

end Source

end DataClassGen
