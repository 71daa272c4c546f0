import DataClassGen.Proofs.Convert.CommentMarks
import DataClassGen.Proofs.Source.Cleaning
import DataClassGen.Source.Writer

/-!
# Compact doc comments

Cleaning takes away the blanks that end lines, and the line feeds among them. In what is left, every
blank has something other than a line feed behind it (`KeepsNoLineEnd`). This is so of every rest of
the text as well, so that neither a tag that is cut off in front nor trimming can bring a line end
back. Lines are then nothing but what stands between line feeds; each has something on it, and ends
with that.

What is cleaned away is blank: the characters that are seen are those of the translated text.
-/

namespace DataClassGen.Doc

variable {c : Char} {cs : List Char}

/-! ### No blanks at the ends of lines -/

/-- Every blank has something behind it, and that is no line feed. -/
def KeepsNoLineEnd (cs : List Char) : Prop :=
  ∀ c rest, c :: rest <:+ cs → Text.isBlank c = true → ∃ d ∈ rest.head?, d ≠ '\n'

theorem keepsNoLineEnd_cons : KeepsNoLineEnd (c :: cs) ↔
    (Text.isBlank c = true → ∃ d ∈ cs.head?, d ≠ '\n') ∧ KeepsNoLineEnd cs := by
  constructor
  · exact fun h => ⟨h c cs List.suffix_rfl, fun d rest hrest =>
      h d rest (hrest.trans (List.suffix_cons c cs))⟩
  · rintro ⟨hc, hcs⟩ d rest hrest
    rcases List.suffix_cons_iff.mp hrest with heq | hrest
    · obtain ⟨rfl, rfl⟩ := List.cons.inj heq
      exact hc
    · exact hcs d rest hrest

theorem ne_lineFeed_of_not_isBlank (h : Text.isBlank c = false) : c ≠ '\n' := by
  rintro rfl
  exact absurd h (by decide)

theorem staysBefore_cons_iff (hc : Text.isBlank c = true) :
    staysBefore (c :: cs) = true ↔ c ≠ '\n' ∧ staysBefore cs = true := by
  simp only [staysBefore, Text.isBlankLine, List.all_cons, hc, Bool.true_and, List.takeWhile_cons,
    if_true, List.contains_cons, Bool.not_or, Bool.and_eq_true, Bool.not_eq_true',
    beq_eq_false_iff_ne, ne_comm (a := '\n')]
  exact and_left_comm

/-- A blank that stays has something behind it that stays, too. -/
theorem head?_withoutLineEnds (h : staysBefore cs = true) :
    ∃ c ∈ (withoutLineEnds cs).head?, c ≠ '\n' := by
  cases cs with
  | nil => exact absurd h (by decide)
  | cons c cs =>
    by_cases hc : Text.isBlank c = true
    · obtain ⟨hne, hstays⟩ := (staysBefore_cons_iff hc).mp h
      rw [withoutLineEnds, if_neg (by simp [hstays])]
      exact ⟨c, rfl, hne⟩
    · rw [withoutLineEnds, if_neg (by simp [hc])]
      exact ⟨c, rfl, ne_lineFeed_of_not_isBlank (by simpa using hc)⟩

theorem keepsNoLineEnd_withoutLineEnds (cs : List Char) :
    KeepsNoLineEnd (withoutLineEnds cs) := by
  induction cs with
  | nil => exact fun c rest hrest => absurd (List.suffix_nil.mp hrest) (List.cons_ne_nil c rest)
  | cons c cs ih =>
    rw [withoutLineEnds]
    split
    · exact ih
    · next hkept =>
      refine keepsNoLineEnd_cons.mpr ⟨fun hc => head?_withoutLineEnds ?_, ih⟩
      simpa [hc] using hkept

namespace KeepsNoLineEnd

/-- No end of the text gets a line end. -/
theorem of_suffix {rest : List Char} (h : KeepsNoLineEnd cs) (hrest : rest <:+ cs) :
    KeepsNoLineEnd rest :=
  fun c behind hbehind => h c behind (hbehind.trans hrest)

theorem isBlank_getLast? (h : KeepsNoLineEnd cs) : ∀ c ∈ cs.getLast?, Text.isBlank c = false := by
  intro c hc
  obtain ⟨front, rfl⟩ := List.getLast?_eq_some_iff.mp hc
  by_contra hblank
  obtain ⟨d, hd, -⟩ := h c [] (List.suffix_append front [c]) (by simpa using hblank)
  cases hd

/-- There is nothing to be trimmed at the end. -/
theorem trimRight_eq (h : KeepsNoLineEnd cs) : Text.trimRight cs = cs := by
  rcases List.eq_nil_or_concat cs with rfl | ⟨front, c, rfl⟩
  · rfl
  · have hc := h.isBlank_getLast? c (by simp)
    rw [Text.trimRight, List.concat_eq_append, List.reverse_concat, List.dropWhile_cons,
      if_neg (by simp [hc]), ← List.reverse_concat, List.reverse_reverse]

end KeepsNoLineEnd

/-! ### Lines -/

/-- The last character is there, and is no blank. -/
def EndsVisibly (cs : List Char) : Prop := ∃ c ∈ cs.getLast?, Text.isBlank c = false

theorem EndsVisibly.cons (h : EndsVisibly cs) (c : Char) : EndsVisibly (c :: cs) := by
  obtain ⟨last, hlast, hvisible⟩ := h
  refine ⟨last, ?_, hvisible⟩
  rw [List.getLast?_cons, Option.mem_def.mp hlast]
  rfl

theorem EndsVisibly.append (h : EndsVisibly cs) (start : List Char) :
    EndsVisibly (start ++ cs) := by
  induction start with
  | nil => exact h
  | cons c start ih => exact ih.cons c

theorem cut_cons_of_ne {sep : Char} {first : List Char} {rest : List (List Char)} (hc : c ≠ sep)
    (h : Text.cut sep cs = first :: rest) : Text.cut sep (c :: cs) = (c :: first) :: rest := by
  rw [Text.cut, if_neg hc, h]

/-- Where the text ends or a line feed stands, the line is empty. -/
theorem eq_nil_of_cut {first : List Char} {rest : List (List Char)}
    (hcut : Text.cut '\n' cs = first :: rest) (h : ¬∃ d ∈ cs.head?, d ≠ '\n') : first = [] := by
  cases cs with
  | nil => exact (List.cons.inj hcut).1.symm
  | cons d cs =>
    have hd : d = '\n' := by_contra fun hne => h ⟨d, rfl, hne⟩
    rw [Text.cut, if_pos hd] at hcut
    exact (List.cons.inj hcut).1.symm

/-- What stands between line feeds ends visibly. Before the first line feed that is so if anything
stands there. -/
theorem KeepsNoLineEnd.endsVisibly_of_cut (h : KeepsNoLineEnd cs) {first : List Char}
    {rest : List (List Char)} (hcut : Text.cut '\n' cs = first :: rest) :
    ((∃ c ∈ cs.head?, c ≠ '\n') → EndsVisibly first) ∧ ∀ line ∈ rest, EndsVisibly line := by
  induction cs generalizing first rest with
  | nil =>
    obtain ⟨rfl, rfl⟩ := List.cons.inj hcut
    refine ⟨?_, fun line hline => absurd hline List.not_mem_nil⟩
    rintro ⟨c, hc, -⟩
    cases hc
  | cons c cs ih =>
    obtain ⟨next, others, hnext⟩ := List.exists_cons_of_ne_nil (Text.cut_ne_nil '\n' cs)
    obtain ⟨hbehind, hcs⟩ := keepsNoLineEnd_cons.mp h
    obtain ⟨hvisible, hothers⟩ := ih hcs hnext
    by_cases hc : c = '\n'
    · subst hc
      rw [Text.cut, if_pos rfl, hnext] at hcut
      obtain ⟨rfl, rfl⟩ := List.cons.inj hcut
      refine ⟨?_, List.forall_mem_cons.mpr ⟨hvisible (hbehind (by decide)), hothers⟩⟩
      rintro ⟨d, hd, hne⟩
      exact absurd (Option.some.inj hd).symm hne
    · rw [cut_cons_of_ne hc hnext] at hcut
      obtain ⟨rfl, rfl⟩ := List.cons.inj hcut
      refine ⟨fun _ => ?_, hothers⟩
      by_cases hmore : ∃ d ∈ cs.head?, d ≠ '\n'
      · exact (hvisible hmore).cons c
      · -- the line ends with `c`, which is no blank then
        refine ⟨c, by rw [eq_nil_of_cut hnext hmore]; rfl, ?_⟩
        exact Bool.eq_false_iff.mpr fun hblank => hmore (hbehind hblank)

theorem EndsVisibly.isBlankLine (h : EndsVisibly cs) : Text.isBlankLine cs = false := by
  obtain ⟨c, hc, hvisible⟩ := h
  exact List.all_eq_false.mpr ⟨c, List.mem_of_getLast? hc, by simp [hvisible]⟩

/-- Lines that end visibly are what line feeds stand between: there is no carriage return at their
ends, and the last of them is not empty. -/
theorem lines_eq_cut (h : ∀ line ∈ Text.cut '\n' cs, EndsVisibly line) :
    Text.lines cs = Text.cut '\n' cs := by
  have hreturn : ∀ line ∈ (Text.cut '\n' cs).dropLast, Text.dropReturn line = line := by
    intro line hline
    obtain ⟨c, hc, hvisible⟩ := h line (List.dropLast_subset _ hline)
    rw [Text.dropReturn, if_neg]
    rintro heq
    obtain rfl := Option.some.inj (heq.symm.trans hc)
    exact absurd hvisible (by decide)
  obtain ⟨last, hlast⟩ := Option.ne_none_iff_exists'.mp
    (mt List.getLast?_eq_none_iff.mp (Text.cut_ne_nil '\n' cs))
  have hne : last ≠ [] := by
    rintro rfl
    obtain ⟨c, hc, -⟩ := h [] (List.mem_of_getLast? hlast)
    cases hc
  rw [Text.lines, List.map_congr_left hreturn, List.map_id', hlast]
  obtain ⟨c, rest, rfl⟩ := List.exists_cons_of_ne_nil hne
  exact List.dropLast_append_getLast? _ hlast

/-! ### What is seen -/

/-- The characters that are seen. -/
def seen (cs : List Char) : List Char := cs.filter fun c => !Text.isBlank c

@[simp] theorem seen_blank_cons (h : Text.isBlank c = true) : seen (c :: cs) = seen cs := by
  simp [seen, h]

@[simp] theorem seen_cons (h : Text.isBlank c = false) : seen (c :: cs) = c :: seen cs := by
  simp [seen, h]

theorem seen_withoutLineEnds (cs : List Char) : seen (withoutLineEnds cs) = seen cs := by
  induction cs with
  | nil => rfl
  | cons c cs ih =>
    rw [withoutLineEnds]
    cases hc : Text.isBlank c with
    | false => simp [hc, ih]
    | true => split <;> simp [hc, ih]

theorem seen_trimLeft (cs : List Char) : seen (Text.trimLeft cs) = seen cs := by
  induction cs with
  | nil => rfl
  | cons c cs ih =>
    rw [Text.trimLeft, List.dropWhile_cons]
    split
    · next hc => rw [seen_blank_cons hc, ← ih, Text.trimLeft]
    · rfl

/-- The text begins with blanks and an at sign behind them. -/
def BeginsWithTag (cs : List Char) : Prop :=
  (∃ c ∈ cs.head?, Text.isBlank c = true) ∧ (seen cs).head? = some '@'

theorem beginsWithTag_withoutLineEnds (cs : List Char) :
    BeginsWithTag (withoutLineEnds cs) ↔ BeginsWithTag cs := by
  rw [BeginsWithTag, BeginsWithTag, seen_withoutLineEnds]
  refine and_congr_left fun hseen => ?_
  cases cs with
  | nil => rfl
  | cons c cs =>
    cases hc : Text.isBlank c with
    | false =>
      rw [withoutLineEnds, if_neg (by simp [hc])]
      rfl
    | true =>
      refine iff_of_true ?_ ⟨c, rfl, hc⟩
      cases hleft : withoutLineEnds (c :: cs) with
      | nil =>
        rw [← seen_withoutLineEnds, hleft] at hseen
        cases hseen
      | cons d rest =>
        exact ⟨d, rfl, isBlank_of_head?_withoutLineEnds hc d (by rw [hleft]; rfl)⟩

theorem isBlank_head?_trimLeft (cs : List Char) :
    ∀ c ∈ (Text.trimLeft cs).head?, Text.isBlank c = false := by
  intro c hc
  have hnot := List.head?_dropWhile_not Text.isBlank cs
  rw [Text.trimLeft] at hc
  rw [Option.mem_def.mp hc] at hnot
  simpa using hnot

theorem head?_seen (cs : List Char) : (seen cs).head? = (Text.trimLeft cs).head? := by
  rw [← seen_trimLeft]
  have hvisible := isBlank_head?_trimLeft cs
  cases htrimmed : Text.trimLeft cs with
  | nil => rfl
  | cons c rest =>
    rw [htrimmed] at hvisible
    rw [seen_cons (hvisible c rfl)]
    rfl

/-- Of what is seen, an at sign behind first blanks goes. -/
theorem seen_withoutTagStart (cs : List Char) :
    (BeginsWithTag cs → seen (withoutTagStart cs) = (seen cs).tail) ∧
    (¬ BeginsWithTag cs → seen (withoutTagStart cs) = seen cs) := by
  rw [withoutTagStart]
  split
  · next blank blanks rest hblanks hrest =>
    have hseen : seen cs = '@' :: seen rest := by
      rw [← seen_trimLeft, Text.trimLeft, hrest, seen_cons (by decide)]
    refine ⟨fun _ => by rw [hseen, List.tail_cons], fun hnot => absurd ⟨?_, ?_⟩ hnot⟩
    · cases cs with
      | nil => cases hblanks
      | cons c cs =>
        refine ⟨c, rfl, ?_⟩
        by_contra hc
        rw [List.takeWhile_cons, if_neg hc] at hblanks
        cases hblanks
    · rw [hseen]
      rfl
  · next hnot =>
    refine ⟨?_, fun _ => rfl⟩
    rintro ⟨⟨c, hc, hblank⟩, hat⟩
    obtain ⟨cs, rfl⟩ := List.head?_eq_some_iff.mp hc
    obtain ⟨rest, hrest⟩ := List.head?_eq_some_iff.mp ((head?_seen _).symm.trans hat)
    exact absurd hrest (hnot c _ rest (by rw [List.takeWhile_cons, if_pos hblank]))

theorem withoutTagStart_suffix (cs : List Char) : withoutTagStart cs <:+ cs := by
  rw [withoutTagStart]
  split
  · next blank blanks rest hblanks hrest =>
    refine (List.suffix_cons '@' rest).trans ?_
    rw [← hrest]
    exact List.dropWhile_suffix _
  · exact List.suffix_rfl

/-! ### Cleaned doc comments -/

/-- The text of a doc comment in Markdown, before blanks are taken away. -/
def inMarkdown (raw : String) : List Char := translated (unwrapped raw.toList)

/-- Neither a tag that is cut off nor trimming in front brings a line end back. -/
theorem keepsNoLineEnd_trimLeft (cs : List Char) :
    KeepsNoLineEnd (Text.trimLeft (withoutTagStart (withoutLineEnds cs))) := by
  refine (keepsNoLineEnd_withoutLineEnds cs).of_suffix ?_
  have htrimmed : Text.trimLeft (withoutTagStart (withoutLineEnds cs)) <:+
      withoutTagStart (withoutLineEnds cs) := List.dropWhile_suffix _
  exact htrimmed.trans (withoutTagStart_suffix (withoutLineEnds cs))

/-- What is left without line ends is trimmed in front only. -/
theorem toList_clean (raw : String) : (clean raw).toList =
    Text.trimLeft (withoutTagStart (withoutLineEnds (inMarkdown raw))) := by
  have hkept := (keepsNoLineEnd_trimLeft (inMarkdown raw)).trimRight_eq
  rw [clean, String.toList_ofList, Text.trimBoth, ← inMarkdown, hkept]

theorem keepsNoLineEnd_clean (raw : String) : KeepsNoLineEnd (clean raw).toList := by
  rw [toList_clean]
  exact keepsNoLineEnd_trimLeft (inMarkdown raw)

/-- Nothing that is seen goes but an at sign behind first blanks. -/
theorem seen_clean (raw : String) :
    seen (clean raw).toList = seen (withoutTagStart (inMarkdown raw)) := by
  rw [toList_clean, seen_trimLeft]
  have hseen := seen_withoutLineEnds (inMarkdown raw)
  by_cases htag : BeginsWithTag (inMarkdown raw)
  · rw [(seen_withoutTagStart _).1 htag, ← hseen]
    exact (seen_withoutTagStart _).1 ((beginsWithTag_withoutLineEnds _).mpr htag)
  · rw [(seen_withoutTagStart _).2 htag, ← hseen]
    exact (seen_withoutTagStart _).2 (mt (beginsWithTag_withoutLineEnds _).mp htag)

/-- A text without a blank at its ends or at the end of a line, and without a line that has nothing
else. -/
structure IsCompact (doc : String) : Prop where
  ne_empty : doc ≠ ""
  trimmed : Text.trim doc = doc
  not_blank : ∀ line ∈ Text.split '\n' doc, Text.isBlankText line = false
  ends_visibly : ∀ line ∈ Text.split '\n' doc, EndsVisibly line.toList

theorem isCompact_clean {raw : String} (hne : clean raw ≠ "") : IsCompact (clean raw) := by
  have hkept := keepsNoLineEnd_clean raw
  have hhead : ∀ c ∈ (clean raw).toList.head?, Text.isBlank c = false := by
    rw [toList_clean]
    exact isBlank_head?_trimLeft _
  obtain ⟨c, cs, hcons⟩ := List.exists_cons_of_ne_nil (mt String.toList_eq_nil_iff.mp hne)
  have hlines : ∀ line ∈ Text.cut '\n' (clean raw).toList, EndsVisibly line := by
    obtain ⟨first, rest, hcut⟩ :=
      List.exists_cons_of_ne_nil (Text.cut_ne_nil '\n' (clean raw).toList)
    obtain ⟨hfirst, hrest⟩ := hkept.endsVisibly_of_cut hcut
    rw [hcut]
    refine List.forall_mem_cons.mpr ⟨hfirst ⟨c, by rw [hcons]; rfl, ?_⟩, hrest⟩
    exact ne_lineFeed_of_not_isBlank (hhead c (by rw [hcons]; rfl))
  have hsplit : ∀ line ∈ Text.split '\n' (clean raw), EndsVisibly line.toList := by
    intro line hline
    obtain ⟨chars, hmem, rfl⟩ := List.mem_map.mp hline
    rw [String.toList_ofList]
    exact hlines chars hmem
  refine ⟨hne, ?_, fun line hline => (hsplit line hline).isBlankLine, hsplit⟩
  have hleft : Text.trimLeft (clean raw).toList = (clean raw).toList := by
    rw [toList_clean, Source.trimLeft_trimLeft]
  rw [Text.trim, Text.trimBoth, hleft, hkept.trimRight_eq, String.ofList_toList]

/-! ### The block that is written -/

/-- The lines of a doc comment, from the one that opens it to the one that closes it. -/
def blockLines (doc : String) : List String :=
  "/**" :: (Text.split '\n' doc).map (" * " ++ ·) ++ [" */"]

/-- The doc comment is written with one line for each of its own, between two that open and close
it, and each of them ends visibly. -/
structure IsWrittenCompactly (names : Source.Names) (depth : Nat) (doc : String) : Prop where
  lines : (Source.docLines depth (some doc)).map (Source.Line.textIn names) =
    (blockLines doc).map (Source.setIn depth)
  one_each : ∀ line ∈ blockLines doc, '\n' ∉ line.toList
  not_bare : " *" ∉ blockLines doc
  ends_visibly : ∀ line ∈ blockLines doc, EndsVisibly line.toList

variable {doc : String}

theorem IsCompact.textLines_eq (h : IsCompact doc) :
    Text.textLines doc = Text.split '\n' doc := by
  have hlines : ∀ line ∈ Text.cut '\n' doc.toList, EndsVisibly line := by
    intro line hline
    have hvisible := h.ends_visibly _ (List.mem_map_of_mem hline)
    rwa [String.toList_ofList] at hvisible
  rw [Text.textLines, lines_eq_cut hlines, Text.split]

theorem IsCompact.docLines_eq (h : IsCompact doc) (depth : Nat) :
    Source.docLines depth (some doc) = (blockLines doc).map (Source.Line.plain depth) := by
  have hlines : (Text.textLines doc).map (fun line => Source.Line.plain depth
      (if Text.isBlankText line then " *" else " * " ++ line)) =
      (Text.split '\n' doc).map fun line => Source.Line.plain depth (" * " ++ line) := by
    rw [h.textLines_eq]
    exact List.map_congr_left fun line hline => by rw [h.not_blank line hline]; rfl
  rw [Source.docLines, hlines]
  simp [blockLines]

theorem textIn_plain (names : Source.Names) (depth : Nat) (line : String) :
    (Source.Line.plain depth line).textIn names = Source.setIn depth line := by
  simp [Source.Line.plain, Source.Line.textIn, Source.Piece.textIn, Text.concat, Text.joinWith]

/-- A property of the lines of a doc comment, by the kinds of them. -/
theorem forall_mem_blockLines {P : String → Prop} : (∀ line ∈ blockLines doc, P line) ↔
    P "/**" ∧ (∀ line ∈ Text.split '\n' doc, P (" * " ++ line)) ∧ P " */" := by
  rw [blockLines, List.cons_append, List.forall_mem_cons, List.forall_mem_append,
    List.forall_mem_map, List.forall_mem_singleton]

theorem IsCompact.isWrittenCompactly (h : IsCompact doc) (names : Source.Names) (depth : Nat) :
    IsWrittenCompactly names depth doc := by
  have hvisible : ∀ line ∈ blockLines doc, EndsVisibly line.toList := by
    refine forall_mem_blockLines.mpr ⟨⟨'*', by decide⟩, fun line hline => ?_, ⟨'/', by decide⟩⟩
    rw [String.toList_append]
    exact (h.ends_visibly line hline).append _
  refine ⟨?_, forall_mem_blockLines.mpr ⟨by decide, fun line hline => ?_, by decide⟩, ?_,
    hvisible⟩
  · rw [h.docLines_eq depth, List.map_map]
    exact List.map_congr_left fun line _ => textIn_plain names depth line
  · obtain ⟨chars, hchars, rfl⟩ := List.mem_map.mp hline
    rw [String.toList_append, String.toList_ofList]
    simpa using (Text.of_mem_cut hchars).1
  · have hbare : ∀ line ∈ blockLines doc, line ≠ " *" := by
      refine forall_mem_blockLines.mpr ⟨by decide, fun line _ heq => ?_, by decide⟩
      have hlength := congrArg (fun line : String => line.toList.length) heq
      simp at hlength
    exact fun hmem => hbare _ hmem rfl

/-- What is left of a raw doc comment is compact, and is written on one line for each of its own,
none of them bare; nothing is left just where nothing is to be seen. -/
theorem cleaned_docs_are_compact (raw : Option String) :
    (clean? raw = none ∧ ∀ text ∈ raw, seen (withoutTagStart (inMarkdown text)) = []) ∨
    ∃ text doc, raw = some text ∧ clean? raw = some doc ∧ IsCompact doc ∧
      seen doc.toList = seen (withoutTagStart (inMarkdown text)) ∧
      ∀ names depth, IsWrittenCompactly names depth doc := by
  cases raw with
  | none => exact .inl ⟨rfl, fun text htext => nomatch htext⟩
  | some text =>
    by_cases hempty : clean text = ""
    · refine .inl ⟨by simp [clean?, hempty], fun _ htext => ?_⟩
      rw [← Option.some.inj htext, ← seen_clean, hempty]
      rfl
    · have hcompact := isCompact_clean hempty
      exact .inr ⟨text, clean text, rfl, by simp [clean?, hempty], hcompact, seen_clean text,
        hcompact.isWrittenCompactly⟩

/-- Blanks are gone from the ends of both lines, and the line between them with its blanks. -/
example : clean? (some "  Sealed. \r\n \t \n\u00a0By hand\u2003\n") =
    some "Sealed.\n\u00a0By hand" := by
  decide +kernel

end DataClassGen.Doc
