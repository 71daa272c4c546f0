import DataClassGen.Proofs.Convert.CommentMarks
import DataClassGen.Proofs.Source.CleanedFiles

/-!
# Doc comments without marks

Emphasis is shown by a star, and a paragraph by nothing. So a star or a tag for emphasis, with
paragraph tags and nothing else between it and a slash, becomes a mark of a comment that the raw
text need not have (`JoinsMark`). The three kinds of tags are replaced one after the other, but in
effect at once (`Shows`), and nothing else in the translation has to do with marks: a cleaned doc
comment has one just where the raw text joins one (`isUnmarked_clean_iff`).
-/

namespace DataClassGen.Doc

/-! ### Marks written with tags -/

/-- What shows as a star. -/
def stars : List String := ["*", "<em>", "</em>"]

/-- Paragraph tags, which show as nothing. -/
def paragraphs (count : Nat) : List Char := (List.replicate count "<p>".toList).flatten

/-- A star and a slash, in either order, with nothing but paragraph tags between them. -/
inductive IsWrittenMark : List Char → Prop where
  | closing {star : String} (h : star ∈ stars) (count : Nat) :
    IsWrittenMark (star.toList ++ (paragraphs count ++ ['/']))
  | opening {star : String} (h : star ∈ stars) (count : Nat) :
    IsWrittenMark ('/' :: (paragraphs count ++ star.toList))

/-- Somewhere in the text a star and a slash stand together once the tags are replaced. -/
def JoinsMark (cs : List Char) : Prop := ∃ mark, IsWrittenMark mark ∧ mark <:+: cs

variable {c : Char} {cs shown w : List Char}

/-! ### Replacing tags -/

namespace Rule

variable {old new : String}

theorem apply_replacement (hne : old.toList ≠ []) (rest : List Char) :
    (replacement old new).apply (old.toList ++ rest) =
      new.toList ++ (replacement old new).apply rest := by
  refine apply_of_some hne ?_
  rw [replacement, after?, List.isPrefixOf?_eq_some_iff_append_eq.mpr rfl, Option.map_some]

theorem apply_replacement_cons (h : ¬ old.toList <+: c :: cs) :
    (replacement old new).apply (c :: cs) = c :: (replacement old new).apply cs := by
  refine apply_of_none (Option.map_eq_none_iff.mpr ?_)
  cases hafter : after? old (c :: cs) with
  | none => rfl
  | some rest => exact absurd ⟨rest, (Text.eq_append_of_isPrefixOf? hafter).symm⟩ h

/-- What does not have the first character of a tag is passed over. -/
theorem apply_replacement_append (hold : old.toList.head? = some '<') (h : '<' ∉ w)
    (rest : List Char) :
    (replacement old new).apply (w ++ rest) = w ++ (replacement old new).apply rest := by
  induction w with
  | nil => rfl
  | cons c w ih =>
    obtain ⟨hc, hw⟩ := not_or.mp (mt List.mem_cons.mpr h)
    rw [List.cons_append, apply_replacement_cons, ih hw, List.cons_append]
    exact fun hstarts => hc (Option.some.inj (Source.head?_of_starts hold hstarts)).symm

/-- Another tag in front is passed over. -/
theorem apply_replacement_passing {tag : String} {rest : List Char}
    (hold : old.toList.head? = some '<') (htag : '<' ∉ tag.toList.tail)
    (hnot : ¬ old.toList <+: tag.toList ++ rest) :
    (replacement old new).apply (tag.toList ++ rest) =
      tag.toList ++ (replacement old new).apply rest := by
  cases hchars : tag.toList with
  | nil => rfl
  | cons c w =>
    rw [hchars, List.cons_append] at hnot
    rw [hchars, List.tail_cons] at htag
    rw [List.cons_append, apply_replacement_cons hnot, apply_replacement_append hold htag,
      List.cons_append]

/-- A beginning without stars was there before stars came in. -/
theorem prefix_of_prefix_apply (hne : old.toList ≠ []) (hw : '*' ∉ w)
    (h : w <+: (replacement old "*").apply cs) : w <+: cs := by
  induction w generalizing cs with
  | nil => exact List.nil_prefix
  | cons d w ih =>
    obtain ⟨hd, hw⟩ := not_or.mp (mt List.mem_cons.mpr hw)
    by_cases hold : old.toList <+: cs
    · obtain ⟨rest, rfl⟩ := hold
      rw [apply_replacement hne] at h
      exact absurd (List.cons_prefix_cons.mp h).1.symm hd
    · cases cs with
      | nil => exact h
      | cons c cs =>
        rw [apply_replacement_cons hold, List.cons_prefix_cons] at h
        exact List.cons_prefix_cons.mpr ⟨h.1, ih hw h.2⟩

end Rule

/-- Tags that show as a star. -/
def starTags : List String := ["<em>", "</em>"]

/-- How a text shows when its plainest tags are replaced. -/
inductive Shows : List Char → List Char → Prop where
  | nil : Shows [] []
  | star {tag : String} {cs shown : List Char} (htag : tag ∈ starTags) (h : Shows cs shown) :
    Shows (tag.toList ++ cs) ('*' :: shown)
  | paragraph {cs shown : List Char} (h : Shows cs shown) : Shows ("<p>".toList ++ cs) shown
  | char {c : Char} {cs shown : List Char} (htags : ∀ tag ∈ starTags, ¬ tag.toList <+: c :: cs)
    (hparagraph : ¬ "<p>".toList <+: c :: cs) (h : Shows cs shown) : Shows (c :: cs) (c :: shown)

/-- The tags are replaced one kind after the other; they do not get in each other's way. -/
theorem shows_replaced (cs : List Char) :
    Shows cs ((Rule.replacement "<p>" "").apply ((Rule.replacement "</em>" "*").apply
      ((Rule.replacement "<em>" "*").apply cs))) := by
  induction hlength : cs.length using Nat.strong_induction_on generalizing cs with
  | _ length ih =>
    subst hlength
    have hshorter {tag : String} (hne : tag.toList ≠ []) (rest : List Char) :
        rest.length < (tag.toList ++ rest).length := by
      rw [List.length_append]
      exact Nat.lt_add_of_pos_left (List.length_pos_iff.mpr hne)
    -- Tags are read in front by what they begin with, and by nothing that an earlier kind leaves.
    by_cases hopening : "<em>".toList <+: cs
    · obtain ⟨rest, rfl⟩ := hopening
      rw [Rule.apply_replacement (by simp), Rule.apply_replacement_append rfl (by decide),
        Rule.apply_replacement_append rfl (by decide)]
      exact .star (by decide) (ih _ (hshorter (by simp) rest) rest rfl)
    by_cases hclosing : "</em>".toList <+: cs
    · obtain ⟨rest, rfl⟩ := hclosing
      rw [Rule.apply_replacement_passing rfl (by decide) hopening, Rule.apply_replacement (by simp),
        Rule.apply_replacement_append rfl (by decide)]
      exact .star (by decide) (ih _ (hshorter (by simp) rest) rest rfl)
    by_cases hparagraph : "<p>".toList <+: cs
    · obtain ⟨rest, rfl⟩ := hparagraph
      rw [Rule.apply_replacement_passing rfl (by decide) hopening,
        Rule.apply_replacement_passing rfl (by decide) (by simp), Rule.apply_replacement (by simp)]
      exact .paragraph (ih _ (hshorter (by simp) rest) rest rfl)
    cases cs with
    | nil => exact .nil
    | cons c cs =>
      have hsecond : ¬ "</em>".toList <+: c :: (Rule.replacement "<em>" "*").apply cs := by
        intro hstarts
        obtain ⟨hc, hrest⟩ := List.cons_prefix_cons.mp hstarts
        exact hclosing (List.cons_prefix_cons.mpr
          ⟨hc, Rule.prefix_of_prefix_apply (by simp) (by decide) hrest⟩)
      have hthird : ¬ "<p>".toList <+: c :: (Rule.replacement "</em>" "*").apply
          ((Rule.replacement "<em>" "*").apply cs) := by
        intro hstarts
        obtain ⟨hc, hrest⟩ := List.cons_prefix_cons.mp hstarts
        exact hparagraph (List.cons_prefix_cons.mpr ⟨hc, Rule.prefix_of_prefix_apply (by simp)
          (by decide) (Rule.prefix_of_prefix_apply (by simp) (by decide) hrest)⟩)
      rw [Rule.apply_replacement_cons hopening, Rule.apply_replacement_cons hsecond,
        Rule.apply_replacement_cons hthird]
      refine .char ?_ hparagraph (ih _ (by simp) cs rfl)
      simp only [starTags, List.forall_mem_cons]
      exact ⟨hopening, hclosing, fun _ h => nomatch h⟩

/-! ### Marks that show -/

/-- The piece stands in front, or behind paragraph tags only. -/
def Behind (w cs : List Char) : Prop := ∃ count, paragraphs count ++ w <+: cs

theorem paragraphs_succ (count : Nat) :
    paragraphs (count + 1) = "<p>".toList ++ paragraphs count := rfl

theorem behind_iff_starts (h : ¬ "<p>".toList <+: cs) : Behind w cs ↔ w <+: cs := by
  constructor
  · rintro ⟨_ | count, hcount⟩
    · exact hcount
    · rw [paragraphs_succ, List.append_assoc] at hcount
      exact absurd ((List.prefix_append _ _).trans hcount) h
  · exact fun hw => ⟨0, hw⟩

theorem behind_paragraph (h : ¬ w <+: "<p>".toList ++ cs) :
    Behind w ("<p>".toList ++ cs) ↔ Behind w cs := by
  constructor
  · rintro ⟨_ | count, hcount⟩
    · exact absurd hcount h
    · rw [paragraphs_succ, List.append_assoc, List.prefix_append_right_inj] at hcount
      exact ⟨count, hcount⟩
  · rintro ⟨count, hcount⟩
    refine ⟨count + 1, ?_⟩
    rwa [paragraphs_succ, List.append_assoc, List.prefix_append_right_inj]

theorem star_eq_of_prefix {star star' : String} (h : star ∈ stars) (h' : star' ∈ stars)
    (hcs : star.toList <+: cs) (hcs' : star'.toList <+: cs) : star = star' := by
  have hapart : ∀ a ∈ stars, ∀ b ∈ stars, a.toList <+: b.toList → a = b := by decide
  rcases List.prefix_or_prefix_of_prefix hcs hcs' with hp | hp
  · exact hapart star h star' h' hp
  · exact (hapart star' h' star h hp).symm

/-- A written mark in front of a text, or further behind. -/
theorem joinsMark_cons : JoinsMark (c :: cs) ↔
    (∃ mark, IsWrittenMark mark ∧ mark <+: c :: cs) ∨ JoinsMark cs := by
  simp only [JoinsMark, List.infix_cons_iff, and_or_left, exists_or]

theorem joinsMark_of_passing (hstars : ∀ star ∈ stars, ¬ star.toList <+: c :: cs) (hc : c ≠ '/') :
    JoinsMark (c :: cs) ↔ JoinsMark cs := by
  rw [joinsMark_cons]
  refine or_iff_right ?_
  rintro ⟨mark, ⟨hstar, count⟩ | ⟨hstar, count⟩, hmark⟩
  · exact hstars _ hstar ((List.prefix_append _ _).trans hmark)
  · exact hc (List.cons_prefix_cons.mp hmark).1.symm

theorem joinsMark_slash :
    JoinsMark ('/' :: cs) ↔ (∃ star ∈ stars, Behind star.toList cs) ∨ JoinsMark cs := by
  rw [joinsMark_cons]
  refine or_congr_left ⟨?_, ?_⟩
  · rintro ⟨mark, ⟨hstar, count⟩ | ⟨hstar, count⟩, hmark⟩
    · have hnot : ∀ star ∈ stars, ¬ star.toList <+: '/' :: cs := by simp [stars]
      exact absurd ((List.prefix_append _ _).trans hmark) (hnot _ hstar)
    · exact ⟨_, hstar, count, (List.cons_prefix_cons.mp hmark).2⟩
  · rintro ⟨star, hstar, count, hmark⟩
    exact ⟨_, .opening hstar count, List.cons_prefix_cons.mpr ⟨rfl, hmark⟩⟩

/-- No character begins a mark that is none of a star, a slash and the first of a tag. -/
theorem joinsMark_inside (h : ∀ c ∈ w, c ≠ '*' ∧ c ≠ '/' ∧ c ≠ '<') :
    JoinsMark (w ++ cs) ↔ JoinsMark cs := by
  induction w with
  | nil => rfl
  | cons c w ih =>
    obtain ⟨⟨hstar, hslash, htag⟩, hw⟩ := List.forall_mem_cons.mp h
    rw [List.cons_append, joinsMark_of_passing _ hslash, ih hw]
    simp [stars, Ne.symm hstar, Ne.symm htag]

/-- Behind its first character a tag has no star, and no slash that a star follows. -/
theorem joinsMark_tail_star {star : String} (hstar : star ∈ stars) :
    JoinsMark (star.toList.tail ++ cs) ↔ JoinsMark cs := by
  have hinside : JoinsMark ("em>".toList ++ cs) ↔ JoinsMark cs := joinsMark_inside (by simp)
  have hstars : ∀ star ∈ stars, ¬ star.toList <+: "em>".toList ++ cs := by simp [stars]
  have hnot : ¬ ∃ star ∈ stars, Behind star.toList ("em>".toList ++ cs) := by
    rintro ⟨star, hstar, hbehind⟩
    rw [behind_iff_starts (by simp)] at hbehind
    exact hstars star hstar hbehind
  simp only [stars, List.mem_cons, List.not_mem_nil, or_false] at hstar
  rcases hstar with rfl | rfl | rfl
  · rfl
  · exact hinside
  · rw [← hinside]
    exact joinsMark_slash.trans (or_iff_right hnot)

theorem joinsMark_star {star : String} (hstar : star ∈ stars) :
    JoinsMark (star.toList ++ cs) ↔ Behind ['/'] cs ∨ JoinsMark cs := by
  have hfront : (∃ mark, IsWrittenMark mark ∧ mark <+: star.toList ++ cs) ↔ Behind ['/'] cs := by
    constructor
    · rintro ⟨mark, ⟨hstar', count⟩ | ⟨hstar', count⟩, hmark⟩
      · obtain rfl := star_eq_of_prefix hstar' hstar ((List.prefix_append _ _).trans hmark)
          (List.prefix_append _ _)
        exact ⟨count, (List.prefix_append_right_inj _).mp hmark⟩
      · have hnot : ∀ star ∈ stars, ∀ rest, ¬ '/' :: rest <+: star.toList ++ cs := by simp [stars]
        exact absurd hmark (hnot _ hstar _)
    · rintro ⟨count, hmark⟩
      exact ⟨_, .closing hstar count, (List.prefix_append_right_inj _).mpr hmark⟩
  obtain ⟨c, rest, hchars⟩ : ∃ c rest, star.toList = c :: rest :=
    List.exists_cons_of_ne_nil ((by decide : ∀ star ∈ stars, star.toList ≠ []) star hstar)
  have htail := @joinsMark_tail_star cs star hstar
  rw [← hfront, ← htail, hchars, List.cons_append, joinsMark_cons, List.tail_cons]

theorem joinsMark_paragraph : JoinsMark ("<p>".toList ++ cs) ↔ JoinsMark cs := by
  have hnot : ∀ star ∈ stars, ¬ star.toList <+: '<' :: ("p>".toList ++ cs) := by simp [stars]
  exact (joinsMark_of_passing hnot (by decide)).trans (joinsMark_inside (by simp))

theorem not_joinsMark_nil : ¬ JoinsMark [] := by
  rintro ⟨mark, ⟨hstar, count⟩ | ⟨hstar, count⟩, hnil⟩ <;>
  · have := List.infix_nil.mp hnil
    simp at this

namespace Shows

/-- A slash shows in front where one stands behind paragraph tags only. -/
theorem head?_eq_slash (h : Shows cs shown) : shown.head? = some '/' ↔ Behind ['/'] cs := by
  induction h with
  | nil => simp [behind_iff_starts]
  | @star tag cs shown htag h ih =>
    have hnot : ∀ tag ∈ starTags,
        ¬ "<p>".toList <+: tag.toList ++ cs ∧ ¬ ['/'] <+: tag.toList ++ cs := by simp [starTags]
    obtain ⟨hparagraph, hslash⟩ := hnot tag htag
    rw [behind_iff_starts hparagraph]
    exact iff_of_false (by simp) hslash
  | paragraph h ih => rw [ih, behind_paragraph (by simp)]
  | char htags hparagraph h ih => simp [behind_iff_starts hparagraph, eq_comm]

/-- A star shows in front where one is written behind paragraph tags only. -/
theorem head?_eq_star (h : Shows cs shown) :
    shown.head? = some '*' ↔ ∃ star ∈ stars, Behind star.toList cs := by
  induction h with
  | nil => simp [behind_iff_starts, stars]
  | @star tag cs shown htag h ih =>
    exact iff_of_true rfl ⟨tag, List.mem_cons_of_mem _ htag, 0, List.prefix_append _ _⟩
  | @paragraph cs shown h ih =>
    have hnot : ∀ star ∈ stars, ¬ star.toList <+: "<p>".toList ++ cs := by simp [stars]
    rw [ih]
    exact exists_congr fun star => and_congr_right fun hstar =>
      (behind_paragraph (hnot star hstar)).symm
  | @char c cs shown htags hparagraph h ih =>
    simp only [behind_iff_starts hparagraph]
    constructor
    · intro hc
      obtain rfl := Option.some.inj hc
      exact ⟨"*", List.mem_cons_self, cs, rfl⟩
    · rintro ⟨star, hstar, hprefix⟩
      rcases List.mem_cons.mp hstar with rfl | htag
      · exact congrArg some (List.cons_prefix_cons.mp hprefix).1.symm
      · exact absurd hprefix (htags star htag)

/-- A mark shows where one is written. -/
theorem isUnmarked_iff (h : Shows cs shown) : IsUnmarked shown ↔ ¬ JoinsMark cs := by
  induction h with
  | nil => exact iff_of_true .nil not_joinsMark_nil
  | star htag h ih =>
    rw [isUnmarked_star_cons, ne_eq, h.head?_eq_slash,
      joinsMark_star (List.mem_cons_of_mem _ htag), not_or]
    exact and_congr_right fun _ => ih
  | paragraph h ih => exact ih.trans (not_congr joinsMark_paragraph.symm)
  | @char c cs shown htags hparagraph h ih =>
    by_cases hc : c = '*'
    · subst hc
      have hcut : JoinsMark ('*' :: cs) ↔ Behind ['/'] cs ∨ JoinsMark cs :=
        joinsMark_star (show "*" ∈ stars from List.mem_cons_self)
      rw [isUnmarked_star_cons, ne_eq, h.head?_eq_slash, hcut, not_or]
      exact and_congr_right fun _ => ih
    by_cases hc' : c = '/'
    · subst hc'
      rw [isUnmarked_slash_cons, ne_eq, h.head?_eq_star, joinsMark_slash, not_or]
      exact and_congr_right fun _ => ih
    have hstars : ∀ star ∈ stars, ¬ star.toList <+: c :: cs := by
      refine List.forall_mem_cons.mpr ⟨fun hstar => ?_, htags⟩
      exact hc (List.cons_prefix_cons.mp hstar).1.symm
    exact (isUnmarked_plain_cons ⟨hc, hc'⟩).trans
      (ih.trans (not_congr (joinsMark_of_passing hstars hc').symm))

end Shows

/-! ### Lines -/

theorem infix_append_cons_iff {a b : List Char} (h : c ∉ w) :
    w <:+: a ++ c :: b ↔ w <:+: a ∨ w <:+: b := by
  constructor
  · intro hw
    rcases List.infix_append_iff.mp hw with hw | hw | ⟨w₁, w₂, rfl, h₁, h₂⟩
    · exact .inl hw
    · rcases List.infix_cons_iff.mp hw with hw | hw
      · cases w with
        | nil => exact .inl List.nil_infix
        | cons d w => exact absurd (List.mem_cons.mpr (.inl (List.cons_prefix_cons.mp hw).1.symm)) h
      · exact .inr hw
    · cases w₂ with
      | nil => exact .inl (by simpa using h₁.isInfix)
      | cons d w₂ =>
        obtain ⟨rfl, -⟩ := List.cons_prefix_cons.mp h₂
        simp at h
  · rintro (hw | hw)
    · exact hw.trans (List.prefix_append _ _).isInfix
    · exact hw.trans ((List.suffix_cons c b).trans (List.suffix_append a _)).isInfix

/-- What has no line feed stands within a line. -/
theorem infix_joinWith_iff (hne : w ≠ []) (h : '\n' ∉ w) (texts : List String) :
    w <:+: (Text.joinWith "\n" texts).toList ↔ ∃ text ∈ texts, w <:+: text.toList := by
  induction texts with
  | nil => simp [Text.joinWith, hne]
  | cons text texts ih =>
    cases texts with
    | nil => simp [Text.joinWith]
    | cons next texts =>
      have hchars : (Text.joinWith "\n" (text :: next :: texts)).toList =
          text.toList ++ '\n' :: (Text.joinWith "\n" (next :: texts)).toList := by
        simp [Text.joinWith]
      rw [hchars, infix_append_cons_iff h, ih]
      simp

theorem infix_dropReturn_iff (hne : w ≠ []) (h : '\r' ∉ w) {line : List Char} :
    w <:+: Text.dropReturn line ↔ w <:+: line := by
  rw [Text.dropReturn]
  split
  · next hlast =>
    obtain ⟨start, rfl⟩ := List.getLast?_eq_some_iff.mp hlast
    rw [List.dropLast_concat, infix_append_cons_iff h]
    simp [hne]
  · rfl

/-- How a text ends its lines has no effect on what stands within them. -/
theorem exists_infix_lines_iff (hne : w ≠ []) (h : '\r' ∉ w) (cs : List Char) :
    (∃ line ∈ Text.lines cs, w <:+: line) ↔ ∃ piece ∈ Text.cut '\n' cs, w <:+: piece := by
  obtain ⟨pieces, last, hcut⟩ : ∃ pieces last, Text.cut '\n' cs = pieces ++ [last] :=
    ⟨_, _, (List.dropLast_append_getLast (Text.cut_ne_nil '\n' cs)).symm⟩
  have hended : (∃ line ∈ pieces.map Text.dropReturn, w <:+: line) ↔
      ∃ line ∈ pieces, w <:+: line := by simp [infix_dropReturn_iff hne h]
  rw [Text.lines, hcut, List.dropLast_concat, List.getLast?_concat]
  cases last with
  | nil => simp only [hended, List.mem_append, List.mem_singleton, or_and_right, exists_or,
      exists_eq_left, List.infix_nil, hne, or_false]
  | cons d last => simp only [hended, List.mem_append, or_and_right, exists_or]

/-- The text with its lines put together again, each without the blank in front that it may have. -/
def rejoined (cs : List Char) : List Char :=
  let lines := (Text.lines cs).map fun
    | ' ' :: rest => rest
    | line => line
  (Text.joinWith "\n" (lines.map String.ofList)).toList

theorem unwrapped_eq (cs : List Char) :
    unwrapped cs = Text.replaceAll "   *" " *" (Text.replaceAll "<p>" ""
      (Text.replaceAll "</em>" "*" (Text.replaceAll "<em>" "*" (rejoined cs)))) := rfl

theorem not_mem_of_isBlank (h : w.any Text.isBlank = false) (hc : Text.isBlank c = true) :
    c ∉ w := fun hw => absurd hc (List.any_eq_false.mp h c hw)

/-- What has no blanks stands in a text if it stands in one of its lines. -/
theorem infix_lines_iff (hne : w ≠ []) (h : w.any Text.isBlank = false) :
    (∃ line ∈ Text.lines cs, w <:+: line) ↔ w <:+: cs := by
  have hcut := Text.joinWith_split '\n' (String.ofList cs)
  calc (∃ line ∈ Text.lines cs, w <:+: line)
    _ ↔ ∃ piece ∈ Text.cut '\n' cs, w <:+: piece :=
      exists_infix_lines_iff hne (not_mem_of_isBlank h (by decide)) cs
    _ ↔ ∃ piece ∈ Text.split '\n' (String.ofList cs), w <:+: piece.toList := by
      simp only [Text.split, String.toList_ofList, List.mem_map, exists_exists_and_eq_and]
    _ ↔ w <:+: cs := by
      rw [← infix_joinWith_iff hne (not_mem_of_isBlank h (by decide)),
        show "\n" = String.ofList ['\n'] from rfl, hcut, String.toList_ofList]

theorem infix_rejoined_iff (hne : w ≠ []) (h : w.any Text.isBlank = false) :
    w <:+: rejoined cs ↔ w <:+: cs := by
  have hstrip (line : List Char) : (w <:+: match line with
      | ' ' :: rest => rest
      | line => line) ↔ w <:+: line := by
    split
    · next rest =>
      have hcut := @infix_append_cons_iff ' ' w [] rest (not_mem_of_isBlank h (by decide))
      rw [List.nil_append, List.infix_nil, or_iff_right hne] at hcut
      exact hcut.symm
    · rfl
  rw [← @infix_lines_iff cs w hne h, rejoined,
    infix_joinWith_iff hne (not_mem_of_isBlank h (by decide))]
  simp only [List.mem_map, exists_exists_and_eq_and, String.toList_ofList, hstrip]

theorem any_isBlank_paragraphs (count : Nat) : (paragraphs count).any Text.isBlank = false := by
  induction count with
  | zero => rfl
  | succ count ih =>
    rw [paragraphs_succ, List.any_append, ih]
    decide

/-- Written marks have no blanks. -/
theorem IsWrittenMark.any_isBlank (h : IsWrittenMark w) : w.any Text.isBlank = false := by
  have hstars : ∀ star ∈ stars, star.toList.any Text.isBlank = false := by decide
  cases h with
  | closing h count =>
    rw [List.any_append, List.any_append, hstars _ h, any_isBlank_paragraphs]
    decide
  | opening h count =>
    rw [List.any_cons, List.any_append, hstars _ h, any_isBlank_paragraphs]
    decide

theorem IsWrittenMark.ne_nil (h : IsWrittenMark w) : w ≠ [] := by
  cases h <;> simp

theorem joinsMark_rejoined : JoinsMark (rejoined cs) ↔ JoinsMark cs :=
  exists_congr fun _ => and_congr_right fun h => infix_rejoined_iff h.ne_nil h.any_isBlank

/-! ### The whole translation -/

theorem indented_rewrites : (Rule.replacement "   *" " *").Rewrites SameMarks := by
  intro cs new rest h
  obtain ⟨rest', hafter, hfound⟩ := Option.map_eq_some_iff.mp h
  obtain ⟨rfl, rfl⟩ := Prod.mk.inj hfound
  refine ⟨"   *".toList, by simp, Text.eq_append_of_isPrefixOf? hafter, ?_⟩
  have hblanks : SameMarks "   ".toList " ".toList :=
    sameMarks_of_plain (by simp) (by simp) (by decide) (by decide)
  exact hblanks.append (.refl "*".toList)

theorem isUnmarked_unwrapped : IsUnmarked (unwrapped cs) ↔ ¬ JoinsMark cs := by
  rw [unwrapped_eq, replaceAll_eq (by simp), replaceAll_eq (by simp), replaceAll_eq (by simp),
    replaceAll_eq (by simp), ← (indented_rewrites.sameMarks _).isUnmarked_iff,
    (shows_replaced _).isUnmarked_iff, joinsMark_rejoined]

/-- A cleaned doc comment has a mark just where the raw one has a star and a slash that nothing but
paragraph tags keeps apart, the star perhaps as a tag for emphasis. -/
theorem isUnmarked_clean_iff (raw : String) :
    IsUnmarked (clean raw).toList ↔ ¬ JoinsMark raw.toList := by
  rw [clean, String.toList_ofList, isUnmarked_trimBoth, isUnmarked_withoutTagStart,
    isUnmarked_withoutLineEnds, isUnmarked_translated, isUnmarked_unwrapped]

end DataClassGen.Doc
