import DataClassGen.Proofs.Convert.DocComments
import DataClassGen.Proofs.Source.CleanedFiles

/-!
# Doc comments in a file

Comments nest: within one, a slash and a star open another, and a star and a slash close the
innermost. The lines that a doc comment is written on are one comment, closed by their last line, if
the text has no mark. That a raw text has none is not enough for that: tags that are replaced can
make one, and `JoinsMark` says when they do.
-/

namespace DataClassGen.Source

open Doc

/-! ### Comments that nest -/

/-- What follows the outermost of `level` comments that are open; nothing if it is not closed. -/
def behindComment : Nat → List Char → Option (List Char)
  | 0, cs => some cs
  | level + 1, '*' :: '/' :: cs => behindComment level cs
  | level + 1, '/' :: '*' :: cs => behindComment (level + 2) cs
  | level + 1, _ :: cs => behindComment (level + 1) cs
  | _ + 1, [] => none

/-- The blanks in front of a line that is set in by `depth` steps. -/
def indent (depth : Nat) : List Char := List.replicate (2 * depth) ' '

/-- The text is one comment and the end of a line: the comment opened in front, behind blanks, is
closed where the line ends. -/
def IsOneComment (depth : Nat) (text : List Char) : Prop :=
  ∃ inside, text = indent depth ++ "/*".toList ++ inside ∧ behindComment 1 inside = some ['\n']

variable {cs : List Char} {c : Char} {names : Names}

theorem behindComment_cons {level : Nat} (h : ∀ d ∈ cs.head?, Apart c d) :
    behindComment (level + 1) (c :: cs) = behindComment (level + 1) cs := by
  cases cs with
  | nil => rw [behindComment] <;> simp
  | cons d cs =>
    obtain ⟨hstar, hslash⟩ := h d rfl
    rw [behindComment]
    · rintro _ rfl heq
      exact hstar rfl (List.cons.inj heq).1
    · rintro _ rfl heq
      exact hslash rfl (List.cons.inj heq).1

/-- As many comments are open behind a text without marks as in front of it. -/
theorem behindComment_of_isUnmarked {level : Nat} (h : IsUnmarked cs) (hc : IsPlainChar c)
    (rest : List Char) :
    behindComment (level + 1) (cs ++ c :: rest) = behindComment (level + 1) (c :: rest) := by
  induction cs with
  | nil => rfl
  | cons d cs ih =>
    obtain ⟨hnext, hcs⟩ := isUnmarked_cons.mp h
    rw [List.cons_append, behindComment_cons, ih hcs]
    cases cs with
    | nil =>
      intro a ha
      rw [← Option.some.inj ha]
      exact hc.apart_right d
    | cons a cs => exact hnext

/-! ### The lines of a doc comment -/

/-- What is written for a doc comment. -/
def docText (names : Names) (depth : Nat) (doc : String) : String :=
  Text.concat ((docLines depth (some doc)).map (Line.textIn names))

/-- What is written on a line of a doc comment. -/
def docLine (line : String) : String := if Text.isBlankText line then " *" else " * " ++ line

theorem toList_textIn_plain (depth : Nat) {text : String} (hne : text.toList ≠ []) :
    ((Line.plain depth text).textIn names).toList = indent depth ++ text.toList ++ ['\n'] := by
  have hchars : charsIn names (Line.plain depth text).pieces = text.toList := by
    simp [Line.plain, charsIn, Piece.textIn]
  rw [toList_textIn, Line.written, hchars]
  simp [Line.plain, setInLine, Text.ended, hne, indent]

/-- The lines between the first and the last. -/
def middle (depth : Nat) (lines : List String) : List Char :=
  lines.flatMap fun line => indent depth ++ (docLine line).toList ++ ['\n']

theorem toList_docText (depth : Nat) (doc : String) : (docText names depth doc).toList =
    indent depth ++ "/*".toList ++ ("*\n".toList ++ middle depth (Text.textLines doc) ++
      indent depth ++ " */\n".toList) := by
  have hline (line : String) : ((Line.plain depth (docLine line)).textIn names).toList =
      indent depth ++ (docLine line).toList ++ ['\n'] := by
    refine toList_textIn_plain depth ?_
    rw [docLine]
    split <;> simp
  have hlines : docLines depth (some doc) = Line.plain depth "/**" ::
      ((Text.textLines doc).map fun line => Line.plain depth (docLine line)) ++
        [Line.plain depth " */"] := rfl
  rw [docText, Text.toList_concat, hlines]
  simp [List.flatMap_map, hline, toList_textIn_plain, middle]

theorem isUnmarked_of_mem_lines {line : List Char} (h : IsUnmarked cs)
    (hline : line ∈ Text.lines cs) : IsUnmarked line := by
  obtain ⟨hopen, hclose⟩ := isUnmarked_iff.mp h
  exact isUnmarked_iff.mpr
    ⟨fun hmark => hopen ((infix_lines_iff (by simp) (by decide)).mp ⟨line, hline, hmark⟩),
      fun hmark => hclose ((infix_lines_iff (by simp) (by decide)).mp ⟨line, hline, hmark⟩)⟩

theorem arePlain_indent (depth : Nat) : ArePlain (indent depth) := fun c hc => by
  rw [List.eq_of_mem_replicate hc]
  decide

/-- A star with a plain character behind it is not part of a mark. -/
theorem isUnmarked_star (hc : IsPlainChar c) (h : IsUnmarked cs) : IsUnmarked ('*' :: c :: cs) :=
  isUnmarked_star_cons.mpr
    ⟨fun hslash => hc.2 (Option.some.inj hslash), (isUnmarked_plain_cons hc).mpr h⟩

theorem isUnmarked_docLine {line : String} (h : IsUnmarked line.toList) :
    IsUnmarked (docLine line).toList := by
  rw [docLine]
  split
  · exact isUnmarked_iff.mpr (by decide)
  · rw [String.toList_append]
    exact (isUnmarked_plain_cons (by decide)).mpr (isUnmarked_star (by decide) h)

theorem isUnmarked_middle (depth : Nat) {lines : List String}
    (h : ∀ line ∈ lines, IsUnmarked line.toList) : IsUnmarked (middle depth lines) := by
  induction lines with
  | nil => exact .nil
  | cons line lines ih =>
    obtain ⟨hline, hlines⟩ := List.forall_mem_cons.mp h
    rw [middle, List.flatMap_cons, List.append_assoc, List.append_assoc,
      isUnmarked_plain_append (arePlain_indent depth), List.singleton_append,
      isUnmarked_append_plain (by decide)]
    exact ⟨isUnmarked_docLine hline, ih hlines⟩

/-- A doc comment without marks is closed by its last line, and not before. -/
theorem isOneComment_of_isUnmarked (depth : Nat) {doc : String} (h : IsUnmarked doc.toList) :
    IsOneComment depth (docText names depth doc).toList := by
  refine ⟨_, toList_docText depth doc, ?_⟩
  have hlines : ∀ line ∈ Text.textLines doc, IsUnmarked line.toList := by
    intro line hline
    obtain ⟨chars, hchars, rfl⟩ := List.mem_map.mp hline
    rw [String.toList_ofList]
    exact isUnmarked_of_mem_lines h hchars
  have hbody : IsUnmarked ("*\n".toList ++ middle depth (Text.textLines doc) ++ indent depth) := by
    rw [isUnmarked_append_plain_end (arePlain_indent depth)]
    exact isUnmarked_star (by decide) (isUnmarked_middle depth hlines)
  exact behindComment_of_isUnmarked hbody (by decide : IsPlainChar ' ') "*/\n".toList

/-- A mark comes into a cleaned doc comment where the raw text joins one; where it does not, the
lines written for the doc comment are one comment, whatever it is set in by. -/
theorem doc_comment_stays_closed (raw : String) :
    ("/*".toList <:+: (Doc.clean raw).toList ∨ "*/".toList <:+: (Doc.clean raw).toList ↔
      JoinsMark raw.toList) ∧
    (¬ JoinsMark raw.toList → ∀ names depth,
      IsOneComment depth (docText names depth (Doc.clean raw)).toList) := by
  have hiff := isUnmarked_clean_iff raw
  refine ⟨?_, fun h names depth => isOneComment_of_isUnmarked depth (hiff.mpr h)⟩
  rw [← not_iff_not, ← hiff, isUnmarked_iff, not_or]

/-- The end of an emphasis closes the comment where a slash follows. -/
theorem emphasis_closes_comment :
    (¬ "/*".toList <:+: "x</em>/y".toList ∧ ¬ "*/".toList <:+: "x</em>/y".toList) ∧
    ("/*".toList <:+: (Doc.clean "x</em>/y").toList ∨
      "*/".toList <:+: (Doc.clean "x</em>/y").toList) ∧
    ¬ IsOneComment 0 (docText ⟨"test", [], []⟩ 0 (Doc.clean "x</em>/y")).toList := by
  refine ⟨by decide, (doc_comment_stays_closed _).1.mpr ?_, ?_⟩
  · exact ⟨_, .closing (show "</em>" ∈ stars by decide) 0, "x".toList, "y".toList, by decide⟩
  · rintro ⟨inside, htext, hclosed⟩
    have hwritten : (docText ⟨"test", [], []⟩ 0 (Doc.clean "x</em>/y")).toList =
        "/*".toList ++ "*\n * x*/y\n */\n".toList := by decide +kernel
    rw [hwritten] at htext
    obtain rfl := List.append_cancel_left htext
    exact absurd hclosed (by decide)

end DataClassGen.Source
