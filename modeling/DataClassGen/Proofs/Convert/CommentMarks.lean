import Mathlib.Data.List.Chain
import Mathlib.Data.List.Infix
import DataClassGen.Convert.Doc
import DataClassGen.Proofs.Names

/-!
# Comment marks in doc comments

A comment is opened by a slash and a star, and closed by a star and a slash. What the translation of
a doc comment does with tags, links and blanks neither makes such a mark nor takes one away: every
piece that is rewritten has something else at its ends, before and after, and of the blanks between
two characters that are none at least one is left. So the pieces are compared by the marks that they
make wherever they stand (`SameMarks`). That leaves the tags for emphasis and paragraphs, which are
shown by a star and by nothing and can bring a star and a slash together; they are not dealt with
here.
-/

namespace DataClassGen.Doc

/-! ### Texts without marks -/

/-- The two characters neither open nor close a comment. -/
def Apart (a b : Char) : Prop := (a = '*' → b ≠ '/') ∧ (a = '/' → b ≠ '*')

/-- No comment is opened or closed within the text. -/
def IsUnmarked (cs : List Char) : Prop := cs.IsChain Apart

/-- The character is not part of a mark. -/
def IsPlainChar (c : Char) : Prop := c ≠ '*' ∧ c ≠ '/'

/-- None of the characters is part of a mark. -/
def ArePlain (cs : List Char) : Prop := ∀ c ∈ cs, IsPlainChar c

instance (a b : Char) : Decidable (Apart a b) :=
  inferInstanceAs (Decidable ((a = '*' → b ≠ '/') ∧ (a = '/' → b ≠ '*')))

instance (c : Char) : Decidable (IsPlainChar c) :=
  inferInstanceAs (Decidable (c ≠ '*' ∧ c ≠ '/'))

instance (cs : List Char) : Decidable (ArePlain cs) := List.decidableBAll IsPlainChar cs

variable {before after cs : List Char} {c : Char}

theorem IsPlainChar.apart_left (h : IsPlainChar c) (d : Char) : Apart c d :=
  ⟨fun hc => absurd hc h.1, fun hc => absurd hc h.2⟩

theorem IsPlainChar.apart_right (h : IsPlainChar c) (d : Char) : Apart d c := ⟨fun _ => h.2, fun _ => h.1⟩

theorem isPlainChar_of_isBlank (h : Text.isBlank c = true) : IsPlainChar c := by
  constructor <;> rintro rfl <;> exact absurd h (by decide)

theorem isPlainChar_of_isTargetChar (h : isTargetChar c = true) : IsPlainChar c := by
  constructor <;> rintro rfl <;> exact absurd h (by decide)

@[simp] theorem arePlain_nil : ArePlain [] := fun _ h => nomatch h

@[simp] theorem arePlain_cons : ArePlain (c :: cs) ↔ IsPlainChar c ∧ ArePlain cs :=
  List.forall_mem_cons

@[simp] theorem arePlain_append : ArePlain (before ++ after) ↔ ArePlain before ∧ ArePlain after :=
  List.forall_mem_append

theorem isUnmarked_cons :
    IsUnmarked (c :: cs) ↔ (∀ d ∈ cs.head?, Apart c d) ∧ IsUnmarked cs := List.isChain_cons

theorem isUnmarked_star_cons :
    IsUnmarked ('*' :: cs) ↔ cs.head? ≠ some '/' ∧ IsUnmarked cs := by
  rw [isUnmarked_cons]
  refine and_congr_left fun _ => ?_
  cases cs.head? <;> simp [Apart]

theorem isUnmarked_slash_cons :
    IsUnmarked ('/' :: cs) ↔ cs.head? ≠ some '*' ∧ IsUnmarked cs := by
  rw [isUnmarked_cons]
  refine and_congr_left fun _ => ?_
  cases cs.head? <;> simp [Apart]

/-- What stands on either side of a plain character makes no mark together. -/
theorem isUnmarked_append_plain (hc : IsPlainChar c) :
    IsUnmarked (before ++ c :: after) ↔ IsUnmarked before ∧ IsUnmarked after := by
  rw [IsUnmarked, List.isChain_append, List.isChain_cons]
  constructor
  · exact fun h => ⟨h.1, h.2.1.2⟩
  · refine fun h => ⟨h.1, ⟨fun d _ => hc.apart_left d, h.2⟩, fun a _ b hb => ?_⟩
    obtain rfl : c = b := Option.some.inj hb
    exact hc.apart_right a

theorem isUnmarked_plain_cons (hc : IsPlainChar c) : IsUnmarked (c :: cs) ↔ IsUnmarked cs := by
  have h := @isUnmarked_append_plain [] cs c hc
  exact h.trans (and_iff_right .nil)

theorem isUnmarked_iff :
    IsUnmarked cs ↔ ¬ "/*".toList <:+: cs ∧ ¬ "*/".toList <:+: cs := by
  induction cs with
  | nil => simp [IsUnmarked]
  | cons c cs ih =>
    have hfirst (b : Char) : [b] <+: cs ↔ cs.head? = some b := by
      cases cs with
      | nil => simp
      | cons d cs => simp [eq_comm]
    rw [show "/*".toList = ['/', '*'] from rfl, show "*/".toList = ['*', '/'] from rfl] at ih ⊢
    rw [List.infix_cons_iff, List.infix_cons_iff, List.cons_prefix_cons, List.cons_prefix_cons,
      hfirst, hfirst]
    by_cases hstar : c = '*'
    · subst hstar
      rw [isUnmarked_star_cons, ih]
      simp only [Char.reduceEq, false_and, false_or, true_and]
      tauto
    by_cases hslash : c = '/'
    · subst hslash
      rw [isUnmarked_slash_cons, ih]
      simp only [Char.reduceEq, false_and, false_or, true_and]
      tauto
    rw [isUnmarked_plain_cons ⟨hstar, hslash⟩, ih]
    simp only [Ne.symm hstar, Ne.symm hslash, false_and, false_or]

theorem isUnmarked_plain_append {start : List Char} (h : ArePlain start) :
    IsUnmarked (start ++ cs) ↔ IsUnmarked cs := by
  induction start with
  | nil => rfl
  | cons c start ih =>
    obtain ⟨hc, hstart⟩ := arePlain_cons.mp h
    rw [List.cons_append, isUnmarked_plain_cons hc, ih hstart]

theorem isUnmarked_append_plain_end {last : List Char} (h : ArePlain last) :
    IsUnmarked (cs ++ last) ↔ IsUnmarked cs := by
  cases last with
  | nil => rw [List.append_nil]
  | cons c last =>
    obtain ⟨hc, hlast⟩ := arePlain_cons.mp h
    have hnil : IsUnmarked (last ++ []) ↔ IsUnmarked [] := isUnmarked_plain_append hlast
    rw [List.append_nil] at hnil
    rw [isUnmarked_append_plain hc, hnil]
    exact and_iff_left .nil

/-! ### Pieces with the same marks -/

/-- Wherever one of the texts stands, the other could, as far as marks are concerned. -/
def SameMarks (old new : List Char) : Prop :=
  ∀ before after, IsUnmarked (before ++ old ++ after) ↔ IsUnmarked (before ++ new ++ after)

namespace SameMarks

variable {a b d a' b' : List Char}

theorem refl (cs : List Char) : SameMarks cs cs := fun _ _ => Iff.rfl

theorem trans (h : SameMarks a b) (h' : SameMarks b d) : SameMarks a d :=
  fun before after => (h before after).trans (h' before after)

theorem append (h : SameMarks a b) (h' : SameMarks a' b') : SameMarks (a ++ a') (b ++ b') := by
  intro before after
  have hfirst := h before (a' ++ after)
  have hsecond := h' (before ++ b) after
  simp only [List.append_assoc] at hfirst hsecond ⊢
  exact hfirst.trans hsecond

theorem isUnmarked_iff (h : SameMarks a b) : IsUnmarked a ↔ IsUnmarked b := by
  simpa using h [] []

end SameMarks

/-- Two pieces of plain characters have the same marks, if both have any characters. -/
theorem sameMarks_of_plain {old new : List Char} (hold : old ≠ []) (hnew : new ≠ [])
    (h : ArePlain old) (h' : ArePlain new) : SameMarks old new := by
  have haround {middle : List Char} (hne : middle ≠ []) (hplain : ArePlain middle)
      (before after : List Char) :
      IsUnmarked (before ++ middle ++ after) ↔ IsUnmarked before ∧ IsUnmarked after := by
    obtain ⟨c, rest, rfl⟩ := List.exists_cons_of_ne_nil hne
    obtain ⟨hc, hrest⟩ := arePlain_cons.mp hplain
    rw [List.append_assoc, List.cons_append, isUnmarked_append_plain hc,
      isUnmarked_plain_append hrest]
  intro before after
  rw [haround hold h, haround hnew h']

/-! ### Rules -/

namespace Rule

variable {rule : Rule} {old new rest : List Char}

theorem rewriting_eq (rule : Rule) (skip : Nat) (cs : List Char) :
    rewriting rule skip cs = rule.apply (cs.drop skip) := by
  induction skip generalizing cs with
  | zero => rfl
  | succ skip ih =>
    cases cs with
    | nil => rfl
    | cons c cs => exact ih cs

theorem apply_of_none (h : rule (c :: cs) = none) : rule.apply (c :: cs) = c :: rule.apply cs := by
  rw [apply, rewriting, h]
  rfl

theorem apply_of_some (hne : old ≠ []) (h : rule (old ++ rest) = some (new, rest)) :
    rule.apply (old ++ rest) = new ++ rule.apply rest := by
  obtain ⟨c, old, rfl⟩ := List.exists_cons_of_ne_nil hne
  rw [List.cons_append] at h ⊢
  rw [apply, rewriting, h]
  have hdrop : (old ++ rest).drop ((old ++ rest).length - rest.length) = rest := by simp
  simp only [rewriting_eq, hdrop]

/-- What the rule finds is a piece in front, and the two pieces are related. -/
def Rewrites (rule : Rule) (R : List Char → List Char → Prop) : Prop :=
  ∀ cs new rest, rule cs = some (new, rest) → ∃ old, old ≠ [] ∧ cs = old ++ rest ∧ R old new

/-- Rewriting pieces into such as have the same marks keeps the marks. -/
theorem Rewrites.sameMarks (h : rule.Rewrites SameMarks) (cs : List Char) :
    SameMarks cs (rule.apply cs) := by
  induction hlength : cs.length using Nat.strong_induction_on generalizing cs with
  | _ length ih =>
    subst hlength
    cases cs with
    | nil => exact .refl []
    | cons c cs =>
      cases hrule : rule (c :: cs) with
      | none =>
        rw [apply_of_none hrule]
        exact (SameMarks.refl [c]).append (ih cs.length (Nat.lt_succ_self _) cs rfl)
      | some found =>
        obtain ⟨new, rest⟩ := found
        obtain ⟨old, hne, heq, hsame⟩ := h _ _ _ hrule
        rw [heq] at hrule ⊢
        rw [apply_of_some hne hrule]
        refine hsame.append (ih rest.length ?_ rest rfl)
        rw [heq, List.length_append]
        exact Nat.lt_add_of_pos_left (List.length_pos_iff.mpr hne)

/-- The first text is replaced by the second. -/
def replacement (old new : String) : Rule := fun cs =>
  (after? old cs).map fun rest => (new.toList, rest)

end Rule

theorem replacing_eq {old : List Char} (hne : old ≠ []) (new : List Char) (skip : Nat)
    (cs : List Char) :
    Text.replacing old new skip cs =
      rewriting (fun cs => (old.isPrefixOf? cs).map fun rest => (new, rest)) skip cs := by
  induction cs generalizing skip with
  | nil => cases skip <;> rfl
  | cons c cs ih =>
    cases skip with
    | succ skip => exact ih skip
    | zero =>
      cases hprefix : old.isPrefixOf? (c :: cs) with
      | none =>
        have hnot : old.isPrefixOf (c :: cs) = false := by
          by_contra hstarts
          have hstarts := Bool.eq_true_of_not_eq_false hstarts
          obtain ⟨rest, hrest⟩ := List.isPrefixOf_iff_prefix.mp hstarts
          rw [List.isPrefixOf?_eq_some_iff_append_eq.mpr hrest] at hprefix
          cases hprefix
        simp only [Text.replacing, rewriting, hprefix, hnot, Option.map_none, ih]
        rfl
      | some rest =>
        have heq := Text.eq_append_of_isPrefixOf? hprefix
        have hstarts : old.isPrefixOf (c :: cs) = true :=
          List.isPrefixOf_iff_prefix.mpr ⟨rest, heq.symm⟩
        have hlength := congrArg List.length heq
        rw [List.length_cons, List.length_append] at hlength
        have hpos := List.length_pos_iff.mpr hne
        have hskip : cs.length - rest.length = old.length - 1 := by omega
        simp only [Text.replacing, rewriting, hprefix, hstarts, if_true, Option.map_some, hskip, ih]

theorem replaceAll_eq {old : String} (hne : old.toList ≠ []) (new : String) (cs : List Char) :
    Text.replaceAll old new cs = (Rule.replacement old new).apply cs :=
  replacing_eq hne new.toList 0 cs

/-! ### Links -/

/-- What is read has the property, and nothing that is part of a mark is read over. -/
def ReadsPlain {α : Type} (read : List Char → Option (α × List Char)) (P : α → Prop) : Prop :=
  ∀ cs a rest, read cs = some (a, rest) → P a ∧ ∃ old, cs = old ++ rest ∧ ArePlain old

/-- Plain characters, of which there are some. -/
def IsPlainText (cs : List Char) : Prop := cs ≠ [] ∧ ArePlain cs

section Reading

variable {α β : Type} {P : α → Prop} {Q : β → Prop} {read : List Char → Option (α × List Char)}

theorem readsPlain_pure {a : α} (h : P a) : ReadsPlain (fun rest => pure (a, rest)) P := by
  intro cs b rest hread
  obtain ⟨rfl, rfl⟩ := Prod.mk.inj (Option.some.inj hread)
  exact ⟨h, [], rfl, arePlain_nil⟩

theorem ReadsPlain.bind (h : ReadsPlain read P) {next : α × List Char → Option (β × List Char)}
    (hnext : ∀ a, P a → ReadsPlain (fun rest => next (a, rest)) Q) :
    ReadsPlain (fun cs => read cs >>= next) Q := by
  intro cs b rest hread
  obtain ⟨⟨a, between⟩, hfirst, hsecond⟩ := Option.bind_eq_some_iff.mp hread
  obtain ⟨ha, old, rfl, hold⟩ := h cs a between hfirst
  obtain ⟨hb, old', rfl, hold'⟩ := hnext a ha between b rest hsecond
  exact ⟨hb, old ++ old', by rw [List.append_assoc], arePlain_append.mpr ⟨hold, hold'⟩⟩

theorem readsPlain_target {closing : Char} (hclosing : IsPlainChar closing) :
    ReadsPlain (target? closing) ArePlain := by
  intro cs name rest h
  rw [target?] at h
  split at h
  · next c rest' hdrop =>
    split at h
    · next hc =>
      obtain ⟨rfl, rfl⟩ := Prod.mk.inj (Option.some.inj h)
      have hname : ArePlain (cs.takeWhile isTargetChar) := fun c hc =>
        isPlainChar_of_isTargetChar (List.mem_takeWhile_imp hc)
      refine ⟨hname, cs.takeWhile isTargetChar ++ [closing], ?_, ?_⟩
      · rw [← hc, List.append_assoc, List.singleton_append, ← hdrop,
          List.takeWhile_append_dropWhile]
      · simp [hname, hclosing]
    · cases h
  · cases h

/-- A rule that reads plain characters and gives such has the same marks in place of them. -/
theorem ReadsPlain.rewrites {start : String} {read : Rule} (h : ReadsPlain read IsPlainText)
    (hstart : IsPlainText start.toList) :
    Rule.Rewrites (fun cs => do read (← after? start cs)) SameMarks := by
  intro cs new rest hfound
  obtain ⟨inside, hafter, hread⟩ := Option.bind_eq_some_iff.mp hfound
  obtain ⟨⟨hne, hnew⟩, old, rfl, hold⟩ := h inside new rest hread
  refine ⟨start.toList ++ old, by simp [hstart.1], ?_, sameMarks_of_plain (by simp [hstart.1]) hne
    (arePlain_append.mpr ⟨hstart.2, hold⟩) hnew⟩
  rw [Text.eq_append_of_isPrefixOf? hafter, List.append_assoc]

end Reading

theorem code_rewrites : code.Rewrites SameMarks := by
  refine ReadsPlain.rewrites ?_ ⟨by simp, by decide⟩
  refine (readsPlain_target (by decide)).bind fun name hname => readsPlain_pure ⟨by simp, ?_⟩
  simp only [List.cons_append, arePlain_cons, arePlain_append, hname]
  decide

theorem link_rewrites : link.Rewrites SameMarks := by
  refine ReadsPlain.rewrites ?_ ⟨by simp, by decide⟩
  refine (readsPlain_target (by decide)).bind fun name hname => readsPlain_pure ⟨by simp, ?_⟩
  simp only [List.cons_append, arePlain_cons, arePlain_append, hname]
  decide

theorem memberLink_rewrites : memberLink.Rewrites SameMarks := by
  refine ReadsPlain.rewrites ?_ ⟨by simp, by decide⟩
  refine (readsPlain_target (by decide)).bind fun name hname => ?_
  refine (readsPlain_target (by decide)).bind fun member hmember => readsPlain_pure ⟨by simp, ?_⟩
  simp only [List.cons_append, List.append_assoc, arePlain_cons, arePlain_append, hname, hmember]
  decide

theorem labelledLink_rewrites : labelledLink.Rewrites SameMarks := by
  refine ReadsPlain.rewrites ?_ ⟨by simp, by decide⟩
  refine (readsPlain_target (by decide)).bind fun name hname => ?_
  refine (readsPlain_target (by decide)).bind fun label hlabel => readsPlain_pure ⟨by simp, ?_⟩
  simp only [List.cons_append, List.append_assoc, arePlain_cons, arePlain_append, hname, hlabel]
  decide

theorem labelledMemberLink_rewrites : labelledMemberLink.Rewrites SameMarks := by
  refine ReadsPlain.rewrites ?_ ⟨by simp, by decide⟩
  refine (readsPlain_target (by decide)).bind fun name hname => ?_
  refine (readsPlain_target (by decide)).bind fun member hmember => ?_
  refine (readsPlain_target (by decide)).bind fun label hlabel => readsPlain_pure ⟨by simp, ?_⟩
  simp only [List.cons_append, List.append_assoc, arePlain_cons, arePlain_append, hname, hmember,
    hlabel]
  decide

/-- Translating tags keeps the marks. -/
theorem isUnmarked_translated : IsUnmarked (translated cs) ↔ IsUnmarked cs := by
  have hsame := ((((code_rewrites.sameMarks cs).trans (link_rewrites.sameMarks _)).trans
    (memberLink_rewrites.sameMarks _)).trans (labelledLink_rewrites.sameMarks _)).trans
    (labelledMemberLink_rewrites.sameMarks _)
  exact hsame.isUnmarked_iff.symm

/-! ### Blanks -/

/-- Where a text begins with a blank, so does what is left of it without line ends. -/
theorem isBlank_of_head?_withoutLineEnds (hc : Text.isBlank c = true) :
    ∀ d ∈ (withoutLineEnds (c :: cs)).head?, Text.isBlank d = true := by
  induction cs generalizing c with
  | nil =>
    have hgone : withoutLineEnds [c] = [] := by
      simp [withoutLineEnds, hc, staysBefore, Text.isBlankLine]
    simp [hgone]
  | cons next cs ih =>
    rw [withoutLineEnds]
    split
    · next hgoes =>
      by_cases hnext : Text.isBlank next = true
      · exact ih hnext
      · simp [staysBefore, Text.isBlankLine, hnext] at hgoes
    · intro d hd
      rwa [← Option.some.inj hd]

theorem isUnmarked_withoutLineEnds : IsUnmarked (withoutLineEnds cs) ↔ IsUnmarked cs := by
  induction cs with
  | nil => rfl
  | cons c cs ih =>
    by_cases hc : Text.isBlank c = true
    · have hplain := isPlainChar_of_isBlank hc
      rw [withoutLineEnds, isUnmarked_plain_cons hplain]
      split
      · exact ih
      · rw [isUnmarked_plain_cons hplain, ih]
    · rw [withoutLineEnds, if_neg (by simp [hc]), isUnmarked_cons, isUnmarked_cons, ih]
      refine and_congr_left fun _ => ?_
      -- The character behind `c` is the same, or it was and is a blank.
      cases cs with
      | nil => rfl
      | cons next cs =>
        by_cases hnext : Text.isBlank next = true
        · have hleft := @isBlank_of_head?_withoutLineEnds cs next hnext
          exact iff_of_true (fun d hd => (isPlainChar_of_isBlank (hleft d hd)).apart_right c)
            (fun d hd => by
              rw [← Option.some.inj hd]
              exact (isPlainChar_of_isBlank hnext).apart_right c)
        · rw [withoutLineEnds, if_neg (by simp [hnext])]
          rfl

theorem arePlain_takeWhile : ArePlain (cs.takeWhile Text.isBlank) := fun _ hc =>
  isPlainChar_of_isBlank (List.mem_takeWhile_imp hc)

theorem isUnmarked_withoutTagStart : IsUnmarked (withoutTagStart cs) ↔ IsUnmarked cs := by
  rw [withoutTagStart]
  split
  · next rest _ hdrop =>
    conv_rhs => rw [← List.takeWhile_append_dropWhile (p := Text.isBlank) (l := cs), hdrop,
      isUnmarked_plain_append arePlain_takeWhile, isUnmarked_plain_cons (by decide)]
  · rfl

theorem isUnmarked_trimBoth : IsUnmarked (Text.trimBoth cs) ↔ IsUnmarked cs := by
  have hleft : IsUnmarked (Text.trimLeft cs) ↔ IsUnmarked cs := by
    conv_rhs => rw [← List.takeWhile_append_dropWhile (p := Text.isBlank) (l := cs),
      isUnmarked_plain_append arePlain_takeWhile]
    rfl
  have hright (cs : List Char) : IsUnmarked (Text.trimRight cs) ↔ IsUnmarked cs := by
    have hsplit : cs = Text.trimRight cs ++ (cs.reverse.takeWhile Text.isBlank).reverse := by
      rw [Text.trimRight, ← List.reverse_append, List.takeWhile_append_dropWhile,
        List.reverse_reverse]
    conv_rhs => rw [hsplit]
    refine (isUnmarked_append_plain_end fun c hc => ?_).symm
    exact arePlain_takeWhile c (List.mem_reverse.mp hc)
  rw [Text.trimBoth, hright, hleft]

end DataClassGen.Doc
