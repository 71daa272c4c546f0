import DataClassGen.Source.TypeName
import Mathlib.Data.List.TakeWhile
import Mathlib.Data.String.Basic

/-!
# Names with dots

Joining the pieces that a text was cut into gives the text back. So a class that is made from a
canonical name has that canonical name again, wherever the name was cut, unless the name begins
with a dot: what stands before such a dot is taken for the unnamed package.
-/

namespace DataClassGen

namespace Text

/-! ### Cutting and joining -/

/-- Cutting is the library's splitting. -/
theorem cut_eq_splitOn (sep : Char) (cs : List Char) : cut sep cs = cs.splitOn sep := by
  induction cs with
  | nil => rfl
  | cons c cs ih =>
    rw [List.splitOn_cons_eq_if_modifyHead]
    by_cases h : c = sep
    · simp [cut, h, ih]
    · simp only [cut, h, if_false, beq_eq_false_iff_ne.mpr h, Bool.false_eq_true, ih]
      cases hs : cs.splitOn sep with
      | nil => exact absurd hs (List.splitOn_ne_nil sep cs)
      | cons piece pieces => simp

theorem split_ne_nil (sep : Char) (s : String) : split sep s ≠ [] := by
  simp [split, cut_ne_nil]

theorem toList_joinWith (sep : String) (texts : List String) :
    (joinWith sep texts).toList = sep.toList.intercalate (texts.map String.toList) := by
  induction texts with
  | nil => simp [joinWith]
  | cons s rest ih =>
    cases rest with
    | nil => simp [joinWith]
    | cons t rest =>
      simp only [List.map_cons] at ih
      simp only [joinWith, String.toList_append, ih, List.map_cons, List.intercalate_cons_cons]

theorem toList_concat (texts : List String) :
    (concat texts).toList = texts.flatMap (·.toList) := by
  rw [concat, toList_joinWith, List.flatMap_def]
  generalize texts.map String.toList = lists
  induction lists with
  | nil => rfl
  | cons first rest ih =>
    cases rest with
    | nil => simp
    | cons second rest =>
      rw [List.intercalate_cons_cons, ih]
      simp

theorem joinWith_split (sep : Char) (s : String) :
    joinWith (String.ofList [sep]) (split sep s) = s := by
  apply String.toList_inj.mp
  rw [toList_joinWith, split, List.map_map]
  have hid : String.toList ∘ String.ofList = id := funext fun cs => String.toList_ofList
  rw [hid, List.map_id, cut_eq_splitOn, String.toList_ofList, List.intercalate_splitOn]

theorem split_joinWith (sep : Char) {texts : List String} (h : ∀ s ∈ texts, sep ∉ s.toList)
    (hne : texts ≠ []) : split sep (joinWith (String.ofList [sep]) texts) = texts := by
  rw [split, toList_joinWith, cut_eq_splitOn, String.toList_ofList, List.splitOn_intercalate]
  · simp [Function.comp_def]
  · simpa using h
  · simpa using hne

theorem joinWith_append (sep : String) {first second : List String} (h : first ≠ [])
    (h' : second ≠ []) :
    joinWith sep (first ++ second) = joinWith sep first ++ sep ++ joinWith sep second := by
  induction first with
  | nil => exact absurd rfl h
  | cons s rest ih =>
    cases rest with
    | nil =>
      obtain ⟨t, second, rfl⟩ := List.exists_cons_of_ne_nil h'
      simp [joinWith]
    | cons t rest =>
      have := ih (by simp)
      simp only [List.cons_append] at this
      simp only [List.cons_append, joinWith, this, String.append_assoc]

/-- A text that does not begin with the separator has a first piece, unless it is empty. -/
theorem head_split_ne_empty {sep : Char} {s : String} (hs : s ≠ "")
    (h : beginsWith (String.ofList [sep]) s = false) : (split sep s).head? ≠ some "" := by
  obtain ⟨c, cs, hcs⟩ := List.exists_cons_of_ne_nil (mt String.toList_eq_nil_iff.mp hs)
  have hc : c ≠ sep := by
    rintro rfl
    simp [beginsWith, hcs, List.isPrefixOf] at h
  simp only [split, cut_eq_splitOn, hcs, List.splitOn_cons_eq_if_modifyHead,
    beq_eq_false_iff_ne.mpr hc, Bool.false_eq_true, if_false]
  cases cs.splitOn sep <;> simp [← String.toList_eq_nil_iff]

/-- What stands behind a beginning makes up the text together with it. -/
theorem eq_append_of_after? {start s rest : String} (h : after? start s = some rest) :
    s = start ++ rest := by
  obtain ⟨cs, hcs, rfl⟩ := Option.map_eq_some_iff.mp h
  apply String.toList_inj.mp
  rw [eq_append_of_isPrefixOf? hcs, String.toList_append, String.toList_ofList]

/-- What stands before an ending makes up the text together with it. -/
theorem eq_append_of_before? {ending s rest : String} (h : before? ending s = some rest) :
    s = rest ++ ending := by
  obtain ⟨cs, hcs, rfl⟩ := Option.map_eq_some_iff.mp h
  have happend := congrArg List.reverse (eq_append_of_isPrefixOf? hcs)
  rw [List.reverse_reverse, List.reverse_append, List.reverse_reverse] at happend
  rw [← String.toList_inj, String.toList_append, String.toList_ofList, happend]

theorem after?_append (start rest : String) : after? start (start ++ rest) = some rest := by
  rw [after?, String.toList_append, List.isPrefixOf?_eq_some_iff_append_eq.mpr rfl, Option.map_some,
    String.ofList_toList]

/-- A text begins with what it is put together from first. -/
theorem beginsWith_append (start rest : String) : beginsWith start (start ++ rest) = true := by
  rw [beginsWith, String.toList_append, List.isPrefixOf_iff_prefix]
  exact List.prefix_append _ _

theorem mem_joinWith {sep piece : String} {pieces : List String} {c : Char}
    (hpiece : piece ∈ pieces) (hc : c ∈ piece.toList) : c ∈ (joinWith sep pieces).toList := by
  induction pieces with
  | nil => cases hpiece
  | cons first rest ih =>
    cases rest with
    | nil =>
      rw [List.mem_singleton.mp hpiece] at hc
      exact hc
    | cons second rest =>
      rw [joinWith, String.toList_append, List.mem_append]
      rcases List.mem_cons.mp hpiece with rfl | hpiece
      · left
        rw [String.toList_append]
        exact List.mem_append_left _ hc
      · exact Or.inr (ih hpiece)

/-- A joined text has no characters but those of the pieces and of what stands between them. -/
theorem mem_of_mem_joinWith {sep : String} {pieces : List String} {c : Char}
    (hc : c ∈ (joinWith sep pieces).toList) :
    c ∈ sep.toList ∨ ∃ piece ∈ pieces, c ∈ piece.toList := by
  induction pieces with
  | nil => simp [joinWith] at hc
  | cons first rest ih =>
    cases rest with
    | nil => exact Or.inr ⟨first, List.mem_cons_self, hc⟩
    | cons second rest =>
      rw [joinWith, String.toList_append, String.toList_append, List.mem_append,
        List.mem_append] at hc
      rcases hc with (hc | hc) | hc
      · exact Or.inr ⟨first, List.mem_cons_self, hc⟩
      · exact Or.inl hc
      · rcases ih hc with hsep | ⟨piece, hpiece, hc⟩
        · exact Or.inl hsep
        · exact Or.inr ⟨piece, List.mem_cons_of_mem _ hpiece, hc⟩

/-- The pieces of a text have no characters but those of the text. -/
theorem mem_of_mem_split {sep c : Char} {s piece : String} (hpiece : piece ∈ split sep s)
    (hc : c ∈ piece.toList) : c ∈ s.toList := by
  rw [← joinWith_split sep s]
  exact mem_joinWith hpiece hc

/-- The last piece of a text. -/
theorem afterLast_append {sep : Char} {s : String} (before : String) (h : sep ∉ s.toList) :
    afterLast sep (before ++ String.ofList [sep] ++ s) = s := by
  have hall : ∀ c ∈ s.toList.reverse, (c != sep) = true := by
    intro c hc
    simp only [bne_iff_ne, ne_eq]
    rintro rfl
    exact h (List.mem_reverse.mp hc)
  simp only [afterLast, String.toList_append, String.toList_ofList, List.reverse_append,
    List.reverse_cons, List.reverse_nil, List.nil_append, List.singleton_append]
  rw [List.takeWhile_append_of_pos hall]
  simp

theorem afterLast_of_not_mem {sep : Char} {s : String} (h : sep ∉ s.toList) :
    afterLast sep s = s := by
  have hall : ∀ c ∈ s.toList.reverse, (c != sep) = true := by
    intro c hc
    simp only [bne_iff_ne, ne_eq]
    rintro rfl
    exact h (List.mem_reverse.mp hc)
  rw [afterLast, List.takeWhile_eq_self_iff.mpr hall, List.reverse_reverse, String.ofList_toList]

theorem not_mem_of_mem_cut {sep : Char} {cs piece : List Char} (h : piece ∈ cut sep cs) :
    sep ∉ piece := by
  induction cs generalizing piece with
  | nil => simp [cut] at h; simp [h]
  | cons c cs ih =>
    rw [cut] at h
    split at h
    · rcases List.mem_cons.mp h with rfl | h
      · exact List.not_mem_nil
      · exact ih h
    · next hc =>
      split at h
      · simp [List.mem_singleton.mp h, Ne.symm hc]
      · next first rest hcut =>
        rcases List.mem_cons.mp h with rfl | h
        · have hfirst : sep ∉ first := ih (hcut ▸ List.mem_cons_self)
          simp [Ne.symm hc, hfirst]
        · exact ih (hcut ▸ List.mem_cons_of_mem first h)

/-- A text that has the separator has more than one piece. -/
theorem one_lt_length_split {sep : Char} {s : String} (h : sep ∈ s.toList) :
    1 < (split sep s).length := by
  by_contra hle
  obtain ⟨piece, hpiece⟩ := List.length_eq_one_iff.mp (Nat.le_antisymm (Nat.not_lt.mp hle)
    (List.length_pos_of_ne_nil (split_ne_nil sep s)))
  have hjoin := joinWith_split sep s
  rw [hpiece, joinWith] at hjoin
  have hmem : piece ∈ split sep s := hpiece ▸ List.mem_cons_self
  obtain ⟨cs, hcs, rfl⟩ := List.mem_map.mp hmem
  rw [← hjoin, String.toList_ofList] at h
  exact not_mem_of_mem_cut hcs h

/-- The last piece of a text is what stands after the last separator. -/
theorem getLast?_split (sep : Char) (s : String) :
    (split sep s).getLast? = some (afterLast sep s) := by
  obtain ⟨init, last, hsplit⟩ : ∃ init last, split sep s = init ++ [last] :=
    ⟨_, _, (List.dropLast_append_getLast (split_ne_nil sep s)).symm⟩
  have hlast : sep ∉ last.toList := by
    have hmem : last ∈ split sep s := hsplit ▸ List.mem_append_right _ List.mem_cons_self
    obtain ⟨piece, hpiece, rfl⟩ := List.mem_map.mp hmem
    rw [String.toList_ofList]
    exact not_mem_of_mem_cut hpiece
  have hs := joinWith_split sep s
  rw [hsplit] at hs ⊢
  rw [List.getLast?_concat]
  by_cases hinit : init = []
  · rw [hinit] at hs
    rw [← hs, List.nil_append, joinWith, afterLast_of_not_mem hlast]
  · rw [joinWith_append _ hinit (List.cons_ne_nil _ _)] at hs
    rw [← hs, joinWith, afterLast_append _ hlast]

/-- A text comes before every longer one that it begins. -/
theorem lt_append {s t : String} (h : t ≠ "") : s < s ++ t := by
  rw [String.lt_iff_toList_lt, String.toList_append]
  obtain ⟨c, cs, hcs⟩ := List.exists_cons_of_ne_nil (mt String.toList_eq_nil_iff.mp h)
  rw [hcs]
  generalize s.toList = start
  induction start with
  | nil => exact List.Lex.nil
  | cons d start ih => exact List.Lex.cons ih

end Text

namespace Source.ClassName

/-! ### Canonical names -/

/-- The last part of a canonical name, at least, is the name of a class. -/
theorem exists_cut_ofCanonical (name : String) : ∃ cut, cut < (Text.split '.' name).length ∧
    ofCanonical name =
      ⟨Text.joinWith "." ((Text.split '.' name).take cut), (Text.split '.' name).drop cut⟩ := by
  refine ⟨_, ?_, rfl⟩
  split
  · next hi => exact (List.findIdx?_eq_some_iff_findIdx_eq.mp hi).1
  · exact Nat.sub_lt (List.length_pos_iff.mpr (Text.split_ne_nil '.' name)) Nat.one_pos

/-- A class has the canonical name that its package and its simple names were cut from. -/
theorem canonical_cut {packages names : List String} (h : Text.joinWith "." packages ≠ "")
    (hnames : names ≠ []) :
    canonical ⟨Text.joinWith "." packages, names⟩ = Text.joinWith "." (packages ++ names) := by
  have hpackages : packages ≠ [] := by
    rintro rfl
    exact h rfl
  rw [canonical, if_neg (by simpa using h), Text.joinWith_append "." hpackages hnames]

/-- A class by its canonical name has that name. -/
theorem canonical_ofCanonical {name : String} (h : Text.beginsWith "." name = false) :
    (ofCanonical name).canonical = name := by
  have hjoin : Text.joinWith "." (Text.split '.' name) = name := Text.joinWith_split '.' name
  obtain ⟨cut, hcut, hof⟩ := exists_cut_ofCanonical name
  rw [hof]
  rcases Nat.eq_zero_or_pos cut with rfl | hpos
  · exact hjoin
  · have hdrop : (Text.split '.' name).drop cut ≠ [] := by
      simpa using hcut
    -- Only an empty first piece could make the package empty, and the name has none.
    have hpackage : Text.joinWith "." ((Text.split '.' name).take cut) ≠ "" := by
      intro hempty
      have hname : name ≠ "" := by
        rintro rfl
        have : Text.split '.' "" = [""] := by decide +kernel
        rw [this] at hcut
        simp only [List.length_cons, List.length_nil] at hcut
        omega
      have hhead : (Text.split '.' name).head? ≠ some "" := Text.head_split_ne_empty hname h
      obtain ⟨first, rest, hsplit⟩ := List.exists_cons_of_ne_nil (Text.split_ne_nil '.' name)
      obtain ⟨n, rfl⟩ : ∃ n, cut = n + 1 := ⟨cut - 1, by omega⟩
      rw [hsplit] at hempty hhead
      rw [List.take_succ_cons] at hempty
      have hfirst : first = "" := by
        cases hrest : rest.take n with
        | nil => rw [hrest] at hempty; exact hempty
        | cons t ts =>
          rw [hrest] at hempty
          have := congrArg String.toList hempty
          simp [Text.joinWith] at this
      exact hhead (by rw [hfirst]; rfl)
    rw [canonical_cut hpackage hdrop, List.take_append_drop, hjoin]

/-- A dot in front of a name goes to the package. -/
theorem exists_cut_ofCanonical_dot (rest : String) : ∃ cut, cut < (Text.split '.' rest).length ∧
    ofCanonical rest =
      ⟨Text.joinWith "." ((Text.split '.' rest).take cut), (Text.split '.' rest).drop cut⟩ ∧
    ofCanonical ("." ++ rest) =
      ⟨Text.joinWith "." ("" :: (Text.split '.' rest).take cut),
        (Text.split '.' rest).drop cut⟩ := by
  have hsplit : Text.split '.' ("." ++ rest) = "" :: Text.split '.' rest := by
    simp [Text.split, Text.cut]
  have hcapital : isCapitalized "" = false := rfl
  obtain ⟨first, others, hrest⟩ := List.exists_cons_of_ne_nil (Text.split_ne_nil '.' rest)
  rw [ofCanonical, ofCanonical, hsplit, List.findIdx?_cons, hcapital]
  cases hfound : (Text.split '.' rest).findIdx? isCapitalized with
  | some i => exact ⟨i, (List.findIdx?_eq_some_iff_findIdx_eq.mp hfound).1, rfl, rfl⟩
  | none => exact ⟨others.length, by simp [hrest], by simp [hrest], by simp [hrest]⟩

/-- A class has a canonical name with a package only by that name itself: the dot that a name may
lose stands in front of one without a package. -/
theorem eq_of_canonical_ofCanonical {name canonical : String}
    (h : (ofCanonical name).canonical = canonical)
    (hpackage : (ofCanonical canonical).package ≠ "") : name = canonical := by
  by_cases hdot : Text.beginsWith "." name = true
  · obtain ⟨cs, hcs⟩ := List.isPrefixOf_iff_prefix.mp hdot
    obtain ⟨rest, rfl⟩ : ∃ rest, name = "." ++ rest :=
      ⟨String.ofList cs, by rw [← String.toList_inj, ← hcs]; simp⟩
    have hjoin : Text.joinWith "." (Text.split '.' rest) = rest := Text.joinWith_split '.' rest
    obtain ⟨cut, hcut, hrest, hname⟩ := exists_cut_ofCanonical_dot rest
    rw [hname] at h
    cases cut with
    | zero =>
      -- the canonical name is what stands behind the dot
      have hcanonical : rest = canonical := hjoin.symm.trans h
      rw [← hcanonical, hrest] at hpackage
      exact absurd rfl hpackage
    | succ cut =>
      obtain ⟨first, others, hsplit⟩ := List.exists_cons_of_ne_nil (Text.split_ne_nil '.' rest)
      have hdrop : (Text.split '.' rest).drop (cut + 1) ≠ [] := by simpa using hcut
      rw [canonical_cut _ hdrop, List.cons_append, List.take_append_drop, hsplit, Text.joinWith,
        ← hsplit, hjoin, String.empty_append] at h
      · exact h
      · simp [hsplit, Text.joinWith]
  · rw [Bool.not_eq_true] at hdot
    rw [← h, canonical_ofCanonical hdot]

/-- The simple name of a class by its canonical name is the last part of that. -/
theorem simpleName_ofCanonical (name : String) :
    (ofCanonical name).simpleName = Text.afterLast '.' name := by
  obtain ⟨cut, hcut, hof⟩ := exists_cut_ofCanonical name
  rw [simpleName, hof, List.getLast?_drop, if_neg (Nat.not_le.mpr hcut), Text.getLast?_split,
    Option.getD_some]

/-- A class by its package and a name that continues the package has that name. -/
theorem canonical_inPackage_of_relative {package name relative : String}
    (h : relative? package name = some relative) (hne : relative ≠ "") :
    (inPackage package name).canonical = name := by
  have hempty : relative.isEmpty = false := String.isEmpty_eq_false_iff.mpr hne
  have hjoin : Text.joinWith "." (Text.split '.' relative) = relative :=
    Text.joinWith_split '.' relative
  rw [inPackage, h]
  simp only [hempty, Bool.false_eq_true, if_false, canonical, hjoin]
  rw [relative?] at h
  split at h
  · next hpackage =>
    rw [if_pos hpackage]
    exact (Option.some.inj h).symm
  · next hpackage =>
    rw [if_neg hpackage, Text.eq_append_of_after? h]

/-- A class by its package and canonical name has that name, even if it is in another package. -/
theorem canonical_inPackage (package : String) {name : String}
    (h : Text.beginsWith "." name = false) : (inPackage package name).canonical = name := by
  cases hrelative : relative? package name with
  | none =>
    rw [inPackage, hrelative]
    exact canonical_ofCanonical h
  | some relative =>
    by_cases hempty : relative = ""
    · rw [inPackage, hrelative, hempty]
      exact canonical_ofCanonical h
    · exact canonical_inPackage_of_relative hrelative hempty

/-! ### Characters -/

theorem exists_mem_of_mem_simpleName {c : ClassName} {character : Char}
    (h : character ∈ c.simpleName.toList) : ∃ name ∈ c.simpleNames, character ∈ name.toList := by
  rw [simpleName] at h
  cases hlast : c.simpleNames.getLast? with
  | none =>
    rw [hlast] at h
    simp at h
  | some last =>
    rw [hlast] at h
    exact ⟨last, List.mem_of_getLast? hlast, h⟩

/-- Neither the package nor the simple name of a class by its canonical name has characters, except
for dots, that this name does not have. -/
theorem not_mem_ofCanonical {name : String} {c : Char} (hdot : c ≠ '.') (h : c ∉ name.toList) :
    c ∉ (ofCanonical name).package.toList ∧ c ∉ (ofCanonical name).simpleName.toList := by
  constructor
  · intro hc
    rcases Text.mem_of_mem_joinWith hc with hsep | ⟨piece, hpiece, hc⟩
    · exact hdot (by simpa using hsep)
    · exact h (Text.mem_of_mem_split (List.mem_of_mem_take hpiece) hc)
  · intro hc
    obtain ⟨piece, hpiece, hc⟩ := exists_mem_of_mem_simpleName hc
    exact h (Text.mem_of_mem_split (List.mem_of_mem_drop hpiece) hc)

/-- The same of a class by its package and canonical name: it is in that package only if its name
says so. -/
theorem not_mem_inPackage {package name : String} {c : Char} (hdot : c ≠ '.')
    (h : c ∉ name.toList) : c ∉ (inPackage package name).package.toList ∧
      c ∉ (inPackage package name).simpleName.toList := by
  rw [inPackage]
  split
  · next relative hrelative =>
    split
    · exact not_mem_ofCanonical hdot h
    · have hparts : c ∉ package.toList ∧ c ∉ relative.toList := by
        rw [relative?] at hrelative
        split at hrelative
        · next hpackage =>
          obtain rfl := Option.some.inj hrelative
          obtain rfl : package = "" := by simpa using hpackage
          exact ⟨by simp, h⟩
        · rw [Text.eq_append_of_after? hrelative] at h
          simp only [String.toList_append, List.mem_append, not_or] at h
          exact ⟨h.1.1, h.2⟩
      refine ⟨hparts.1, fun hc => ?_⟩
      obtain ⟨piece, hpiece, hc⟩ := exists_mem_of_mem_simpleName hc
      exact hparts.2 (Text.mem_of_mem_split hpiece hc)
  · exact not_mem_ofCanonical hdot h

end Source.ClassName

end DataClassGen
