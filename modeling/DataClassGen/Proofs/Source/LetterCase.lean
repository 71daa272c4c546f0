import DataClassGen.Source.Name
import Mathlib.Data.List.Basic
import Mathlib.Data.String.Basic

/-!
# The case of the first letter

A name comes from another by changing the case of its first letter. Going to one case and back
gives the name again just when its first letter is the one that comes back: the small letter of its
capital (`lowercaseFirst_capitalize_iff`), or the capital of its small letter
(`capitalize_lowercaseFirst_iff`). In ASCII only the capitals, or only the small letters, do not
come back. Elsewhere there are more of them: the capital of `ß` is `SS`, and the Kelvin sign has the
small letter of `K`.

A name that begins with two capitals is decapitalized to itself. If the first is one of ASCII, the
name comes back all the same (`capitalize_decapitalize`), so that no two such names are decapitalized
to one.
-/

namespace DataClassGen

namespace Text

/-! ### Characters -/

theorem mapped_ne_nil {sequences : List (Nat × List Nat)}
    (hsequences : ∀ entry ∈ sequences, entry.2 ≠ []) (runs : List (Nat × Nat × Nat × Int))
    (c : Char) : mapped sequences runs c ≠ [] := by
  unfold mapped
  split
  · next sequence hsequence =>
    obtain ⟨before, after, heq, -⟩ := List.lookup_eq_some_iff.mp hsequence
    simpa using hsequences (c.toNat, sequence) (by simp [heq])
  · split <;> simp

theorem lower_ne_nil (c : Char) : lower c ≠ [] := by
  unfold lower
  split
  · simp
  · exact mapped_ne_nil (by decide) lowerRuns c

theorem upper_ne_nil (c : Char) : upper c ≠ [] := by
  unfold upper
  split
  · simp
  · exact mapped_ne_nil (by decide) upperRuns c

/-- The character is the small letter of its capital. So is one that has no case. -/
def isLowerOfUpper (c : Char) : Bool :=
  match upper c with
  | [capital] => lower capital == [c]
  | _ => false

/-- The character is the capital of its small letter. So is one that has no case. -/
def isUpperOfLower (c : Char) : Bool :=
  match lower c with
  | [small] => upper small == [c]
  | _ => false

theorem isLowerOfUpper_iff {c capital : Char} {others : List Char}
    (h : upper c = capital :: others) :
    isLowerOfUpper c = true ↔ lower capital = [c] ∧ others = [] := by
  cases others <;> simp [isLowerOfUpper, h]

theorem isUpperOfLower_iff {c small : Char} {others : List Char}
    (h : lower c = small :: others) :
    isUpperOfLower c = true ↔ upper small = [c] ∧ others = [] := by
  cases others <;> simp [isUpperOfLower, h]

/-- Code point by code point, which letters of ASCII come back from the other case. -/
theorem ascii_cases : ∀ n < 128,
    isLowerOfUpper (Char.ofNat n) = !isAsciiCapital (Char.ofNat n) ∧
      isUpperOfLower (Char.ofNat n) = !isAsciiSmall (Char.ofNat n) := by
  decide

theorem isLowerOfUpper_ascii {c : Char} (hc : c.toNat < 128) :
    isLowerOfUpper c = !isAsciiCapital c := by
  have h := (ascii_cases c.toNat hc).1
  rwa [Char.ofNat_toNat] at h

theorem isUpperOfLower_ascii {c : Char} (hc : c.toNat < 128) :
    isUpperOfLower c = !isAsciiSmall c := by
  have h := (ascii_cases c.toNat hc).2
  rwa [Char.ofNat_toNat] at h

theorem isCapital_of_isAsciiCapital {c : Char} (h : isAsciiCapital c = true) :
    isCapital c = true := by
  have hrange := h
  simp only [isAsciiCapital, Bool.and_eq_true, decide_eq_true_eq] at hrange
  rw [isCapital, if_pos (by omega), h]

/-- A capital of ASCII has no other capital, and is the capital of its small letter. -/
theorem case_of_isAsciiCapital {c : Char} (h : isAsciiCapital c = true) :
    upper c = [c] ∧ isUpperOfLower c = true := by
  have hrange := h
  simp only [isAsciiCapital, Bool.and_eq_true, decide_eq_true_eq] at hrange
  have hsmall : isAsciiSmall c = false := by
    simp only [isAsciiSmall, Bool.and_eq_false_iff, decide_eq_false_iff_not]
    omega
  constructor
  · rw [upper, if_pos (by omega), hsmall]
    rfl
  · rw [isUpperOfLower_ascii (by omega), hsmall]
    rfl

end Text

namespace Source

/-! ### Texts -/

/-- The text is empty, or its first letter is the small letter of its capital. -/
def startsLower (s : String) : Bool := s.toList.head?.all Text.isLowerOfUpper

/-- The text is empty, or its first letter is the capital of its small letter. -/
def startsUpper (s : String) : Bool := s.toList.head?.all Text.isUpperOfLower

/-- The text begins with a capital of ASCII. -/
def startsAsciiCapital (s : String) : Bool := s.toList.head?.any Text.isAsciiCapital

/-- A text is empty, or a first letter with the rest behind it. -/
theorem eq_empty_or_cons (s : String) :
    s = "" ∨ ∃ first rest, s = String.ofList (first :: rest) := by
  cases h : s.toList with
  | nil => exact Or.inl (String.toList_eq_nil_iff.mp h)
  | cons first rest => exact Or.inr ⟨first, rest, by rw [← h, String.ofList_toList]⟩

@[simp] theorem startsLower_cons (first : Char) (rest : List Char) :
    startsLower (String.ofList (first :: rest)) = Text.isLowerOfUpper first := by
  simp [startsLower]

@[simp] theorem startsUpper_cons (first : Char) (rest : List Char) :
    startsUpper (String.ofList (first :: rest)) = Text.isUpperOfLower first := by
  simp [startsUpper]

@[simp] theorem startsAsciiCapital_cons (first : Char) (rest : List Char) :
    startsAsciiCapital (String.ofList (first :: rest)) = Text.isAsciiCapital first := by
  simp [startsAsciiCapital]

theorem capitalize_cons (first : Char) (rest : List Char) :
    capitalize (String.ofList (first :: rest)) = String.ofList (Text.upper first ++ rest) := by
  simp [capitalize]

theorem lowercaseFirst_cons (first : Char) (rest : List Char) :
    lowercaseFirst (String.ofList (first :: rest)) = String.ofList (Text.lower first ++ rest) := by
  simp [lowercaseFirst]

/-- A letter that became several in the other case does not come back. -/
theorem ofList_eq_iff_of_ne_nil {first : Char} {changed others rest : List Char}
    (h : changed ≠ []) : String.ofList (changed ++ (others ++ rest)) =
      String.ofList (first :: rest) ↔ changed = [first] ∧ others = [] := by
  rw [String.ofList_inj, ← List.append_assoc, ← List.singleton_append, List.append_left_inj]
  constructor
  · intro heq
    obtain ⟨c, cs, rfl⟩ := List.exists_cons_of_ne_nil h
    simp only [List.cons_append, List.cons.injEq, List.append_eq_nil_iff] at heq
    obtain ⟨rfl, rfl, rfl⟩ := heq
    exact ⟨rfl, rfl⟩
  · rintro ⟨rfl, rfl⟩
    rfl

theorem lowercaseFirst_capitalize_iff (s : String) :
    lowercaseFirst (capitalize s) = s ↔ startsLower s = true := by
  rcases eq_empty_or_cons s with rfl | ⟨first, rest, rfl⟩
  · decide
  · obtain ⟨capital, others, hupper⟩ := List.exists_cons_of_ne_nil (Text.upper_ne_nil first)
    rw [capitalize_cons, hupper, List.cons_append, lowercaseFirst_cons,
      ofList_eq_iff_of_ne_nil (Text.lower_ne_nil capital), startsLower_cons,
      Text.isLowerOfUpper_iff hupper]

theorem capitalize_lowercaseFirst_iff (s : String) :
    capitalize (lowercaseFirst s) = s ↔ startsUpper s = true := by
  rcases eq_empty_or_cons s with rfl | ⟨first, rest, rfl⟩
  · decide
  · obtain ⟨small, others, hlower⟩ := List.exists_cons_of_ne_nil (Text.lower_ne_nil first)
    rw [lowercaseFirst_cons, hlower, List.cons_append, capitalize_cons,
      ofList_eq_iff_of_ne_nil (Text.upper_ne_nil small), startsUpper_cons,
      Text.isUpperOfLower_iff hlower]

/-- A text that becomes a name by making its first letter small is that name with a capital just
when its first letter comes back. -/
theorem eq_capitalize_iff {s name : String} (h : lowercaseFirst s = name) :
    s = capitalize name ↔ startsUpper s = true := by
  rw [← capitalize_lowercaseFirst_iff, h, eq_comm]

/-- A name with a capital becomes that name by making its first letter small just when the first
letter of the name comes back. -/
theorem lowercaseFirst_eq_iff {s name : String} (h : s = capitalize name) :
    lowercaseFirst s = name ↔ startsLower name = true := by
  rw [← lowercaseFirst_capitalize_iff, h]

/-- Of the names that begin with a character of ASCII, those with a capital do not come back. -/
theorem startsLower_ascii {s : String} (h : ∀ c ∈ s.toList.head?, c.toNat < 128) :
    startsLower s = !startsAsciiCapital s := by
  rcases eq_empty_or_cons s with rfl | ⟨first, rest, rfl⟩
  · rfl
  · rw [startsLower_cons, startsAsciiCapital_cons]
    exact Text.isLowerOfUpper_ascii (h first (by simp))

theorem startsUpper_of_startsAsciiCapital {s : String} (h : startsAsciiCapital s = true) :
    startsUpper s = true := by
  rcases eq_empty_or_cons s with rfl | ⟨first, rest, rfl⟩
  · rfl
  · rw [startsAsciiCapital_cons] at h
    rw [startsUpper_cons]
    exact (Text.case_of_isAsciiCapital h).2

/-- Decapitalizing is undone by capitalizing, whether the name began with two capitals or not. -/
theorem capitalize_decapitalize {s : String} (h : startsAsciiCapital s = true) :
    capitalize (decapitalize s) = s := by
  have hlowered : capitalize (lowercaseFirst s) = s :=
    (capitalize_lowercaseFirst_iff s).mpr (startsUpper_of_startsAsciiCapital h)
  rcases eq_empty_or_cons s with rfl | ⟨first, rest, rfl⟩
  · cases h
  · rw [startsAsciiCapital_cons] at h
    unfold decapitalize
    split
    · split
      · rw [capitalize_cons, (Text.case_of_isAsciiCapital h).1]
        rfl
      · exact hlowered
    · exact hlowered

theorem decapitalize_inj {s t : String} (hs : startsAsciiCapital s = true)
    (ht : startsAsciiCapital t = true) : decapitalize s = decapitalize t ↔ s = t := by
  refine ⟨fun h => ?_, congrArg decapitalize⟩
  rw [← capitalize_decapitalize hs, h, capitalize_decapitalize ht]

theorem lowercaseFirst_ne_empty {s : String} (h : s ≠ "") : lowercaseFirst s ≠ "" := by
  rcases eq_empty_or_cons s with rfl | ⟨first, rest, rfl⟩
  · exact absurd rfl h
  · rw [lowercaseFirst_cons]
    simp [Text.lower_ne_nil]

theorem decapitalize_ne_empty {s : String} (h : s ≠ "") : decapitalize s ≠ "" := by
  unfold decapitalize
  split
  · split
    · exact h
    · exact lowercaseFirst_ne_empty h
  · exact lowercaseFirst_ne_empty h

end Source

end DataClassGen
