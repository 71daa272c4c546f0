/-!
# Blanks

The characters with the property White_Space, and a text without the blanks at its ends. A
text is trimmed as the list of its characters; the operations on `String` wrap those.
-/

namespace DataClassGen.Text

/-- The character has the property White_Space. -/
def isBlank (c : Char) : Bool :=
  let n := c.toNat
  (9 ≤ n && n ≤ 13) || n == 0x20 || n == 0x85 || n == 0xA0 || n == 0x1680 ||
    (0x2000 ≤ n && n ≤ 0x200A) || n == 0x2028 || n == 0x2029 || n == 0x202F || n == 0x205F ||
    n == 0x3000

/-- Every blank of ASCII in the narrow sense is a blank. -/
theorem isBlank_of_isWhitespace {c : Char} (h : c.isWhitespace = true) : isBlank c = true := by
  simp only [Char.isWhitespace, Bool.or_eq_true, decide_eq_true_eq] at h
  rcases h with ((h | h) | h) | h <;> subst h <;> decide

/-- Without the blanks in front. -/
def trimLeft (cs : List Char) : List Char := cs.dropWhile isBlank

/-- Without the blanks at the end. -/
def trimRight (cs : List Char) : List Char := (cs.reverse.dropWhile isBlank).reverse

/-- Without the blanks at both ends. -/
def trimBoth (cs : List Char) : List Char := trimRight (trimLeft cs)

/-- Only blanks, or nothing at all. -/
def isBlankLine (cs : List Char) : Bool := cs.all isBlank

/-- The text without the blanks in front. -/
def trimStart (s : String) : String := String.ofList (trimLeft s.toList)

/-- The text without the blanks at its ends. -/
def trim (s : String) : String := String.ofList (trimBoth s.toList)

/-- The text has nothing but blanks. -/
def isBlankText (s : String) : Bool := isBlankLine s.toList

end DataClassGen.Text
