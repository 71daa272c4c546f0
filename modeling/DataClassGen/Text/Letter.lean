import DataClassGen.Text.CaseTable
import DataClassGen.Text.LetterTable

/-!
# Letters, numbers and their case

Which characters are letters, numbers or capitals, and the other case of a letter, for all of
Unicode. Below code point 128 the answers are given by the ranges of the ASCII letters and
digits; above it, by the tables. The uppercase of a character can be a sequence (`ß` becomes
`SS`), so the case mappings give a list.
-/

namespace DataClassGen.Text

/-! ### Table look-up -/

/-- `n` lies in one of the ranges. -/
def inRanges (ranges : List (Nat × Nat)) (n : Nat) : Bool :=
  ranges.any fun (first, last) => first ≤ n && n ≤ last

/-- `n` lies on one of the runs. -/
def inRuns (runs : List (Nat × Nat × Nat)) (n : Nat) : Bool :=
  runs.any fun (first, last, step) => first ≤ n && n ≤ last && (n - first) % step == 0

/-- The code point that the first run through `n` maps it to. -/
def shifted? (runs : List (Nat × Nat × Nat × Int)) (n : Nat) : Option Nat :=
  runs.findSome? fun (first, last, step, by') =>
    if first ≤ n && n ≤ last && (n - first) % step == 0 then some ((n : Int) + by').toNat else none

/-- The other case of a code point: its sequence, else its single image, else itself. -/
def mapped (sequences : List (Nat × List Nat)) (runs : List (Nat × Nat × Nat × Int))
    (c : Char) : List Char :=
  match sequences.lookup c.toNat with
  | some sequence => sequence.map Char.ofNat
  | none =>
    match shifted? runs c.toNat with
    | some n => [Char.ofNat n]
    | none => [c]

/-! ### Classes of characters -/

/-- A letter from `A` to `Z`. -/
def isAsciiCapital (c : Char) : Bool := 65 ≤ c.toNat && c.toNat ≤ 90

/-- A letter from `a` to `z`. -/
def isAsciiSmall (c : Char) : Bool := 97 ≤ c.toNat && c.toNat ≤ 122

/-- A digit from `0` to `9`. -/
def isAsciiDigit (c : Char) : Bool := 48 ≤ c.toNat && c.toNat ≤ 57

/-- A letter or digit of ASCII. -/
def isAsciiWord (c : Char) : Bool := isAsciiCapital c || isAsciiSmall c || isAsciiDigit c

/-- The character is alphabetic. -/
def isLetter (c : Char) : Bool :=
  if c.toNat < 128 then isAsciiCapital c || isAsciiSmall c else inRanges alphabeticRanges c.toNat

/-- The character is a digit, a letter number or another number. -/
def isNumber (c : Char) : Bool :=
  if c.toNat < 128 then isAsciiDigit c else inRanges numberRanges c.toNat

/-- The character is uppercase. -/
def isCapital (c : Char) : Bool :=
  if c.toNat < 128 then isAsciiCapital c else inRuns uppercaseRuns c.toNat

/-! ### Case mappings -/

/-- The uppercase of a character. -/
def upper (c : Char) : List Char :=
  if c.toNat < 128 then [if isAsciiSmall c then Char.ofNat (c.toNat - 32) else c]
  else mapped upperSequences upperRuns c

/-- The lowercase of a character. -/
def lower (c : Char) : List Char :=
  if c.toNat < 128 then [if isAsciiCapital c then Char.ofNat (c.toNat + 32) else c]
  else mapped lowerSequences lowerRuns c

/-- The text with its ASCII capitals made small, and all else kept. -/
def asciiLower (s : String) : String :=
  String.ofList (s.toList.map fun c =>
    if isAsciiCapital c then Char.ofNat (c.toNat + 32) else c)

end DataClassGen.Text
