/-!
# Splitting and joining

A text cut at every occurrence of a character, cut into lines, joined with a separator, freed
of a given beginning or end, and with one sequence of characters replaced by another. Each
operation is defined on lists of characters; the operations on `String` wrap those.
-/

namespace DataClassGen.Text

/-! ### Cutting at a character -/

/-- The pieces between the occurrences of `sep`: one more piece than there are occurrences. -/
def cut (sep : Char) : List Char → List (List Char)
  | [] => [[]]
  | c :: cs =>
    if c = sep then [] :: cut sep cs
    else
      match cut sep cs with
      | [] => [[c]]
      | piece :: pieces => (c :: piece) :: pieces

theorem cut_ne_nil (sep : Char) (cs : List Char) : cut sep cs ≠ [] := by
  cases cs with
  | nil => simp [cut]
  | cons c cs =>
    by_cases h : c = sep
    · simp [cut, h]
    · simp only [cut, h, if_false]
      split <;> simp

/-- The pieces of a text between the occurrences of `sep`. -/
def split (sep : Char) (s : String) : List String := (cut sep s.toList).map String.ofList

/-- The texts one after the other, with `sep` between neighbours. -/
def joinWith (sep : String) : List String → String
  | [] => ""
  | [s] => s
  | s :: t :: rest => s ++ sep ++ joinWith sep (t :: rest)

/-- The texts one after the other. -/
def concat (texts : List String) : String := joinWith "" texts

/-- The text before the first `sep` and the text after it. -/
def cutFirst? (sep : Char) (s : String) : Option (String × String) :=
  match s.toList.span (· != sep) with
  | (before, _ :: after) => some (String.ofList before, String.ofList after)
  | (_, []) => none

/-- The text after the last `sep`; the whole text if there is none. -/
def afterLast (sep : Char) (s : String) : String :=
  String.ofList ((s.toList.reverse.takeWhile (· != sep)).reverse)

/-! ### Lines -/

/-- Without the carriage return at the end, if there is one. -/
def dropReturn (line : List Char) : List Char :=
  if line.getLast? = some '\r' then line.dropLast else line

/-- The lines of a text. A line ends with a line feed, or with a carriage return and a line
feed; what follows the last line feed is a line of its own unless it is empty. -/
def lines (cs : List Char) : List (List Char) :=
  let pieces := cut '\n' cs
  let ended := pieces.dropLast.map dropReturn
  match pieces.getLast? with
  | none | some [] => ended
  | some rest => ended ++ [rest]

/-- The lines of a text, as texts. -/
def textLines (s : String) : List String := (lines s.toList).map String.ofList

/-! ### Beginnings, ends and middles -/

/-- What is left behind a beginning makes up the whole together with it. -/
theorem eq_append_of_isPrefixOf? {start cs rest : List Char}
    (h : start.isPrefixOf? cs = some rest) : cs = start ++ rest := by
  induction start generalizing cs with
  | nil => exact Option.some.inj h
  | cons c start ih =>
    cases cs with
    | nil => cases h
    | cons d cs =>
      have h : (if c == d then start.isPrefixOf? cs else none) = some rest := h
      split at h
      · next hcd => simp [beq_iff_eq.1 hcd, ih h]
      · simp at h

/-- What follows `start` in the text, if the text begins with it. -/
def after? (start s : String) : Option String :=
  (start.toList.isPrefixOf? s.toList).map String.ofList

/-- What precedes `ending` in the text, if the text ends with it. -/
def before? (ending s : String) : Option String :=
  (ending.toList.reverse.isPrefixOf? s.toList.reverse).map fun rest => String.ofList rest.reverse

/-- The text begins with `start`. -/
def beginsWith (start s : String) : Bool := start.toList.isPrefixOf s.toList

/-- `part` occurs in the characters. -/
def occursIn (part : List Char) : List Char → Bool
  | [] => part.isEmpty
  | c :: cs => part.isPrefixOf (c :: cs) || occursIn part cs

/-- `part` occurs in the text. -/
def hasPart (part s : String) : Bool := occursIn part.toList s.toList

/-- `old` replaced by `new`, from left to right and without overlap; `skip` characters of the
occurrence last replaced are still to be passed over. -/
def replacing (old new : List Char) : Nat → List Char → List Char
  | _, [] => []
  | skip + 1, _ :: cs => replacing old new skip cs
  | 0, c :: cs =>
    if old.isPrefixOf (c :: cs) then new ++ replacing old new (old.length - 1) cs
    else c :: replacing old new 0 cs

/-- `old` replaced by `new` throughout, for an `old` that is not empty. -/
def replaceAll (old new : String) (cs : List Char) : List Char :=
  replacing old.toList new.toList 0 cs

end DataClassGen.Text
