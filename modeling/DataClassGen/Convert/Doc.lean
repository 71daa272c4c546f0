import DataClassGen.Text.Blank
import DataClassGen.Text.Letter
import DataClassGen.Text.Split

/-!
# Doc comments

From the text of a doc comment with tags and markup to one in Markdown: emphasis and paragraphs,
code, and links to classes and members, whose `#` becomes a dot. Then blanks at the ends of lines
go, and with them the lines that have nothing else; so does a first blank run before an `@`,
along with it.
-/

namespace DataClassGen.Doc

/-! ### Rewriting -/

/-- How a piece of text is rewritten, if one begins where the characters do: what it becomes, and
what follows it. -/
abbrev Rule := List Char → Option (List Char × List Char)

/-- Every piece rewritten, from left to right and without overlap; `skip` characters of the piece
last rewritten are still to be passed over. -/
def rewriting (rule : Rule) : Nat → List Char → List Char
  | _, [] => []
  | skip + 1, _ :: cs => rewriting rule skip cs
  | 0, c :: cs =>
    match rule (c :: cs) with
    | some (new, rest) => new ++ rewriting rule (cs.length - rest.length) cs
    | none => c :: rewriting rule 0 cs

/-- Every piece rewritten. -/
def Rule.apply (rule : Rule) (cs : List Char) : List Char := rewriting rule 0 cs

/-- A character of the target of a link. -/
def isTargetChar (c : Char) : Bool := Text.isAsciiWord c || c == '.' || c == '_'

/-- The target of a link in front, perhaps empty, up to the character `closing`, and what follows
that. -/
def target? (closing : Char) (cs : List Char) : Option (List Char × List Char) :=
  match cs.dropWhile isTargetChar with
  | c :: rest => if c = closing then some (cs.takeWhile isTargetChar, rest) else none
  | [] => none

/-- What follows `start`. -/
def after? (start : String) (cs : List Char) : Option (List Char) :=
  start.toList.isPrefixOf? cs

/-- Code between backticks. -/
def code : Rule := fun cs => do
  let (name, rest) ← target? '\x7d' (← after? "\x7b@code " cs)
  return ('\x60' :: name ++ ['\x60'], rest)

/-- A link to a class. -/
def link : Rule := fun cs => do
  let (name, rest) ← target? '\x7d' (← after? "\x7b@link " cs)
  return ('[' :: name ++ [']'], rest)

/-- A link to a member of a class. -/
def memberLink : Rule := fun cs => do
  let (name, rest) ← target? '#' (← after? "\x7b@link " cs)
  let (member, rest) ← target? '\x7d' rest
  return ('[' :: name ++ '.' :: member ++ [']'], rest)

/-- A link to a class with a label. -/
def labelledLink : Rule := fun cs => do
  let (name, rest) ← target? ' ' (← after? "\x7b@linkplain " cs)
  let (label, rest) ← target? '\x7d' rest
  return ('[' :: label ++ ']' :: '[' :: name ++ [']'], rest)

/-- A link to a member of a class with a label. -/
def labelledMemberLink : Rule := fun cs => do
  let (name, rest) ← target? '#' (← after? "\x7b@linkplain " cs)
  let (member, rest) ← target? ' ' rest
  let (label, rest) ← target? '\x7d' rest
  return ('[' :: label ++ ']' :: '[' :: name ++ '.' :: member ++ [']'], rest)

/-- The lines without the blank in front that each of them may have, and with the plainest markup
replaced. -/
def unwrapped (cs : List Char) : List Char :=
  let lines := (Text.lines cs).map fun
    | ' ' :: rest => rest
    | line => line
  let text := (Text.joinWith "\n" (lines.map String.ofList)).toList
  Text.replaceAll "   *" " *" (Text.replaceAll "<p>" "" (Text.replaceAll "</em>" "*"
    (Text.replaceAll "<em>" "*" text)))

/-- The text with its tags replaced. -/
def translated (cs : List Char) : List Char :=
  labelledMemberLink.apply (labelledLink.apply (memberLink.apply (link.apply (code.apply cs))))

/-! ### Blanks -/

/-- A blank stays in front of `cs` if something other than blanks follows, and no line feed before
that. -/
def staysBefore (cs : List Char) : Bool :=
  !Text.isBlankLine cs && !(cs.takeWhile Text.isBlank).contains '\n'

/-- Without the blanks that end a line, the line feeds among them: of a run of blanks only what
follows its last line feed is left, and that line feed. -/
def withoutLineEnds : List Char → List Char
  | [] => []
  | c :: cs =>
    if Text.isBlank c && !staysBefore cs then withoutLineEnds cs else c :: withoutLineEnds cs

/-- Without blanks and an `@` in front, if there is at least one blank. -/
def withoutTagStart (cs : List Char) : List Char :=
  match cs.takeWhile Text.isBlank, cs.dropWhile Text.isBlank with
  | _ :: _, '@' :: rest => rest
  | _, _ => cs

/-- The doc comment in Markdown. -/
def clean (doc : String) : String :=
  String.ofList (Text.trimBoth (withoutTagStart (withoutLineEnds
    (translated (unwrapped doc.toList)))))

/-- The doc comment in Markdown, unless nothing is left of it. -/
def clean? (doc : Option String) : Option String :=
  (doc.map clean).filter (!·.isEmpty)

end DataClassGen.Doc
