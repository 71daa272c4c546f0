import DataClassGen.Source.Writer

/-!
# Cleaning up source texts

The last touch to a written file, line by line: imports go that Kotlin makes by itself, an
explicit `public` in front of a line goes, lines of blanks become empty, and of several empty
lines in a row, as of all at the ends of the file, none or one is left. A text that is not empty
ends with one line feed.
-/

namespace DataClassGen.Source

/-- Imports that would hide a built-in class of Kotlin. -/
def intrinsicImports : List String :=
  ["import java.lang.String", "import java.lang.CharSequence", "import java.lang.Boolean",
    "import java.lang.Byte", "import java.lang.Short", "import java.lang.Char",
    "import java.lang.Int", "import java.lang.Float", "import java.lang.Double",
    "import java.lang.Object", "import java.util.Map", "import java.util.List",
    "import java.util.Set", "import java.util.Collection"]

/-- The import of a class of the package `kotlin` itself, which needs none. -/
def isBuiltinImport (line : String) : Bool :=
  match Text.after? "import kotlin." line with
  | none => false
  | some name =>
    match name.toList with
    | [] => false
    | first :: rest => Text.isAsciiCapital first && rest.all fun c => Text.isAsciiWord c || c == '_'

/-- The import of a class of the package itself. -/
def isOwnImport (package line : String) : Bool :=
  !package.isEmpty &&
    match Text.after? ("import " ++ package ++ ".") line with
    | none => false
    | some name => !name.toList.contains '.'

/-- The line imports what is visible without it. Blanks at its end do not count. -/
def isRedundantImport (package : String) (line : List Char) : Bool :=
  let line := String.ofList (Text.trimRight line)
  Text.beginsWith "import " line &&
    (intrinsicImports.contains line || isBuiltinImport line || isOwnImport package line)

/-- Without the words `public` in front, and without the blanks behind each of them. -/
def dropPublic (cs : List Char) : List Char :=
  match _h : "public ".toList.isPrefixOf? cs with
  | none => cs
  | some rest => dropPublic (Text.trimLeft rest)
termination_by cs.length
decreasing_by
  have hdrop : (Text.trimLeft rest).length ≤ rest.length :=
    (List.dropWhile_suffix _).length_le
  have hlen := congrArg List.length (Text.eq_append_of_isPrefixOf? _h)
  rw [List.length_append, show "public ".toList.length = 7 from rfl] at hlen
  omega

/-- A line without explicit `public` behind its indentation, and empty if it has only blanks. -/
def cleanLine (line : List Char) : List Char :=
  let indent := line.takeWhile Text.isBlank
  let cleaned := indent ++ dropPublic (Text.trimLeft line)
  if Text.isBlankLine cleaned then [] else cleaned

/-- Lines without the empty ones that follow an empty one; `afterEmpty` if the line above is
empty, or there is none. -/
def mergeEmpty : Bool → List (List Char) → List (List Char)
  | _, [] => []
  | afterEmpty, line :: lines =>
    if line.isEmpty then
      if afterEmpty then mergeEmpty true lines else [] :: mergeEmpty true lines
    else line :: mergeEmpty false lines

/-- Lines without the empty ones at the end. -/
def dropEmptyEnd (lines : List (List Char)) : List (List Char) :=
  (lines.reverse.dropWhile (·.isEmpty)).reverse

/-- The lines that are left of a text. -/
def cleanLines (package : String) (text : List Char) : List (List Char) :=
  dropEmptyEnd (mergeEmpty true
    (((Text.lines text).filter fun line => !isRedundantImport package line).map cleanLine))

/-- The text of a file of this package, cleaned up. -/
def clean (package text : String) : String :=
  String.ofList ((cleanLines package text.toList).flatMap fun line => line ++ ['\n'])

namespace SourceFile

/-- The text of the file as it goes out: written, then cleaned up. -/
def emit (file : SourceFile) : String := clean file.package file.render

end SourceFile

end DataClassGen.Source
