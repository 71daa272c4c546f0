import DataClassGen.Keyed
import DataClassGen.Source.Layout

/-!
# Writing source files

The text of a source file. A class of the file's own package is referred to by its names from the
innermost type on that it shares with the place of the reference. Of another package it is
referred to by its simple names, and its outermost class is imported; but if a type declared in
the file has the name of that outermost class, or an earlier reference has taken the name for
another import, the reference is the canonical name. Since the first class to want a name gets
it, the imports of the whole file decide how a reference is written, wherever it stands.
-/

namespace DataClassGen.Source

/-! ### Imports -/

/-- The imported top-level classes, by their simple names. -/
abbrev Imports := List (String × ClassName)

/-- What a reference is written against: the package of the file, the names of the types declared
in it, and its imports. -/
structure Names where
  package : String
  declared : List String
  imports : Imports

/-- A class that has to be imported to be referred to by its simple names. -/
def isForeign (package : String) (cls : ClassName) : Bool :=
  cls.package != package && !cls.package.isEmpty

/-- The imports after a class has had its turn. -/
def Imports.afterTurn (package : String) (declared : List String) (imports : Imports)
    (cls : ClassName) : Imports :=
  let top := cls.topLevel
  if isForeign package cls && !declared.contains top.simpleName &&
      (imports.lookup top.simpleName).isNone then
    insertByKey top.simpleName top imports
  else imports

/-- The classes that take their turns in a line, in order. -/
def Line.turns (line : Line) : List ClassName :=
  line.pieces.filterMap fun
    | .text _ => none
    | .reference _ cls | .turn cls => some cls

namespace SourceFile

/-- The classes that take their turns for an import, in order. -/
def turns (file : SourceFile) : List ClassName := file.layout.flatMap Line.turns

/-- The imports of the file. -/
def imports (file : SourceFile) : Imports :=
  file.turns.foldl (Imports.afterTurn file.package file.root.declaredNames) []

/-- What the references of the file are written against. -/
def names (file : SourceFile) : Names :=
  ⟨file.package, file.root.declaredNames, file.imports⟩

end SourceFile

/-! ### References -/

/-- How many names the two lists share at their beginnings, `limit` at most. -/
def sharedCount : Nat → List String → List String → Nat
  | limit + 1, a :: as, b :: bs => if a = b then sharedCount limit as bs + 1 else 0
  | _, _, _ => 0

/-- The names of a class of the file's own package, as they are seen from within the types of the
names in `scope`: without those that it shares with them, its own name always kept. -/
def relativeNames (scope names : List String) : List String :=
  names.drop (sharedCount (names.length - 1) names scope)

/-- The text of a reference from within the types of the names in `scope`. -/
def Names.reference (context : Names) (scope : List String) (cls : ClassName) : String :=
  if cls.package = context.package then dotted (relativeNames scope cls.simpleNames)
  else if cls.package.isEmpty then dotted cls.simpleNames
  else if context.declared.contains cls.topLevel.simpleName then cls.canonical
  else if context.imports.lookup cls.topLevel.simpleName = some cls.topLevel then
    dotted cls.simpleNames
  else cls.canonical

/-! ### Text -/

/-- The text of a piece. -/
def Piece.textIn (context : Names) : Piece → String
  | .text s => s
  | .reference scope cls => context.reference scope cls
  | .turn _ => ""

/-- A line of text, set in by `depth` steps of two blanks unless it is empty. -/
def setIn (depth : Nat) (text : String) : String :=
  if text.isEmpty then "\n"
  else String.ofList (List.replicate (2 * depth) ' ') ++ text ++ "\n"

/-- The text of a line. -/
def Line.textIn (context : Names) (line : Line) : String :=
  let text := Text.concat (line.pieces.map (Piece.textIn context))
  if line.isBroken then Text.concat ((Text.split '\n' text).map (setIn line.depth))
  else setIn line.depth text

namespace SourceFile

/-- The package of the file, and a blank line; nothing for the unnamed package. -/
def packageText (file : SourceFile) : String :=
  if file.package.isEmpty then ""
  else "package " ++ dotted (Text.split '.' file.package) ++ "\n\n"

/-- The imported classes in order, each once. -/
def importNames (file : SourceFile) : List String :=
  orderedNames (file.imports.map fun (_, cls) => cls.canonical)

/-- The imports and a blank line; nothing if there are none. -/
def importText (file : SourceFile) : String :=
  if file.importNames.isEmpty then ""
  else Text.concat (file.importNames.map fun name => "import " ++ name ++ "\n") ++ "\n"

/-- The text of the file. -/
def render (file : SourceFile) : String :=
  file.packageText ++ file.importText ++
    Text.concat (file.layout.map (Line.textIn file.names))

end SourceFile

end DataClassGen.Source
