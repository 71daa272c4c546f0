import DataClassGen.Source.Declaration
import DataClassGen.Text.Blank

/-!
# The layout of a source file

The lines of a type declaration, in which every reference to a class is still a class, together
with the names of the types around it. How a class is referred to depends on the imports of the
whole file, and those on all the references in it, so both come after the layout.

Imports are given out in the order of the references, and a supertype has its turn before the
properties of the constructor, behind which it is written. The layout marks that place with
`Piece.turn`, which writes nothing.
-/

namespace DataClassGen.Source

/-- A piece of a line. -/
inductive Piece where
  /-- Text as it stands. -/
  | text (text : String)
  /-- A class, referred to from within the types of these names, outermost first. -/
  | reference (scope : List String) (cls : ClassName)
  /-- Nothing, but the class takes its turn for an import here. -/
  | turn (cls : ClassName)
  deriving DecidableEq

/-- A line, set in by `depth` steps. If it is broken, each line of its text is set in. -/
structure Line where
  depth : Nat
  pieces : List Piece
  isBroken : Bool := false
  deriving DecidableEq

namespace Line

/-- A line without anything on it. -/
def blank : Line := ⟨0, [], false⟩

/-- A line of text. -/
def plain (depth : Nat) (text : String) : Line := ⟨depth, [.text text], false⟩

end Line

/-! ### Pieces -/

/-- Lists of pieces one after the other, with `sep` between neighbours. -/
def separated (sep : String) : List (List Piece) → List Piece
  | [] => []
  | [pieces] => pieces
  | pieces :: next :: rest => pieces ++ .text sep :: separated sep (next :: rest)

mutual

/-- A type. -/
def typePieces (scope : List String) : TypeName → List Piece
  | .named cls args isNullable =>
    .reference scope cls ::
      ((if args.isEmpty then [] else
          .text "<" :: separated ", " (typePiecesAll scope args) ++ [.text ">"]) ++
        (if isNullable then [.text "?"] else []))
  | .parameter name _ isNullable =>
    .text (escape name) :: (if isNullable then [.text "?"] else [])

/-- Types. -/
def typePiecesAll (scope : List String) : List TypeName → List (List Piece)
  | [] => []
  | t :: ts => typePieces scope t :: typePiecesAll scope ts

end

/-- A piece of code. -/
def codePieces (scope : List String) (code : Code) : List Piece :=
  code.flatMap fun
    | .literal text => [.text text]
    | .name name => [.text (escape name)]
    | .string value => [.text (stringLiteral value)]
    | .type type => typePieces scope type

/-- What follows an equals sign, if there is anything. -/
def valuePieces (scope : List String) : Option Code → List Piece
  | none => []
  | some code => .text " = " :: codePieces scope code

/-- A type parameter where it is declared, with its first bound. -/
def declaredParameterPieces (scope : List String) : TypeName → List Piece
  | .parameter name (bound :: _) _ =>
    .text (escape name ++ " : ") :: typePieces scope bound
  | .parameter name [] _ => [.text (escape name)]
  | type => typePieces scope type

/-- The declared type parameters between their brackets; nothing if there are none. -/
def typeParameterPieces (scope : List String) (parameters : List TypeName) : List Piece :=
  if parameters.isEmpty then []
  else
    .text "<" :: separated ", " (parameters.map (declaredParameterPieces scope)) ++ [.text ">"]

/-- The modifiers as they are written: in their order, each once, `public` left out. -/
def modifierText (modifiers : List DeclModifier) : String :=
  Text.concat ((DeclModifier.all.filter fun m =>
    modifiers.contains m && m != .publicAccess).map fun m => m.keyword ++ " ")

/-- An annotation; two members or more go on lines of their own. -/
def annotationPieces (scope : List String) (a : Annotation) : List Piece :=
  .text (if a.onGetter then "@get:" else "@") :: .reference scope a.cls ::
    match a.members with
    | [] => []
    | [member] => .text "(" :: codePieces scope member ++ [.text ")"]
    | members =>
      .text "(\n" ::
        separated ",\n" (members.map fun m => .text "  " :: codePieces scope m) ++ [.text "\n)"]

/-! ### Lines -/

/-- A doc comment. -/
def docLines (depth : Nat) : Option String → List Line
  | none => []
  | some doc =>
    .plain depth "/**" ::
      (Text.textLines doc).map (fun line =>
        .plain depth (if Text.isBlankText line then " *" else " * " ++ line)) ++
      [.plain depth " */"]

/-- Annotations, each from a line of its own on. -/
def annotationLines (depth : Nat) (scope : List String) (annotations : List Annotation) :
    List Line :=
  annotations.map fun a => ⟨depth, annotationPieces scope a, true⟩

/-- The declaration of a property, up to its type. -/
def propertyPieces (scope : List String) (p : Property) : List Piece :=
  .text (modifierText p.modifiers ++ (if p.isMutable then "var " else "val ") ++
    escape p.name ++ ": ") :: typePieces scope p.type

/-- A property. -/
def propertyLines (depth : Nat) (scope : List String) (p : Property) : List Line :=
  docLines depth p.doc ++ annotationLines depth scope p.annotations ++
    [⟨depth, propertyPieces scope p ++ valuePieces scope p.initializer, false⟩]

/-- A property of a constructor, with a comma behind it unless it is the last. -/
def constructorPropertyLines (depth : Nat) (scope : List String) (isLast : Bool)
    (p : ConstructorProperty) : List Line :=
  docLines depth p.property.doc ++ annotationLines depth scope p.property.annotations ++
    [⟨depth, propertyPieces scope p.property ++ valuePieces scope p.default ++
      (if isLast then [] else [.text ","]), false⟩]

/-- The properties of a constructor. -/
def constructorLines (depth : Nat) (scope : List String) : List ConstructorProperty → List Line
  | [] => []
  | [p] => constructorPropertyLines depth scope true p
  | p :: q :: rest =>
    constructorPropertyLines depth scope false p ++ constructorLines depth scope (q :: rest)

/-- A parameter of a function. -/
def parameterPieces (scope : List String) (p : Parameter) : List Piece :=
  .text (modifierText p.modifiers ++ escape p.name ++ ": ") :: typePieces scope p.type ++
    valuePieces scope p.default

/-- A function up to its result type. -/
def signaturePieces (scope : List String) (f : Function) : List Piece :=
  let typeParameters := typeParameterPieces scope f.typeParameters
  .text (modifierText f.modifiers ++ "fun ") ::
    (if typeParameters.isEmpty then [] else typeParameters ++ [.text " "]) ++
    .text (escape f.name) :: .text "(" ::
    separated ", " (f.parameters.map (parameterPieces scope)) ++ .text ")" ::
    (match f.returns with
    | none => []
    | some type => .text ": " :: typePieces scope type)

/-- A line of a function's body. -/
def statementLine (depth : Nat) (scope : List String) : Statement → Line
  | .comment text => .plain depth (if text.isEmpty then "//" else "// " ++ text)
  | .code code => ⟨depth, codePieces scope code, true⟩

/-- The only thing that a body does, if that is to return a value. -/
def returned? : List Statement → Option Code
  | [.code code] => Code.after? "return " code
  | _ => none

/-- A function. A body that only returns a value is written behind an equals sign. -/
def functionLines (depth : Nat) (scope : List String) (f : Function) : List Line :=
  docLines depth f.doc ++ annotationLines depth scope f.annotations ++
    match returned? f.body with
    | some value =>
      [⟨depth, signaturePieces scope f ++ .text " = " :: codePieces scope value, true⟩]
    | none =>
      ⟨depth, signaturePieces scope f ++ [.text " \x7b"], false⟩ ::
        f.body.map (statementLine (depth + 1) scope) ++ [.plain depth "\x7d"]

/-- A constant of an enum. -/
def entryLines (depth : Nat) (scope : List String) (e : EnumEntry) : List Line :=
  docLines depth e.doc ++ annotationLines depth scope e.annotations ++
    [.plain depth (escape e.name ++ ",")]

/-- Members with a blank line between neighbours, and before the first if anything stands above
it. -/
def spaced (hasAbove : Bool) : List (List Line) → List Line
  | [] => []
  | member :: members =>
    (if hasAbove then [.blank] else []) ++ member ++ spaced true members

/-- The keyword and name that introduce a type. -/
def introduction (kind : TypeDeclKind) (name : String) : String :=
  match kind with
  | .classDecl => "class " ++ escape name
  | .enumDecl => "enum class " ++ escape name
  | .companion => "companion object"

/-- The superclass and the interfaces, behind a colon; nothing if there are none. -/
def supertypePieces (scope : List String) (superclass : Option TypeName)
    (interfaces : List TypeName) : List Piece :=
  let all :=
    (match superclass with
      | none => []
      | some type => [typePieces scope type ++ [.text "()"]]) ++
    interfaces.map (typePieces scope)
  if all.isEmpty then [] else .text " : " :: separated ", " all

/-- The turns of the classes that some pieces refer to. -/
def turnsOf (pieces : List Piece) : List Piece :=
  pieces.filterMap fun
    | .reference _ cls => some (.turn cls)
    | _ => none

/-- The lines from the introduction of a type to the opening brace of its members. The
supertypes are seen from outside the type, the properties of its constructor from within. -/
def headLines (depth : Nat) (inside : List String) (opening supertypes : List Piece)
    (hasMembers : Bool) : Option Constructor → List Line
  | none => [⟨depth, opening ++ supertypes ++ brace, false⟩]
  | some constructor =>
    let modifiers := modifierText constructor.modifiers
    let keyword := if modifiers.isEmpty then "" else " " ++ modifiers ++ "constructor"
    if constructor.properties.isEmpty then
      [⟨depth, opening ++ .text (keyword ++ "()") :: supertypes ++ brace, false⟩]
    else
      ⟨depth, opening ++ [.text (keyword ++ "(")], false⟩ ::
        constructorLines (depth + 1) inside constructor.properties ++
        [⟨depth, .text ")" :: supertypes ++ brace, false⟩]
where
  /-- The opening brace, if there is anything to stand behind it. -/
  brace : List Piece := if hasMembers then [.text " \x7b"] else []

mutual

/-- A type, seen from within the types of the names in `scope`. -/
def typeLines (depth : Nat) (scope : List String) : TypeDecl → List Line
  | ⟨kind, name, modifiers, annotations, doc, typeParameters, constructor, superclass, interfaces,
      entries, properties, functions, types⟩ =>
    let inside := if kind = .companion then scope else scope ++ [name]
    let hasMembers :=
      !entries.isEmpty || !properties.isEmpty || !functions.isEmpty || !types.isEmpty
    let supertypes := supertypePieces scope superclass interfaces
    let opening :=
      .text (modifierText modifiers ++ introduction kind name) ::
        typeParameterPieces scope typeParameters ++ turnsOf supertypes
    let shownEntries := if kind = .enumDecl then entries else []
    let isClosed :=
      kind = .enumDecl && (!properties.isEmpty || !functions.isEmpty || !types.isEmpty)
    docLines depth doc ++ annotationLines depth scope annotations ++
      headLines depth inside opening supertypes hasMembers constructor ++
      if hasMembers then
        shownEntries.flatMap (entryLines (depth + 1) inside) ++
          (if isClosed then [.plain (depth + 1) ";"] else []) ++
          spaced (!shownEntries.isEmpty || isClosed)
            (properties.map (propertyLines (depth + 1) inside) ++
              functions.map (functionLines (depth + 1) inside) ++
              typeLinesAll (depth + 1) inside types) ++
          [.plain depth "\x7d"]
      else []

/-- Types, each with its own lines. -/
def typeLinesAll (depth : Nat) (scope : List String) : List TypeDecl → List (List Line)
  | [] => []
  | t :: ts => typeLines depth scope t :: typeLinesAll depth scope ts

end

/-- The lines of a file's type. -/
def SourceFile.layout (file : SourceFile) : List Line := typeLines 0 [] file.root

end DataClassGen.Source
