import DataClassGen.Source.Writer

/-!
# References in a source file

A file is laid out with every reference to a class still a class, seen from within the types of some
names. This module lists the references of a declaration from the declaration itself, in the order in
which they are written and each with the declarations around it, and shows that those are the
references of the layout (`SourceFile.references_layout`). The scope of a reference in the layout is
made of the names of the declarations around it, but for companion objects.

What stands around a reference is not always what its declaration stands in. The properties of a
constructor are seen from within the class; its annotations, its type parameters and its supertypes
are seen from outside.
-/

namespace DataClassGen.Source

/-! ### Classes that are written -/

namespace TypeName

mutual

/-- The classes of a type where it is used, outermost first. Bounds are not written there. -/
def written : TypeName → List ClassName
  | .named cls args _ => cls :: writtenAll args
  | .parameter .. => []

/-- The classes of types where they are used. -/
def writtenAll : List TypeName → List ClassName
  | [] => []
  | t :: ts => written t ++ writtenAll ts

end

/-- The classes of a type parameter where it is declared. -/
def writtenDeclared : TypeName → List ClassName
  | .parameter _ (bound :: _) _ => bound.written
  | .parameter _ [] _ => []
  | type => type.written

end TypeName

/-- The classes in a part of code. -/
def CodePart.written : CodePart → List ClassName
  | .type t => t.written
  | _ => []

/-- The classes in code. -/
def Code.written (code : Code) : List ClassName := code.flatMap CodePart.written

/-- The classes behind an equals sign. -/
def writtenValue (value : Option Code) : List ClassName := value.toList.flatMap Code.written

/-- The classes of an annotation. -/
def Annotation.written (a : Annotation) : List ClassName :=
  a.cls :: a.members.flatMap Code.written

/-- The classes in the declaration of a property. -/
def Property.written (p : Property) : List ClassName :=
  p.annotations.flatMap Annotation.written ++ p.type.written

/-- The classes in the declaration of a parameter. -/
def Parameter.written (p : Parameter) : List ClassName := p.type.written ++ writtenValue p.default

/-- The classes in a line of a body. -/
def Statement.written : Statement → List ClassName
  | .code c => c.written
  | .comment _ => []

/-- The classes in a function. -/
def Function.written (f : Function) : List ClassName :=
  f.annotations.flatMap Annotation.written ++ f.typeParameters.flatMap TypeName.writtenDeclared ++
    f.parameters.flatMap Parameter.written ++ f.returns.toList.flatMap TypeName.written ++
    f.body.flatMap Statement.written

namespace TypeDecl

/-- The classes in what introduces the type. -/
def writtenOpening (t : TypeDecl) : List ClassName :=
  t.annotations.flatMap Annotation.written ++ t.typeParameters.flatMap TypeName.writtenDeclared

/-- The classes in the properties of the constructor. -/
def writtenConstructor (t : TypeDecl) : List ClassName :=
  t.constructor.toList.flatMap fun constructor => constructor.properties.flatMap fun p =>
    p.property.written ++ writtenValue p.default

/-- The classes in the supertypes. -/
def writtenSupertypes (t : TypeDecl) : List ClassName :=
  t.superclass.toList.flatMap TypeName.written ++ t.interfaces.flatMap TypeName.written

/-- The classes in the constants, the properties and the functions. -/
def writtenMembers (t : TypeDecl) : List ClassName :=
  (if t.kind = .enumDecl then t.entries.flatMap fun e => e.annotations.flatMap Annotation.written
    else []) ++
  (t.properties.flatMap fun p => p.written ++ writtenValue p.initializer) ++
  t.functions.flatMap Function.written

end TypeDecl

/-- A reference to a class, with the types around it, outermost first. -/
structure Reference where
  enclosing : List TypeDecl
  cls : ClassName

namespace TypeDecl

/-- The names of types that stand in each other, companion objects left out. -/
def scopeOf (enclosing : List TypeDecl) : List String :=
  (enclosing.filter fun t => t.kind != .companion).map name

/-- The place within the type. -/
def inside (scope : List String) (t : TypeDecl) : List String :=
  if t.kind = .companion then scope else scope ++ [t.name]

theorem scopeOf_append (enclosing : List TypeDecl) (t : TypeDecl) :
    scopeOf (enclosing ++ [t]) = t.inside (scopeOf enclosing) := by
  by_cases hkind : t.kind = .companion <;> simp [scopeOf, inside, hkind]

mutual

/-- The references in a type that stands within others. -/
def references (enclosing : List TypeDecl) : TypeDecl → List Reference
  | t@⟨_, _, _, _, _, _, _, _, _, _, _, _, types⟩ =>
    t.writtenOpening.map (⟨enclosing, ·⟩) ++ t.writtenConstructor.map (⟨enclosing ++ [t], ·⟩) ++
      t.writtenSupertypes.map (⟨enclosing, ·⟩) ++ t.writtenMembers.map (⟨enclosing ++ [t], ·⟩) ++
      referencesAll (enclosing ++ [t]) types

/-- The references in types that stand within others. -/
def referencesAll (enclosing : List TypeDecl) : List TypeDecl → List Reference
  | [] => []
  | t :: ts => references enclosing t ++ referencesAll enclosing ts

end

end TypeDecl

/-- The references in a file. -/
def SourceFile.references (file : SourceFile) : List Reference := file.root.references []

/-! ### References in the layout -/

/-- The references among pieces. -/
def referencesIn (pieces : List Piece) : List (List String × ClassName) :=
  pieces.filterMap fun
    | .reference scope cls => some (scope, cls)
    | _ => none

/-- The references in lines. -/
def lineReferences (lines : List Line) : List (List String × ClassName) :=
  lines.flatMap fun line => referencesIn line.pieces

section Pieces

@[simp] theorem referencesIn_nil : referencesIn [] = [] := rfl

@[simp] theorem referencesIn_text (text : String) (pieces : List Piece) :
    referencesIn (.text text :: pieces) = referencesIn pieces := rfl

@[simp] theorem referencesIn_turn (cls : ClassName) (pieces : List Piece) :
    referencesIn (.turn cls :: pieces) = referencesIn pieces := rfl

@[simp] theorem referencesIn_reference (scope : List String) (cls : ClassName)
    (pieces : List Piece) :
    referencesIn (.reference scope cls :: pieces) = (scope, cls) :: referencesIn pieces := rfl

@[simp] theorem referencesIn_append (pieces pieces' : List Piece) :
    referencesIn (pieces ++ pieces') = referencesIn pieces ++ referencesIn pieces' :=
  List.filterMap_append

@[simp] theorem lineReferences_nil : lineReferences [] = [] := rfl

@[simp] theorem lineReferences_cons (line : Line) (lines : List Line) :
    lineReferences (line :: lines) = referencesIn line.pieces ++ lineReferences lines := rfl

@[simp] theorem lineReferences_append (lines lines' : List Line) :
    lineReferences (lines ++ lines') = lineReferences lines ++ lineReferences lines' :=
  List.flatMap_append

@[simp] theorem pieces_plain (depth : Nat) (text : String) :
    (Line.plain depth text).pieces = [.text text] := rfl

@[simp] theorem pieces_blank : Line.blank.pieces = [] := rfl

theorem referencesIn_separated (sep : String) (all : List (List Piece)) :
    referencesIn (separated sep all) = all.flatMap referencesIn := by
  induction all with
  | nil => rfl
  | cons pieces rest ih =>
    cases rest with
    | nil => simp [separated]
    | cons next rest =>
      rw [separated, referencesIn_append, referencesIn_text, ih, ← List.flatMap_cons]

theorem referencesIn_turnsOf (pieces : List Piece) : referencesIn (turnsOf pieces) = [] := by
  induction pieces with
  | nil => rfl
  | cons piece pieces ih => cases piece <;> exact ih

variable (scope : List String)

mutual

theorem referencesIn_typePieces : ∀ t : TypeName,
    referencesIn (typePieces scope t) = t.written.map (scope, ·)
  | .named cls args isNullable => by
    have hargs := referencesIn_typePiecesAll args
    rw [typePieces, TypeName.written]
    cases args <;> cases isNullable <;> simp [referencesIn_separated, hargs, TypeName.writtenAll]
  | .parameter name bounds isNullable => by
    rw [typePieces, TypeName.written]
    cases isNullable <;> simp

theorem referencesIn_typePiecesAll : ∀ ts : List TypeName,
    (typePiecesAll scope ts).flatMap referencesIn = (TypeName.writtenAll ts).map (scope, ·)
  | [] => by simp [typePiecesAll, TypeName.writtenAll]
  | t :: ts => by
    simp [typePiecesAll, TypeName.writtenAll, referencesIn_typePieces t,
      referencesIn_typePiecesAll ts]

end

theorem referencesIn_codePieces (code : Code) :
    referencesIn (codePieces scope code) = code.written.map (scope, ·) := by
  induction code with
  | nil => rfl
  | cons part code ih =>
    rw [codePieces, Code.written] at ih ⊢
    cases part <;> simp [CodePart.written, ih, referencesIn_typePieces]

theorem referencesIn_valuePieces (value : Option Code) :
    referencesIn (valuePieces scope value) = (writtenValue value).map (scope, ·) := by
  cases value <;> simp [valuePieces, writtenValue, referencesIn_codePieces]

theorem referencesIn_declaredParameterPieces (t : TypeName) :
    referencesIn (declaredParameterPieces scope t) = t.writtenDeclared.map (scope, ·) := by
  rcases t with ⟨cls, args, isNullable⟩ | ⟨name, _ | ⟨bound, bounds⟩, isNullable⟩
  · exact referencesIn_typePieces scope _
  · rfl
  · simp [declaredParameterPieces, TypeName.writtenDeclared, referencesIn_typePieces]

theorem referencesIn_typeParameterPieces (parameters : List TypeName) :
    referencesIn (typeParameterPieces scope parameters) =
      (parameters.flatMap TypeName.writtenDeclared).map (scope, ·) := by
  cases parameters <;> simp [typeParameterPieces, referencesIn_separated,
    referencesIn_declaredParameterPieces, List.flatMap_map, List.map_flatMap]

theorem referencesIn_annotationPieces (a : Annotation) :
    referencesIn (annotationPieces scope a) = a.written.map (scope, ·) := by
  rcases a with ⟨cls, _ | ⟨member, _ | ⟨next, rest⟩⟩, onGetter⟩ <;>
    simp [annotationPieces, Annotation.written, referencesIn_separated, referencesIn_codePieces,
      List.flatMap_map, List.map_flatMap]

theorem referencesIn_propertyPieces (p : Property) :
    referencesIn (propertyPieces scope p) = p.type.written.map (scope, ·) := by
  simp [propertyPieces, referencesIn_typePieces]

theorem referencesIn_parameterPieces (p : Parameter) :
    referencesIn (parameterPieces scope p) = p.written.map (scope, ·) := by
  simp [parameterPieces, Parameter.written, referencesIn_typePieces, referencesIn_valuePieces]

theorem referencesIn_supertypePieces (superclass : Option TypeName) (interfaces : List TypeName) :
    referencesIn (supertypePieces scope superclass interfaces) =
      (superclass.toList.flatMap TypeName.written ++
        interfaces.flatMap TypeName.written).map (scope, ·) := by
  cases superclass <;> cases interfaces <;>
    simp [supertypePieces, referencesIn_separated, referencesIn_typePieces, List.flatMap_map,
      List.map_flatMap]

/-! ### References in lines -/

theorem lineReferences_docLines (depth : Nat) (doc : Option String) :
    lineReferences (docLines depth doc) = [] := by
  cases doc with
  | none => rfl
  | some doc => simp [docLines, lineReferences, List.flatMap_eq_nil_iff]

theorem lineReferences_annotationLines (depth : Nat) (annotations : List Annotation) :
    lineReferences (annotationLines depth scope annotations) =
      (annotations.flatMap Annotation.written).map (scope, ·) := by
  simp [lineReferences, annotationLines, referencesIn_annotationPieces, List.flatMap_map,
    List.map_flatMap]

theorem lineReferences_propertyLines (depth : Nat) (p : Property) :
    lineReferences (propertyLines depth scope p) =
      (p.written ++ writtenValue p.initializer).map (scope, ·) := by
  simp [propertyLines, Property.written, lineReferences_docLines, lineReferences_annotationLines,
    referencesIn_propertyPieces, referencesIn_valuePieces]

theorem lineReferences_constructorLines (depth : Nat) (properties : List ConstructorProperty) :
    lineReferences (constructorLines depth scope properties) = (properties.flatMap fun p =>
      p.property.written ++ writtenValue p.default).map (scope, ·) := by
  have hline : ∀ (isLast : Bool) (p : ConstructorProperty),
      lineReferences (constructorPropertyLines depth scope isLast p) =
        (p.property.written ++ writtenValue p.default).map (scope, ·) := by
    intro isLast p
    cases isLast <;> simp [constructorPropertyLines, Property.written, lineReferences_docLines,
      lineReferences_annotationLines, referencesIn_propertyPieces, referencesIn_valuePieces]
  induction properties with
  | nil => rfl
  | cons p rest ih =>
    cases rest with
    | nil => simp [constructorLines, hline]
    | cons q rest =>
      rw [constructorLines, lineReferences_append, hline, ih, ← List.map_append]
      rfl

/-- A body that only returns a value refers to what the value refers to. -/
theorem written_of_returned? {body : List Statement} {value : Code} (h : returned? body = some value) :
    value.written = body.flatMap Statement.written := by
  unfold returned? at h
  split at h
  · next code =>
    unfold Code.after? at h
    split at h
    · next text rest =>
      obtain ⟨text', -, rfl⟩ := Option.map_eq_some_iff.mp h
      simp only [Code.lit]
      split <;> simp [Statement.written, Code.written, CodePart.written]
    · cases h
  · cases h

theorem lineReferences_functionLines (depth : Nat) (f : Function) :
    lineReferences (functionLines depth scope f) = f.written.map (scope, ·) := by
  have hsignature : referencesIn (signaturePieces scope f) =
      (f.typeParameters.flatMap TypeName.writtenDeclared ++ f.parameters.flatMap Parameter.written ++
        f.returns.toList.flatMap TypeName.written).map (scope, ·) := by
    have hspaced : ∀ pieces : List Piece, referencesIn
        (if pieces = [] then [] else pieces ++ [.text " "]) = referencesIn pieces := by
      intro pieces
      split
      · next hnil => rw [hnil]
      · simp
    rw [signaturePieces]
    cases f.returns <;> simp [hspaced, referencesIn_typeParameterPieces, referencesIn_separated,
      referencesIn_parameterPieces, referencesIn_typePieces, List.flatMap_map, List.map_flatMap]
  have hbody : lineReferences (f.body.map (statementLine (depth + 1) scope)) =
      (f.body.flatMap Statement.written).map (scope, ·) := by
    induction f.body with
    | nil => rfl
    | cons statement body ih =>
      cases statement <;> simp [statementLine, Statement.written, referencesIn_codePieces, ih]
  rw [functionLines, Function.written]
  cases hreturned : returned? f.body with
  | some value =>
    simp [lineReferences_docLines, lineReferences_annotationLines, hsignature,
      referencesIn_codePieces, written_of_returned? hreturned]
  | none =>
    simp [lineReferences_docLines, lineReferences_annotationLines, hsignature, hbody]

theorem lineReferences_entryLines (depth : Nat) (e : EnumEntry) :
    lineReferences (entryLines depth scope e) =
      (e.annotations.flatMap Annotation.written).map (scope, ·) := by
  simp [entryLines, lineReferences_docLines, lineReferences_annotationLines]

theorem lineReferences_spaced (hasAbove : Bool) (members : List (List Line)) :
    lineReferences (spaced hasAbove members) = members.flatMap lineReferences := by
  induction members generalizing hasAbove with
  | nil => rfl
  | cons member members ih => cases hasAbove <;> simp [spaced, ih]

theorem lineReferences_headLines (depth : Nat) {inside : List String} {opening supertypes : List Piece}
    {hasMembers : Bool} {constructor : Option Constructor} :
    lineReferences (headLines depth inside opening supertypes hasMembers constructor) =
      referencesIn opening ++
        ((constructor.toList.flatMap fun constructor => constructor.properties.flatMap fun p =>
          p.property.written ++ writtenValue p.default).map (inside, ·)) ++
        referencesIn supertypes := by
  have hbrace : referencesIn (headLines.brace hasMembers) = [] := by
    cases hasMembers <;> rfl
  cases constructor with
  | none => simp [headLines, hbrace]
  | some constructor =>
    cases hproperties : constructor.properties with
    | nil => simp [headLines, hbrace, hproperties]
    | cons p properties => simp [headLines, hbrace, hproperties, lineReferences_constructorLines]

end Pieces

/-! ### The whole layout -/

/-- The lines between the braces of a type, and the closing one. -/
def memberLines (depth : Nat) (scope : List String) (t : TypeDecl) : List Line :=
  let shownEntries := if t.kind = .enumDecl then t.entries else []
  let isClosed :=
    t.kind = .enumDecl && (!t.properties.isEmpty || !t.functions.isEmpty || !t.types.isEmpty)
  if t.hasMembers then
    shownEntries.flatMap (entryLines (depth + 1) scope) ++
      (if isClosed then [.plain (depth + 1) ";"] else []) ++
      spaced (!shownEntries.isEmpty || isClosed)
        (t.properties.map (propertyLines (depth + 1) scope) ++
          t.functions.map (functionLines (depth + 1) scope) ++
          typeLinesAll (depth + 1) scope t.types) ++
      [.plain depth "\x7d"]
  else []

theorem typeLines_eq (depth : Nat) (scope : List String) (t : TypeDecl) :
    typeLines depth scope t =
      docLines depth t.doc ++ annotationLines depth scope t.annotations ++
        headLines depth (t.inside scope)
          (.text (modifierText t.modifiers ++ introduction t.kind t.name) ::
            typeParameterPieces scope t.typeParameters ++
              turnsOf (supertypePieces scope t.superclass t.interfaces))
          (supertypePieces scope t.superclass t.interfaces) t.hasMembers t.constructor ++
        memberLines depth (t.inside scope) t := by
  cases t
  rfl

theorem references_eq (enclosing : List TypeDecl) (t : TypeDecl) :
    t.references enclosing =
      t.writtenOpening.map (⟨enclosing, ·⟩) ++ t.writtenConstructor.map (⟨enclosing ++ [t], ·⟩) ++
        t.writtenSupertypes.map (⟨enclosing, ·⟩) ++ t.writtenMembers.map (⟨enclosing ++ [t], ·⟩) ++
        TypeDecl.referencesAll (enclosing ++ [t]) t.types := by
  cases t
  rfl

theorem lineReferences_memberLines (depth : Nat) (scope : List String) (t : TypeDecl) :
    lineReferences (memberLines depth scope t) = t.writtenMembers.map (scope, ·) ++
      (typeLinesAll (depth + 1) scope t.types).flatMap lineReferences := by
  have hentries : ∀ entries : List EnumEntry,
      lineReferences (entries.flatMap (entryLines (depth + 1) scope)) =
        (entries.flatMap fun e => e.annotations.flatMap Annotation.written).map (scope, ·) := by
    intro entries
    induction entries with
    | nil => rfl
    | cons e entries ih => simp [lineReferences_entryLines, ih]
  have hclosed : ∀ isClosed : Bool,
      lineReferences (if isClosed then [.plain (depth + 1) ";"] else []) = [] := by
    intro isClosed
    cases isClosed <;> rfl
  rw [memberLines, TypeDecl.writtenMembers]
  by_cases hmembers : t.hasMembers = true
  · simp only [hmembers, if_true, lineReferences_append, hentries, hclosed, lineReferences_spaced,
      List.flatMap_append, List.flatMap_map, lineReferences_propertyLines,
      lineReferences_functionLines, lineReferences_cons, lineReferences_nil, pieces_plain,
      referencesIn_text, referencesIn_nil, List.append_nil, List.map_append, List.map_flatMap]
    split <;> simp [List.map_flatMap]
  · have hnone : t.entries = [] ∧ t.properties = [] ∧ t.functions = [] ∧ t.types = [] := by
      simpa [TypeDecl.hasMembers, and_assoc] using hmembers
    obtain ⟨hentries, hproperties, hfunctions, htypes⟩ := hnone
    simp [hmembers, hentries, hproperties, hfunctions, htypes, typeLinesAll]

/-- A reference as the layout has it. -/
def Reference.laidOut (r : Reference) : List String × ClassName :=
  (TypeDecl.scopeOf r.enclosing, r.cls)

mutual

/-- The lines of a type have the references of the type. -/
theorem lineReferences_typeLines (depth : Nat) (enclosing : List TypeDecl) : ∀ t : TypeDecl,
    lineReferences (typeLines depth (TypeDecl.scopeOf enclosing) t) =
      (t.references enclosing).map Reference.laidOut
  | ⟨_, _, _, _, _, _, _, _, _, _, _, _, types⟩ => by
    have hlaidOut : ∀ (outer : List TypeDecl) (classes : List ClassName),
        (classes.map (Reference.mk outer)).map Reference.laidOut =
          classes.map (TypeDecl.scopeOf outer, ·) := fun _ _ => List.map_map ..
    simp only [typeLines_eq, references_eq, List.map_append, hlaidOut, ← TypeDecl.scopeOf_append,
      lineReferences_append, lineReferences_docLines, lineReferences_annotationLines,
      lineReferences_headLines, lineReferences_memberLines, referencesIn_text, referencesIn_append,
      referencesIn_typeParameterPieces, referencesIn_turnsOf, referencesIn_supertypePieces]
    simp [TypeDecl.writtenOpening, TypeDecl.writtenConstructor, TypeDecl.writtenSupertypes,
      lineReferences_typeLinesAll (depth + 1) _ types]

/-- The lines of types have the references of the types. -/
theorem lineReferences_typeLinesAll (depth : Nat) (enclosing : List TypeDecl) :
    ∀ ts : List TypeDecl, (typeLinesAll depth (TypeDecl.scopeOf enclosing) ts).flatMap lineReferences =
      (TypeDecl.referencesAll enclosing ts).map Reference.laidOut
  | [] => rfl
  | t :: ts => by
    rw [typeLinesAll, TypeDecl.referencesAll, List.flatMap_cons, List.map_append,
      lineReferences_typeLines depth enclosing t, lineReferences_typeLinesAll depth enclosing ts]

end

/-- The references of a file's layout are those of the file. -/
theorem SourceFile.references_layout (file : SourceFile) :
    lineReferences file.layout = file.references.map Reference.laidOut :=
  lineReferences_typeLines 0 [] file.root

end DataClassGen.Source
