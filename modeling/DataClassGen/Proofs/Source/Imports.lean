import DataClassGen.Proofs.Entries
import DataClassGen.Proofs.Names
import DataClassGen.Proofs.Source.References

/-!
# Imports and the references that need them

Imports are given out while the references of a file are gone through, first come, first served; how a
reference is written depends on all of them. `imports_agree_with_references` says that the two come out
in agreement. A class of another package is written by its simple names just when its outermost class is
imported, and is then the only class that its first name can stand for among the imports and the types of
the file; all others are written by their canonical names, because a type or another import has the name.
No import is there for nothing.

The step of the argument is a turn (`Imports.AreFor.step`): a class that could be imported finds its name
taken afterwards, by itself or by another class, and what is imported once stays. The layout gives turns
to supertypes before it refers to them; `SourceFile.mem_turns_iff` says that the classes with a turn are
those that the file refers to, so that every import has a reference.
-/

namespace DataClassGen.Source

/-! ### Turns -/

section Turns

variable (scope : List String) (cls : ClassName)

theorem turn_not_mem_separated (sep : String) {all : List (List Piece)}
    (h : ∀ pieces ∈ all, Piece.turn cls ∉ pieces) : Piece.turn cls ∉ separated sep all := by
  induction all with
  | nil => exact List.not_mem_nil
  | cons pieces rest ih =>
    obtain ⟨hpieces, hrest⟩ := List.forall_mem_cons.mp h
    cases rest with
    | nil => exact hpieces
    | cons next rest => simp [separated, hpieces, ih hrest]

mutual

theorem turn_not_mem_typePieces : ∀ t : TypeName, Piece.turn cls ∉ typePieces scope t
  | .named _ args isNullable => by
    have hargs := turn_not_mem_separated cls ", " (turn_not_mem_typePiecesAll args)
    rw [typePieces]
    cases args <;> cases isNullable <;> simp [hargs]
  | .parameter _ _ isNullable => by
    rw [typePieces]
    cases isNullable <;> simp

theorem turn_not_mem_typePiecesAll :
    ∀ ts : List TypeName, ∀ pieces ∈ typePiecesAll scope ts, Piece.turn cls ∉ pieces
  | [] => fun _ h => nomatch h
  | t :: ts =>
    List.forall_mem_cons.mpr ⟨turn_not_mem_typePieces t, turn_not_mem_typePiecesAll ts⟩

end

theorem turn_not_mem_codePieces (code : Code) : Piece.turn cls ∉ codePieces scope code := by
  rw [codePieces, List.mem_flatMap]
  rintro ⟨part, -, hpart⟩
  cases part with
  | type t => exact turn_not_mem_typePieces scope cls t hpart
  | _ => simp at hpart

theorem turn_not_mem_valuePieces (value : Option Code) :
    Piece.turn cls ∉ valuePieces scope value := by
  cases value <;> simp [valuePieces, turn_not_mem_codePieces]

theorem turn_not_mem_typeParameterPieces (parameters : List TypeName) :
    Piece.turn cls ∉ typeParameterPieces scope parameters := by
  have hdeclared : ∀ pieces ∈ parameters.map (declaredParameterPieces scope),
      Piece.turn cls ∉ pieces := by
    intro pieces hpieces
    obtain ⟨t, -, rfl⟩ := List.mem_map.mp hpieces
    rcases t with ⟨_, _, _⟩ | ⟨_, _ | ⟨_, _⟩, _⟩ <;>
      simp [declaredParameterPieces, turn_not_mem_typePieces]
  rw [typeParameterPieces]
  split <;> simp [turn_not_mem_separated cls ", " hdeclared]

theorem turn_not_mem_annotationPieces (a : Annotation) :
    Piece.turn cls ∉ annotationPieces scope a := by
  have hmembers : ∀ pieces ∈ a.members.map fun m => Piece.text "  " :: codePieces scope m,
      Piece.turn cls ∉ pieces := by
    intro pieces hpieces
    obtain ⟨m, -, rfl⟩ := List.mem_map.mp hpieces
    simp [turn_not_mem_codePieces]
  rcases a with ⟨_, _ | ⟨member, _ | ⟨next, rest⟩⟩, _⟩
  · simp [annotationPieces]
  · simp [annotationPieces, turn_not_mem_codePieces]
  · simpa [annotationPieces] using turn_not_mem_separated cls ",\n" hmembers

theorem turn_not_mem_propertyPieces (p : Property) : Piece.turn cls ∉ propertyPieces scope p := by
  simp [propertyPieces, turn_not_mem_typePieces]

theorem turn_not_mem_signaturePieces (f : Function) :
    Piece.turn cls ∉ signaturePieces scope f := by
  have hparameters : ∀ pieces ∈ f.parameters.map (parameterPieces scope),
      Piece.turn cls ∉ pieces := by
    intro pieces hpieces
    obtain ⟨p, -, rfl⟩ := List.mem_map.mp hpieces
    simp [parameterPieces, turn_not_mem_typePieces, turn_not_mem_valuePieces]
  have htypeParameters := turn_not_mem_typeParameterPieces scope cls f.typeParameters
  have hlist := turn_not_mem_separated cls ", " hparameters
  rw [signaturePieces]
  cases f.returns <;> (simp only; split) <;>
    simp [htypeParameters, hlist, turn_not_mem_typePieces]

theorem turn_not_mem_supertypePieces (superclass : Option TypeName) (interfaces : List TypeName) :
    Piece.turn cls ∉ supertypePieces scope superclass interfaces := by
  have hall : ∀ pieces ∈ superclass.toList.map (fun t => typePieces scope t ++ [.text "()"]) ++
      interfaces.map (typePieces scope), Piece.turn cls ∉ pieces := by
    intro pieces hpieces
    simp only [List.mem_append, List.mem_map] at hpieces
    obtain ⟨t, -, rfl⟩ | ⟨t, -, rfl⟩ := hpieces <;> simp [turn_not_mem_typePieces]
  have hlist := turn_not_mem_separated cls ", " hall
  cases superclass with
  | none => cases interfaces <;> simp_all [supertypePieces]
  | some t => simpa [supertypePieces] using hlist

/-- No line gives a turn by anything but a reference. -/
def Turnless (lines : List Line) : Prop := ∀ line ∈ lines, Piece.turn cls ∉ line.pieces

variable {cls}

@[simp] theorem turnless_append {lines lines' : List Line} :
    Turnless cls (lines ++ lines') ↔ Turnless cls lines ∧ Turnless cls lines' :=
  List.forall_mem_append

@[simp] theorem turnless_cons {line : Line} {lines : List Line} :
    Turnless cls (line :: lines) ↔ Piece.turn cls ∉ line.pieces ∧ Turnless cls lines :=
  List.forall_mem_cons

@[simp] theorem turnless_nil : Turnless cls [] := fun _ h => nomatch h

theorem turnless_docLines (depth : Nat) (doc : Option String) :
    Turnless cls (docLines depth doc) := by
  cases doc with
  | none => exact turnless_nil
  | some doc =>
    intro line hline
    simp only [docLines, List.mem_cons, List.mem_append, List.mem_map, List.not_mem_nil,
      or_false] at hline
    obtain (rfl | ⟨_, -, rfl⟩) | rfl := hline <;> simp

theorem turnless_annotationLines (depth : Nat) (annotations : List Annotation) :
    Turnless cls (annotationLines depth scope annotations) := by
  intro line hline
  obtain ⟨a, -, rfl⟩ := List.mem_map.mp hline
  exact turn_not_mem_annotationPieces scope cls a

theorem turnless_propertyLines (depth : Nat) (p : Property) :
    Turnless cls (propertyLines depth scope p) := by
  simp [propertyLines, turnless_docLines, turnless_annotationLines, turn_not_mem_propertyPieces,
    turn_not_mem_valuePieces]

theorem turnless_constructorLines (depth : Nat) (properties : List ConstructorProperty) :
    Turnless cls (constructorLines depth scope properties) := by
  have hline : ∀ (isLast : Bool) (p : ConstructorProperty),
      Turnless cls (constructorPropertyLines depth scope isLast p) := by
    intro isLast p
    cases isLast <;> simp [constructorPropertyLines, turnless_docLines, turnless_annotationLines,
      turn_not_mem_propertyPieces, turn_not_mem_valuePieces]
  induction properties with
  | nil => exact turnless_nil
  | cons p rest ih =>
    cases rest with
    | nil => exact hline true p
    | cons q rest => exact turnless_append.mpr ⟨hline false p, ih⟩

theorem turnless_functionLines (depth : Nat) (f : Function) :
    Turnless cls (functionLines depth scope f) := by
  have hstatements : Turnless cls (f.body.map (statementLine (depth + 1) scope)) := by
    intro line hline
    obtain ⟨statement, -, rfl⟩ := List.mem_map.mp hline
    cases statement <;> simp [statementLine, turn_not_mem_codePieces]
  rw [functionLines]
  split <;> simp [turnless_docLines, turnless_annotationLines, turn_not_mem_signaturePieces,
    turn_not_mem_codePieces, hstatements]

theorem turnless_entryLines (depth : Nat) (e : EnumEntry) :
    Turnless cls (entryLines depth scope e) := by
  simp [entryLines, turnless_docLines, turnless_annotationLines]

end Turns

theorem turn_mem_turnsOf_iff {cls : ClassName} {pieces : List Piece} :
    Piece.turn cls ∈ turnsOf pieces ↔ ∃ scope, (scope, cls) ∈ referencesIn pieces := by
  simp only [turnsOf, referencesIn, List.mem_filterMap]
  constructor
  · rintro ⟨piece, hpiece, hturn⟩
    cases piece with
    | reference scope cls' =>
      obtain rfl : cls' = cls := by simpa using hturn
      exact ⟨scope, _, hpiece, rfl⟩
    | _ => cases hturn
  · rintro ⟨scope, piece, hpiece, href⟩
    cases piece with
    | reference scope' cls' =>
      obtain ⟨rfl, rfl⟩ : scope' = scope ∧ cls' = cls := by simpa using href
      exact ⟨_, hpiece, rfl⟩
    | _ => cases href

/-- A class that has a turn in the head of a type is one that the head refers to. -/
theorem referred_of_turn_headLines {cls : ClassName} {line : Line} (depth : Nat)
    {inside : List String} {opening supertypes : List Piece} {hasMembers : Bool}
    {constructor : Option Constructor}
    (hopening : Piece.turn cls ∈ opening → ∃ scope, (scope, cls) ∈ referencesIn supertypes)
    (hsupertypes : Piece.turn cls ∉ supertypes)
    (hline : line ∈ headLines depth inside opening supertypes hasMembers constructor)
    (hturn : Piece.turn cls ∈ line.pieces) : ∃ scope, (scope, cls) ∈ referencesIn supertypes := by
  have hbrace : Piece.turn cls ∉ headLines.brace hasMembers := by
    cases hasMembers <;> simp [headLines.brace]
  cases constructor with
  | none =>
    obtain rfl := List.mem_singleton.mp hline
    simp only [List.mem_append, hsupertypes, hbrace, or_false] at hturn
    exact hopening hturn
  | some constructor =>
    cases hproperties : constructor.properties with
    | nil =>
      simp only [headLines, hproperties, List.isEmpty_nil, if_true, List.mem_singleton] at hline
      subst hline
      simp only [List.mem_append, List.mem_cons, reduceCtorEq, hsupertypes, hbrace, or_false] at hturn
      exact hopening hturn
    | cons p properties =>
      simp only [headLines, hproperties, List.isEmpty_cons, Bool.false_eq_true, if_false,
        List.mem_cons, List.mem_append, List.not_mem_nil, or_false] at hline
      obtain (rfl | hline) | rfl := hline
      · simp only [List.mem_append, List.mem_singleton, reduceCtorEq, or_false] at hturn
        exact hopening hturn
      · exact absurd hturn (turnless_constructorLines inside (depth + 1) _ line hline)
      · simp [hsupertypes, hbrace] at hturn

theorem mem_spaced {line : Line} {hasAbove : Bool} {members : List (List Line)}
    (h : line ∈ spaced hasAbove members) : line = .blank ∨ ∃ member ∈ members, line ∈ member := by
  induction members generalizing hasAbove with
  | nil => cases h
  | cons member members ih =>
    simp only [spaced, List.mem_append] at h
    obtain (h | h) | h := h
    · left
      cases hasAbove <;> simp_all
    · exact Or.inr ⟨member, List.mem_cons_self, h⟩
    · rcases ih h with rfl | ⟨other, hother, h⟩
      · exact Or.inl rfl
      · exact Or.inr ⟨other, List.mem_cons_of_mem _ hother, h⟩

/-- A class that has a turn between the braces of a type is one that the types in there refer to. -/
theorem referred_of_turn_memberLines {cls : ClassName} {line : Line} (depth : Nat)
    (scope : List String) (t : TypeDecl)
    (htypes : ∀ lines ∈ typeLinesAll (depth + 1) scope t.types, line ∈ lines →
      Piece.turn cls ∈ line.pieces → ∃ s, (s, cls) ∈ lineReferences lines)
    (hline : line ∈ memberLines depth scope t) (hturn : Piece.turn cls ∈ line.pieces) :
    ∃ s, (s, cls) ∈ lineReferences (memberLines depth scope t) := by
  rw [lineReferences_memberLines]
  simp only [memberLines] at hline
  split at hline
  · simp only [List.mem_append, List.mem_flatMap, List.mem_singleton] at hline
    obtain ((⟨e, -, hline⟩ | hline) | hline) | rfl := hline
    · exact absurd hturn (turnless_entryLines scope (depth + 1) e line hline)
    · split at hline
      · obtain rfl := List.mem_singleton.mp hline
        simp at hturn
      · cases hline
    · obtain rfl | ⟨member, hmember, hline⟩ := mem_spaced hline
      · simp at hturn
      · simp only [List.mem_append, List.mem_map] at hmember
        obtain (⟨p, -, rfl⟩ | ⟨f, -, rfl⟩) | hmember := hmember
        · exact absurd hturn (turnless_propertyLines scope (depth + 1) p line hline)
        · exact absurd hturn (turnless_functionLines scope (depth + 1) f line hline)
        · obtain ⟨s, hs⟩ := htypes member hmember hline hturn
          exact ⟨s, List.mem_append_right _ (List.mem_flatMap.mpr ⟨member, hmember, hs⟩)⟩
    · simp at hturn
  · cases hline

mutual

/-- A class that has a turn in the lines of a type is one that these lines refer to. -/
theorem referred_of_turn_typeLines {cls : ClassName} {line : Line} (depth : Nat)
    (scope : List String) : ∀ t : TypeDecl, line ∈ typeLines depth scope t →
      Piece.turn cls ∈ line.pieces → ∃ s, (s, cls) ∈ lineReferences (typeLines depth scope t)
  | ⟨_, _, _, _, _, _, _, _, _, _, _, _, types⟩ => by
    intro hline hturn
    simp only [typeLines_eq, List.mem_append, lineReferences_append] at hline ⊢
    obtain ((hline | hline) | hline) | hline := hline
    · exact absurd hturn (turnless_docLines depth _ line hline)
    · exact absurd hturn (turnless_annotationLines scope depth _ line hline)
    · obtain ⟨s, hs⟩ := referred_of_turn_headLines depth
        (fun h => by
          simp only [List.mem_cons, List.mem_append, reduceCtorEq, false_or,
            turn_not_mem_typeParameterPieces, turn_mem_turnsOf_iff] at h
          exact h)
        (turn_not_mem_supertypePieces scope cls _ _) hline hturn
      exact ⟨s, Or.inl (Or.inr (by simp [lineReferences_headLines, hs]))⟩
    · obtain ⟨s, hs⟩ := referred_of_turn_memberLines depth _ _
        (referred_of_turn_typeLinesAll (depth + 1) _ types) hline hturn
      exact ⟨s, Or.inr hs⟩

theorem referred_of_turn_typeLinesAll {cls : ClassName} {line : Line} (depth : Nat)
    (scope : List String) : ∀ ts : List TypeDecl, ∀ lines ∈ typeLinesAll depth scope ts,
      line ∈ lines → Piece.turn cls ∈ line.pieces → ∃ s, (s, cls) ∈ lineReferences lines
  | [] => fun _ h => nomatch h
  | t :: ts => List.forall_mem_cons.mpr ⟨referred_of_turn_typeLines depth scope t,
      referred_of_turn_typeLinesAll depth scope ts⟩

end

/-- The classes that have a turn for an import are those that the file refers to. -/
theorem SourceFile.mem_turns_iff (file : SourceFile) {cls : ClassName} :
    cls ∈ file.turns ↔ ∃ scope, (scope, cls) ∈ lineReferences file.layout := by
  simp only [SourceFile.turns, Line.turns, List.mem_flatMap, List.mem_filterMap]
  constructor
  · rintro ⟨line, hline, piece, hpiece, hturn⟩
    cases piece with
    | text => cases hturn
    | reference scope cls' =>
      obtain rfl : cls' = cls := by simpa using hturn
      refine ⟨scope, List.mem_flatMap.mpr ⟨line, hline, ?_⟩⟩
      exact List.mem_filterMap.mpr ⟨_, hpiece, rfl⟩
    | turn cls' =>
      obtain rfl : cls' = cls := by simpa using hturn
      exact referred_of_turn_typeLines 0 [] file.root hline hpiece
  · rintro ⟨scope, href⟩
    obtain ⟨line, hline, href⟩ := List.mem_flatMap.mp href
    obtain ⟨piece, hpiece, href⟩ := List.mem_filterMap.mp href
    cases piece with
    | reference scope' cls' =>
      obtain ⟨rfl, rfl⟩ : scope' = scope ∧ cls' = cls := by simpa using href
      exact ⟨line, hline, _, hpiece, rfl⟩
    | _ => cases href

/-! ### What is imported -/

namespace ClassName

@[simp] theorem topLevel_topLevel (cls : ClassName) : cls.topLevel.topLevel = cls.topLevel := by
  simp [topLevel, List.take_take]

@[simp] theorem package_topLevel (cls : ClassName) : cls.topLevel.package = cls.package := rfl

end ClassName

@[simp] theorem isForeign_topLevel (package : String) (cls : ClassName) :
    isForeign package cls.topLevel = isForeign package cls := rfl

/-- The imports are what some classes get in their turns: each import is the outermost class of one
of them, stands under its own name, which no type of the file has, and every class that could be
imported finds its name taken. -/
structure Imports.AreFor (package : String) (declared : List String) (turns : List ClassName)
    (imports : Imports) : Prop where
  ordered : Ordered imports
  origin : ∀ name cls, imports.lookup name = some cls →
    cls.simpleName = name ∧ name ∉ declared ∧
      ∃ turn ∈ turns, isForeign package turn = true ∧ turn.topLevel = cls
  taken : ∀ turn ∈ turns, isForeign package turn = true →
    turn.topLevel.simpleName ∉ declared → imports.lookup turn.topLevel.simpleName ≠ none

namespace Imports.AreFor

variable {package : String} {declared : List String} {turns : List ClassName} {imports : Imports}

theorem start : AreFor package declared [] [] where
  ordered := List.Pairwise.nil
  origin := fun _ _ h => nomatch h
  taken := fun _ h => nomatch h

/-- One more class has its turn. -/
theorem step (h : AreFor package declared turns imports) (turn : ClassName) :
    AreFor package declared (turns ++ [turn]) (imports.afterTurn package declared turn) := by
  rw [afterTurn]
  split
  · next hfree =>
    simp only [Bool.and_eq_true, Bool.not_eq_true', List.contains_eq_mem, decide_eq_false_iff_not,
      Option.isNone_iff_eq_none] at hfree
    obtain ⟨⟨hforeign, hundeclared⟩, hnone⟩ := hfree
    refine ⟨h.ordered.insert _ _, fun name cls hcls => ?_, fun other hother hother' hname => ?_⟩
    · by_cases hname : name = turn.topLevel.simpleName
      · subst hname
        obtain rfl := Option.some.inj ((lookup_insertByKey_self ..).symm.trans hcls)
        exact ⟨rfl, hundeclared, turn, by simp, hforeign, rfl⟩
      · rw [lookup_insertByKey_of_ne hname] at hcls
        obtain ⟨hsimple, hnot, source, hsource, hrest⟩ := h.origin name cls hcls
        exact ⟨hsimple, hnot, source, List.mem_append_left _ hsource, hrest⟩
    · by_cases hsame : other.topLevel.simpleName = turn.topLevel.simpleName
      · rw [hsame, lookup_insertByKey_self]
        exact Option.some_ne_none _
      · rw [lookup_insertByKey_of_ne hsame]
        rcases List.mem_append.mp hother with hother | hother
        · exact h.taken other hother hother' hname
        · rw [List.mem_singleton.mp hother] at hsame
          exact absurd rfl hsame
  · next hfree =>
    refine ⟨h.ordered, fun name cls hcls => ?_, fun other hother hother' hname => ?_⟩
    · obtain ⟨hsimple, hnot, source, hsource, hrest⟩ := h.origin name cls hcls
      exact ⟨hsimple, hnot, source, List.mem_append_left _ hsource, hrest⟩
    · rcases List.mem_append.mp hother with hother | hother
      · exact h.taken other hother hother' hname
      · obtain rfl := List.mem_singleton.mp hother
        intro hnone
        simp [hother', hname, hnone] at hfree

/-- Further classes have their turns. -/
theorem run (h : AreFor package declared turns imports) (rest : List ClassName) :
    AreFor package declared (turns ++ rest) (rest.foldl (afterTurn package declared) imports) := by
  induction rest generalizing turns imports with
  | nil => simpa using h
  | cons turn rest ih => simpa using ih (h.step turn)

end Imports.AreFor

namespace SourceFile

/-- The imports of a file are those for the classes that it refers to. -/
theorem areFor_imports (file : SourceFile) :
    Imports.AreFor file.package file.root.declaredNames file.turns file.imports :=
  Imports.AreFor.start.run file.turns

/-- The classes that the file imports. -/
def imported (file : SourceFile) : List ClassName := file.imports.map (·.2)

theorem importNames_eq (file : SourceFile) :
    file.importNames = orderedNames (file.imported.map ClassName.canonical) := by
  rw [importNames, imported, List.map_map]
  rfl

theorem mem_imported_iff (file : SourceFile) {cls : ClassName} :
    cls ∈ file.imported ↔ file.imports.lookup cls.simpleName = some cls := by
  rw [imported, List.mem_map]
  constructor
  · rintro ⟨⟨name, cls⟩, hmem, rfl⟩
    have hlookup := (file.areFor_imports.ordered.lookup_eq_some_iff name cls).mpr hmem
    rwa [(file.areFor_imports.origin name cls hlookup).1]
  · intro hlookup
    exact ⟨_, mem_of_lookup hlookup, rfl⟩

end SourceFile

/-! ### Texts of references -/

theorem count_dot_escape (name : String) : (escape name).toList.count '.' = name.toList.count '.' := by
  rw [escape]
  split
  · simp
  · rfl

theorem count_dot_dotted (names : List String) :
    (dotted names).toList.count '.' = (Text.joinWith "." names).toList.count '.' := by
  induction names with
  | nil => rfl
  | cons name names ih =>
    cases names with
    | nil => exact count_dot_escape name
    | cons next names =>
      rw [dotted] at ih ⊢
      simp only [List.map_cons, Text.joinWith, String.toList_append, List.count_append] at ih ⊢
      rw [count_dot_escape, ih]

/-- A class of a named package has one dot more in its canonical name than in its simple names. -/
theorem canonical_ne_dotted {cls : ClassName} (h : cls.package ≠ "") :
    cls.canonical ≠ dotted cls.simpleNames := by
  intro heq
  have hcount := congrArg (fun s : String => s.toList.count '.') heq
  simp only [ClassName.canonical, String.isEmpty_iff, h, if_false, count_dot_dotted,
    String.toList_append, List.count_append] at hcount
  have hdot : ".".toList.count '.' = 1 := rfl
  omega

theorem isForeign_iff {package : String} {cls : ClassName} :
    isForeign package cls = true ↔ cls.package ≠ package ∧ cls.package ≠ "" := by
  simp [isForeign]

/-- How a class of another package is referred to: by its simple names if its outermost class is
imported, and else by its canonical name. -/
theorem SourceFile.reference_of_foreign (file : SourceFile) {cls : ClassName}
    (hforeign : isForeign file.package cls = true) (scope : List String) :
    file.names.reference scope cls =
      if cls.topLevel ∈ file.imported then dotted cls.simpleNames else cls.canonical := by
  obtain ⟨hother, hnamed⟩ := isForeign_iff.mp hforeign
  have hdeclared : file.root.declaredNames.contains cls.topLevel.simpleName = true →
      cls.topLevel ∉ file.imported := by
    intro hcontains himported
    rw [file.mem_imported_iff] at himported
    exact (file.areFor_imports.origin _ _ himported).2.1 (by simpa using hcontains)
  have htext : file.names.reference scope cls =
      if file.root.declaredNames.contains cls.topLevel.simpleName then cls.canonical
      else if file.imports.lookup cls.topLevel.simpleName = some cls.topLevel then
        dotted cls.simpleNames
      else cls.canonical := by
    rw [Names.reference, if_neg (show ¬cls.package = file.names.package from hother),
      if_neg (by simpa using hnamed)]
    rfl
  rw [htext]
  split
  · next hcontains => rw [if_neg (hdeclared hcontains)]
  · simp only [file.mem_imported_iff]

/-! ### Types of a file -/

namespace TypeDecl

mutual

/-- The type and all types in it. -/
def within : TypeDecl → List TypeDecl
  | t@⟨_, _, _, _, _, _, _, _, _, _, _, _, types⟩ => t :: withinAll types

/-- The types and all types in them. -/
def withinAll : List TypeDecl → List TypeDecl
  | [] => []
  | t :: ts => within t ++ withinAll ts

end

theorem within_eq (t : TypeDecl) : t.within = t :: withinAll t.types := by
  cases t
  rfl

mutual

/-- The names that are declared are those of the types there, companion objects left out. -/
theorem mem_declaredNames {name : String} : ∀ t : TypeDecl,
    name ∈ t.declaredNames ↔ ∃ u ∈ t.within, u.kind ≠ .companion ∧ u.name = name
  | ⟨kind, own, _, _, _, _, _, _, _, _, _, _, types⟩ => by
    simp only [declaredNames, within_eq, List.mem_append, mem_declaredNamesAll types, List.mem_cons,
      exists_eq_or_imp]
    refine or_congr ?_ Iff.rfl
    by_cases hkind : kind = .companion <;> simp [hkind, eq_comm]

theorem mem_declaredNamesAll {name : String} : ∀ ts : List TypeDecl,
    name ∈ declaredNamesAll ts ↔ ∃ u ∈ withinAll ts, u.kind ≠ .companion ∧ u.name = name
  | [] => by simp [declaredNamesAll, withinAll]
  | t :: ts => by
    simp only [declaredNamesAll, withinAll, List.mem_append, mem_declaredNames t,
      mem_declaredNamesAll ts, or_and_right, exists_or]

end

end TypeDecl

/-! ### What is printed -/

/-- The import block has a line for each import, in order, and ends with a blank line if it has any. -/
theorem SourceFile.importText_eq (file : SourceFile) : file.importText =
    Text.concat (file.importNames.map fun name => "import " ++ name ++ "\n") ++
      if file.importNames = [] then "" else "\n" := by
  rw [importText]
  cases hnames : file.importNames with
  | nil => rfl
  | cons name names => rfl

/-- Where a line has a piece for a class, the class is referred to, and the text of the line has the
reference in that place. -/
theorem SourceFile.prints_reference (file : SourceFile) {line : Line} (hline : line ∈ file.layout)
    {before after : List Piece} {scope : List String} {cls : ClassName}
    (hpieces : line.pieces = before ++ .reference scope cls :: after) :
    (scope, cls) ∈ lineReferences file.layout ∧
      Text.concat (line.pieces.map (Piece.textIn file.names)) =
        Text.concat (before.map (Piece.textIn file.names)) ++ file.names.reference scope cls ++
          Text.concat (after.map (Piece.textIn file.names)) := by
  constructor
  · rw [lineReferences, List.mem_flatMap]
    exact ⟨line, hline, by simp [hpieces]⟩
  · rw [hpieces, ← String.toList_inj]
    simp only [Text.toList_concat, String.toList_append, List.map_append, List.map_cons,
      List.flatMap_append, List.flatMap_cons, List.append_assoc]
    rfl

/-! ### Imports and references -/

/-- A class of another package that is not imported has lost its name: to a type of the file, or to
an import. -/
theorem SourceFile.clash_of_not_imported {file : SourceFile} {scope : List String} {cls : ClassName}
    (href : (scope, cls) ∈ lineReferences file.layout)
    (hforeign : isForeign file.package cls = true) (hnot : cls.topLevel ∉ file.imported) :
    (∃ t ∈ file.root.within, t.kind ≠ .companion ∧ t.name = cls.topLevel.simpleName) ∨
      ∃ other ∈ file.imported,
        other.simpleName = cls.topLevel.simpleName ∧ other ≠ cls.topLevel := by
  by_cases hdeclared : cls.topLevel.simpleName ∈ file.root.declaredNames
  · exact Or.inl ((TypeDecl.mem_declaredNames file.root).mp hdeclared)
  · have hturn : cls ∈ file.turns := file.mem_turns_iff.mpr ⟨scope, href⟩
    have htaken := file.areFor_imports.taken cls hturn hforeign hdeclared
    obtain ⟨other, hother⟩ := Option.ne_none_iff_exists'.mp htaken
    obtain ⟨hsimple, -⟩ := file.areFor_imports.origin _ _ hother
    have himported : other ∈ file.imported := by
      rwa [file.mem_imported_iff, hsimple]
    exact Or.inr ⟨other, himported, hsimple, fun heq => hnot (heq ▸ himported)⟩

/-- A reference to a class of another package is the class's simple names, the outermost class being
the only import of its name and no type of the file having that name, or else its canonical name, and
then a type of the file or another import has the name. The imports stand in order, each once; they
are classes of other packages, none of them of the unnamed one, and each serves a reference by simple
names. This is what is printed: the import block has a line for each of these names, and wherever a line
refers to a class its text has the reference there. -/
theorem imports_agree_with_references (file : SourceFile) :
    (∀ scope cls, (scope, cls) ∈ lineReferences file.layout →
      isForeign file.package cls = true →
      (file.names.reference scope cls = dotted cls.simpleNames ∧
        cls.topLevel ∈ file.imported ∧ cls.topLevel.canonical ∈ file.importNames ∧
        (∀ other ∈ file.imported,
          other.simpleName = cls.topLevel.simpleName → other = cls.topLevel) ∧
        ∀ t ∈ file.root.within, t.kind ≠ .companion → t.name ≠ cls.topLevel.simpleName) ∨
      (file.names.reference scope cls = cls.canonical ∧ cls.canonical ≠ dotted cls.simpleNames ∧
        ((∃ t ∈ file.root.within, t.kind ≠ .companion ∧ t.name = cls.topLevel.simpleName) ∨
          ∃ other ∈ file.imported,
            other.simpleName = cls.topLevel.simpleName ∧ other ≠ cls.topLevel))) ∧
    file.importNames.Pairwise (· < ·) ∧
    (∀ name, name ∈ file.importNames ↔ ∃ cls ∈ file.imported, cls.canonical = name) ∧
    (∀ cls ∈ file.imported, isForeign file.package cls = true ∧
      ∃ scope source, (scope, source) ∈ lineReferences file.layout ∧ source.topLevel = cls ∧
        file.names.reference scope source = dotted source.simpleNames) ∧
    (file.importText = Text.concat (file.importNames.map fun name => "import " ++ name ++ "\n") ++
      if file.importNames = [] then "" else "\n") ∧
    ∀ line ∈ file.layout, ∀ before scope cls after,
      line.pieces = before ++ .reference scope cls :: after →
        (scope, cls) ∈ lineReferences file.layout ∧
        Text.concat (line.pieces.map (Piece.textIn file.names)) =
          Text.concat (before.map (Piece.textIn file.names)) ++ file.names.reference scope cls ++
            Text.concat (after.map (Piece.textIn file.names)) := by
  obtain ⟨hordered, hmem⟩ := orderedNames_spec (file.imported.map ClassName.canonical)
  rw [← file.importNames_eq] at hordered hmem
  have hnames : ∀ name, name ∈ file.importNames ↔ ∃ cls ∈ file.imported, cls.canonical = name :=
    fun name => (hmem name).trans List.mem_map
  refine ⟨fun scope cls href hforeign => ?_, hordered, hnames, fun cls hcls => ?_,
    file.importText_eq, fun line hline before scope cls after hpieces =>
      file.prints_reference hline hpieces⟩
  · by_cases himported : cls.topLevel ∈ file.imported
    · have hlookup := file.mem_imported_iff.mp himported
      refine Or.inl ⟨?_, himported, (hnames _).mpr ⟨_, himported, rfl⟩, ?_, ?_⟩
      · rw [file.reference_of_foreign hforeign, if_pos himported]
      · intro other hother hsame
        rw [file.mem_imported_iff, hsame, hlookup] at hother
        exact (Option.some.inj hother).symm
      · intro t ht hkind hname
        exact (file.areFor_imports.origin _ _ hlookup).2.1
          ((TypeDecl.mem_declaredNames file.root).mpr ⟨t, ht, hkind, hname⟩)
    · refine Or.inr ⟨?_, canonical_ne_dotted (isForeign_iff.mp hforeign).2,
        SourceFile.clash_of_not_imported href hforeign himported⟩
      rw [file.reference_of_foreign hforeign, if_neg himported]
  · obtain ⟨-, -, source, hsource, hforeign, rfl⟩ :=
      file.areFor_imports.origin _ _ (file.mem_imported_iff.mp hcls)
    obtain ⟨scope, href⟩ := file.mem_turns_iff.mp hsource
    refine ⟨hforeign, scope, source, href, rfl, ?_⟩
    rw [file.reference_of_foreign hforeign, if_pos hcls]

/-- A class `A` with a type `B` in it, and references to classes of other packages: `I.J`, which is
imported, another `I` and a `B`. -/
def clashingFile : SourceFile where
  package := "test"
  root := {
    kind := .classDecl
    name := "A"
    properties := [
      { name := "j", type := .ofClass ⟨"other", ["I", "J"]⟩ },
      { name := "i", type := .ofClass ⟨"more", ["I"]⟩ },
      { name := "b", type := .ofClass ⟨"other", ["B"]⟩ }]
    types := [{ kind := .enumDecl, name := "B" }] }

/-- Only the first of the three names there is free. -/
theorem clashing_file_imports_one :
    clashingFile.importNames = ["other.I"] ∧ clashingFile.importText = "import other.I\n\n" ∧
      (["A"], ⟨"other", ["I", "J"]⟩) ∈ lineReferences clashingFile.layout ∧
      clashingFile.names.reference ["A"] ⟨"other", ["I", "J"]⟩ = "I.J" ∧
      (["A"], ⟨"more", ["I"]⟩) ∈ lineReferences clashingFile.layout ∧
      clashingFile.names.reference ["A"] ⟨"more", ["I"]⟩ = "more.I" ∧
      (["A"], ⟨"other", ["B"]⟩) ∈ lineReferences clashingFile.layout ∧
      clashingFile.names.reference ["A"] ⟨"other", ["B"]⟩ = "other.B" := by
  obtain ⟨hreferences, -, -, -, htext, -⟩ := imports_agree_with_references clashingFile
  have himported : clashingFile.imported = [⟨"other", ["I"]⟩] := by decide +kernel
  have hlines : lineReferences clashingFile.layout =
      [(["A"], ⟨"other", ["I", "J"]⟩), (["A"], ⟨"more", ["I"]⟩), (["A"], ⟨"other", ["B"]⟩)] := by
    decide +kernel
  have hnames : clashingFile.importNames = ["other.I"] := by decide +kernel
  refine ⟨hnames, by rw [htext, hnames]; rfl, by simp [hlines], ?_, by simp [hlines], ?_,
    by simp [hlines], ?_⟩
  · obtain ⟨hshort, -⟩ | ⟨-, -, hclash⟩ :=
      hreferences ["A"] ⟨"other", ["I", "J"]⟩ (by simp [hlines]) (by decide)
    · rw [hshort]
      decide +kernel
    · obtain ⟨t, ht, hkind, hname⟩ | ⟨other, hother, -, hne⟩ := hclash
      · have hdeclared := (TypeDecl.mem_declaredNames clashingFile.root).mpr ⟨t, ht, hkind, hname⟩
        exact absurd hdeclared (by decide)
      · rw [himported] at hother
        exact absurd (List.mem_singleton.mp hother) hne
  · obtain ⟨-, hmem, -⟩ | ⟨hcanonical, -⟩ :=
      hreferences ["A"] ⟨"more", ["I"]⟩ (by simp [hlines]) (by decide)
    · rw [himported] at hmem
      exact absurd hmem (by decide)
    · exact hcanonical
  · obtain ⟨-, hmem, -⟩ | ⟨hcanonical, -⟩ :=
      hreferences ["A"] ⟨"other", ["B"]⟩ (by simp [hlines]) (by decide)
    · rw [himported] at hmem
      exact absurd hmem (by decide)
    · exact hcanonical

end DataClassGen.Source
