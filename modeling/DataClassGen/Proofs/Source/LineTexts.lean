import DataClassGen.Proofs.Names
import DataClassGen.Proofs.Source.References

/-!
# The characters of a layout

The texts of a declaration that may have line feeds in them, its doc comments and the code of its
functions (`TypeDecl.openTexts`), and those that may not (`TypeDecl.lineTexts`). Around them the
layout writes no character that ends a line, but in front of the members of an annotation that has
several of them: whatever part of a line is laid out is free of such a character if the texts that
are written there are.
-/

namespace DataClassGen.Source

/-! ### Texts -/

/-- The texts in the name of a class. -/
def ClassName.texts (cls : ClassName) : List String := cls.package :: cls.simpleNames

namespace TypeName

mutual

/-- The texts in a type. -/
def texts : TypeName → List String
  | .named cls args _ => cls.texts ++ textsAll args
  | .parameter name bounds _ => name :: textsAll bounds

/-- The texts in types. -/
def textsAll : List TypeName → List String
  | [] => []
  | t :: ts => texts t ++ textsAll ts

end

end TypeName

/-- The texts in a part of code. String literals are not among them: they are escaped. -/
def CodePart.texts : CodePart → List String
  | .literal text => [text]
  | .name n => [n]
  | .string _ => []
  | .type t => t.texts

/-- The texts in code. -/
def Code.texts (code : Code) : List String := code.flatMap CodePart.texts

/-- The texts in an annotation. -/
def Annotation.texts (a : Annotation) : List String := a.cls.texts ++ a.members.flatMap Code.texts

/-- The texts in the declaration of a property, but for its doc comment. -/
def Property.texts (p : Property) : List String :=
  p.annotations.flatMap Annotation.texts ++ p.name :: p.type.texts ++
    p.initializer.toList.flatMap Code.texts

/-- The texts in a property of a constructor, but for its doc comment. -/
def ConstructorProperty.texts (p : ConstructorProperty) : List String :=
  p.property.texts ++ p.default.toList.flatMap Code.texts

/-- The texts in a parameter. -/
def Parameter.texts (p : Parameter) : List String :=
  p.name :: p.type.texts ++ p.default.toList.flatMap Code.texts

/-- The texts in a line of a body, if it is a comment. -/
def Statement.commentTexts : Statement → List String
  | .comment text => [text]
  | .code _ => []

/-- The texts in a line of a body, if it is code. -/
def Statement.codeTexts : Statement → List String
  | .comment _ => []
  | .code c => c.texts

namespace Function

/-- The texts in a function, but for its doc comment and the code of its body. -/
def texts (f : Function) : List String :=
  f.annotations.flatMap Annotation.texts ++ f.name :: f.typeParameters.flatMap TypeName.texts ++
    f.parameters.flatMap Parameter.texts ++ f.returns.toList.flatMap TypeName.texts ++
    f.body.flatMap Statement.commentTexts

/-- The doc comment of a function, and the texts in the code of its body. -/
def openTexts (f : Function) : List String := f.doc.toList ++ f.body.flatMap Statement.codeTexts

end Function

/-- The texts in a constant of an enum, but for its doc comment. -/
def EnumEntry.texts (e : EnumEntry) : List String := e.annotations.flatMap Annotation.texts ++ [e.name]

namespace TypeDecl

mutual

/-- The texts in a type that stay on their lines: all but the doc comments and the code of
functions. -/
def lineTexts : TypeDecl → List String
  | ⟨_, name, _, annotations, _, typeParameters, constructor, superclass, interfaces, entries,
      properties, functions, types⟩ =>
    annotations.flatMap Annotation.texts ++ name :: typeParameters.flatMap TypeName.texts ++
      constructor.toList.flatMap (fun c => c.properties.flatMap ConstructorProperty.texts) ++
      superclass.toList.flatMap TypeName.texts ++ interfaces.flatMap TypeName.texts ++
      entries.flatMap EnumEntry.texts ++ properties.flatMap Property.texts ++
      functions.flatMap Function.texts ++ lineTextsAll types

/-- The texts in types that stay on their lines. -/
def lineTextsAll : List TypeDecl → List String
  | [] => []
  | t :: ts => lineTexts t ++ lineTextsAll ts

end

mutual

/-- The texts in a type that may span lines: the doc comments and the code of functions. -/
def openTexts : TypeDecl → List String
  | ⟨_, _, _, _, doc, _, constructor, _, _, entries, properties, functions, types⟩ =>
    doc.toList ++
      constructor.toList.flatMap (fun c => c.properties.flatMap fun p => p.property.doc.toList) ++
      entries.flatMap (·.doc.toList) ++ properties.flatMap (·.doc.toList) ++
      functions.flatMap Function.openTexts ++ openTextsAll types

/-- The texts in types that may span lines. -/
def openTextsAll : List TypeDecl → List String
  | [] => []
  | t :: ts => openTexts t ++ openTextsAll ts

end

end TypeDecl

/-! ### Pieces without a character -/

/-- None of the texts has the character. -/
def Free (c : Char) (texts : List String) : Prop := ∀ text ∈ texts, c ∉ text.toList

instance (c : Char) (texts : List String) : Decidable (Free c texts) :=
  inferInstanceAs (Decidable (∀ text ∈ texts, c ∉ text.toList))

section Free

variable {c : Char}

@[simp] theorem free_nil : Free c [] := fun _ h => nomatch h

@[simp] theorem free_cons {text : String} {texts : List String} :
    Free c (text :: texts) ↔ c ∉ text.toList ∧ Free c texts := List.forall_mem_cons

@[simp] theorem free_append {texts texts' : List String} :
    Free c (texts ++ texts') ↔ Free c texts ∧ Free c texts' := List.forall_mem_append

theorem free_flatMap {α : Type} {f : α → List String} {as : List α} :
    Free c (as.flatMap f) ↔ ∀ a ∈ as, Free c (f a) := by
  simp only [Free, List.mem_flatMap]
  exact ⟨fun h a ha text htext => h text ⟨a, ha, htext⟩,
    fun h text ⟨a, ha, htext⟩ => h a ha text htext⟩

end Free

/-- The character ends lines. -/
def IsBreak (c : Char) : Prop := c = '\n' ∨ c = '\r'

/-- The texts of the pieces do not have the character. -/
def FreeIn (names : Names) (c : Char) (pieces : List Piece) : Prop :=
  ∀ piece ∈ pieces, c ∉ (piece.textIn names).toList

section Pieces

variable {names : Names} {c : Char}

@[simp] theorem freeIn_nil : FreeIn names c [] := fun _ h => nomatch h

@[simp] theorem freeIn_cons {piece : Piece} {pieces : List Piece} :
    FreeIn names c (piece :: pieces) ↔
      c ∉ (piece.textIn names).toList ∧ FreeIn names c pieces := List.forall_mem_cons

@[simp] theorem freeIn_append {pieces pieces' : List Piece} :
    FreeIn names c (pieces ++ pieces') ↔ FreeIn names c pieces ∧ FreeIn names c pieces' :=
  List.forall_mem_append

@[simp] theorem textIn_text (text : String) : (Piece.text text).textIn names = text := rfl

@[simp] theorem textIn_turn (cls : ClassName) : (Piece.turn cls).textIn names = "" := rfl

theorem FreeIn.separated {sep : String} {all : List (List Piece)} (hsep : c ∉ sep.toList)
    (h : ∀ pieces ∈ all, FreeIn names c pieces) : FreeIn names c (separated sep all) := by
  induction all with
  | nil => exact freeIn_nil
  | cons pieces rest ih =>
    obtain ⟨hpieces, hrest⟩ := List.forall_mem_cons.mp h
    cases rest with
    | nil => exact hpieces
    | cons next rest => exact freeIn_append.mpr ⟨hpieces, freeIn_cons.mpr ⟨hsep, ih hrest⟩⟩

theorem not_mem_escape (hc : c ∉ "`".toList) {name : String} (h : c ∉ name.toList) :
    c ∉ (escape name).toList := by
  rw [escape]
  split
  · simp only [String.toList_append, List.mem_append, not_or]
    exact ⟨⟨hc, h⟩, hc⟩
  · exact h

theorem not_mem_dotted (hc : c ∉ "`".toList) (hdot : c ≠ '.') {texts : List String} (h : Free c texts) :
    c ∉ (dotted texts).toList := by
  intro hmem
  rcases Text.mem_of_mem_joinWith hmem with hsep | ⟨piece, hpiece, hmem⟩
  · exact hdot (by simpa using hsep)
  · obtain ⟨name, hname, rfl⟩ := List.mem_map.mp hpiece
    exact not_mem_escape hc (h name hname) hmem

theorem not_mem_canonical (hdot : c ≠ '.') {cls : ClassName} (h : Free c cls.texts) :
    c ∉ cls.canonical.toList := by
  obtain ⟨hpackage, hnames⟩ := free_cons.mp h
  have hjoined : c ∉ (Text.joinWith "." cls.simpleNames).toList := by
    intro hmem
    rcases Text.mem_of_mem_joinWith hmem with hsep | ⟨name, hname, hmem⟩
    · exact hdot (by simpa using hsep)
    · exact hnames name hname hmem
  rw [ClassName.canonical]
  split
  · exact hjoined
  · simp [hpackage, hdot, hjoined]

theorem IsBreak.ne_of (hc : IsBreak c) {other : Char} (hfeed : other ≠ '\n')
    (hreturn : other ≠ '\r') : c ≠ other := by
  rcases hc with rfl | rfl
  · exact Ne.symm hfeed
  · exact Ne.symm hreturn

/-- What is always written the same has no such character. -/
theorem IsBreak.not_mem (hc : IsBreak c) (text : String)
    (h : '\n' ∉ text.toList ∧ '\r' ∉ text.toList) : c ∉ text.toList := by
  rcases hc with rfl | rfl
  · exact h.1
  · exact h.2

theorem IsBreak.not_mem_escape (hc : IsBreak c) {name : String} (h : c ∉ name.toList) :
    c ∉ (escape name).toList :=
  Source.not_mem_escape (hc.not_mem "`" (by decide)) h

theorem IsBreak.not_mem_reference (hc : IsBreak c) (names : Names) (scope : List String)
    {cls : ClassName} (h : Free c cls.texts) : c ∉ (names.reference scope cls).toList := by
  have hdot : c ≠ '.' := hc.ne_of (by decide) (by decide)
  have hdotted {texts : List String} (h : Free c texts) : c ∉ (dotted texts).toList :=
    not_mem_dotted (hc.not_mem "`" (by decide)) hdot h
  have hnames := (free_cons.mp h).2
  rw [Names.reference]
  split
  · exact hdotted fun name hname => hnames name (List.mem_of_mem_drop hname)
  · split
    · exact hdotted hnames
    · split
      · exact not_mem_canonical hdot h
      · split
        · exact hdotted hnames
        · exact not_mem_canonical hdot h

theorem not_mem_stringLiteral (hc : IsBreak c) (value : String) :
    c ∉ (stringLiteral value).toList := by
  have hquote : c ≠ '"' := hc.ne_of (by decide) (by decide)
  have hchar : ∀ d, c ∉ stringChar d := by
    intro d
    rcases hc with rfl | rfl <;> unfold stringChar <;> split <;>
      simp_all [eq_comm]
  rw [stringLiteral, String.toList_ofList]
  simp only [List.cons_append, List.mem_cons, List.mem_append, List.mem_flatMap, List.not_mem_nil,
    or_false, not_or]
  refine ⟨hquote, ?_, hquote⟩
  rintro ⟨d, -, hd⟩
  exact hchar d hd

theorem not_mem_modifierText (hc : IsBreak c) (modifiers : List DeclModifier) :
    c ∉ (modifierText modifiers).toList := by
  intro hmem
  rcases Text.mem_of_mem_joinWith hmem with hsep | ⟨text, htext, hmem⟩
  · simp at hsep
  · obtain ⟨m, -, rfl⟩ := List.mem_map.mp htext
    revert hmem
    rcases hc with rfl | rfl <;> cases m <;> decide

variable (scope : List String)

mutual

theorem freeIn_typePieces (hc : IsBreak c) : ∀ t : TypeName, Free c t.texts →
    FreeIn names c (typePieces scope t)
  | .named cls args isNullable, h => by
    obtain ⟨hcls, hargs⟩ := free_append.mp h
    have hlist := FreeIn.separated (hc.not_mem ", " (by decide))
      (freeIn_typePiecesAll hc args hargs)
    have hreference := hc.not_mem_reference names scope hcls
    rw [typePieces]
    rcases hc with rfl | rfl <;> cases args <;> cases isNullable <;>
      simp [Piece.textIn, hreference, hlist]
  | .parameter name _ isNullable, h => by
    have hname := hc.not_mem_escape (free_cons.mp h).1
    rw [typePieces]
    rcases hc with rfl | rfl <;> cases isNullable <;> simp [hname]

theorem freeIn_typePiecesAll (hc : IsBreak c) : ∀ ts : List TypeName,
    Free c (TypeName.textsAll ts) → ∀ pieces ∈ typePiecesAll scope ts, FreeIn names c pieces
  | [], _ => fun _ h => nomatch h
  | t :: ts, h =>
    List.forall_mem_cons.mpr ⟨freeIn_typePieces hc t (free_append.mp h).1,
      freeIn_typePiecesAll hc ts (free_append.mp h).2⟩

end

theorem freeIn_codePieces (hc : IsBreak c) {code : Code} (h : Free c code.texts) :
    FreeIn names c (codePieces scope code) := by
  intro piece hpiece
  obtain ⟨part, hpart, hpiece⟩ := List.mem_flatMap.mp hpiece
  have hpart := free_flatMap.mp h part hpart
  cases part with
  | literal text =>
    obtain rfl := List.mem_singleton.mp hpiece
    exact (free_cons.mp hpart).1
  | name name =>
    obtain rfl := List.mem_singleton.mp hpiece
    exact hc.not_mem_escape (free_cons.mp hpart).1
  | string value =>
    obtain rfl := List.mem_singleton.mp hpiece
    exact not_mem_stringLiteral hc value
  | type t => exact freeIn_typePieces scope hc t hpart piece hpiece

theorem freeIn_valuePieces (hc : IsBreak c) {value : Option Code}
    (h : Free c (value.toList.flatMap Code.texts)) : FreeIn names c (valuePieces scope value) := by
  cases value with
  | none => exact freeIn_nil
  | some code =>
    refine freeIn_cons.mpr ⟨hc.not_mem " = " (by decide), freeIn_codePieces scope hc ?_⟩
    simpa using h

theorem freeIn_typeParameterPieces (hc : IsBreak c) {parameters : List TypeName}
    (h : Free c (parameters.flatMap TypeName.texts)) :
    FreeIn names c (typeParameterPieces scope parameters) := by
  have hdeclared : ∀ pieces ∈ parameters.map (declaredParameterPieces scope),
      FreeIn names c pieces := by
    intro pieces hpieces
    obtain ⟨t, ht, rfl⟩ := List.mem_map.mp hpieces
    have ht := free_flatMap.mp h t ht
    rcases t with ⟨cls, args, isNullable⟩ | ⟨name, _ | ⟨bound, bounds⟩, isNullable⟩
    · exact freeIn_typePieces scope hc _ ht
    · exact freeIn_cons.mpr ⟨hc.not_mem_escape (free_cons.mp ht).1, freeIn_nil⟩
    · obtain ⟨hname, hbounds⟩ := free_cons.mp ht
      refine freeIn_cons.mpr ⟨?_, freeIn_typePieces scope hc bound (free_append.mp hbounds).1⟩
      have hname := hc.not_mem_escape hname
      rcases hc with rfl | rfl <;> simp [hname]
  have hlist := FreeIn.separated (hc.not_mem ", " (by decide)) hdeclared
  rw [typeParameterPieces]
  split
  · exact freeIn_nil
  · rcases hc with rfl | rfl <;> simp [hlist]

theorem freeIn_propertyPieces (hc : IsBreak c) {p : Property} (h : Free c p.texts) :
    FreeIn names c (propertyPieces scope p) := by
  simp only [Property.texts, free_append, free_cons] at h
  have hname := hc.not_mem_escape h.1.2.1
  refine freeIn_cons.mpr ⟨?_, freeIn_typePieces scope hc p.type h.1.2.2⟩
  have hmodifiers := not_mem_modifierText hc p.modifiers
  rcases hc with rfl | rfl <;> cases p.isMutable <;> simp [hname, hmodifiers]

theorem freeIn_parameterPieces (hc : IsBreak c) {p : Parameter} (h : Free c p.texts) :
    FreeIn names c (parameterPieces scope p) := by
  simp only [Parameter.texts, free_append, free_cons] at h
  have hname := hc.not_mem_escape h.1.1
  have hmodifiers := not_mem_modifierText hc p.modifiers
  refine freeIn_cons.mpr ⟨?_, freeIn_append.mpr ⟨freeIn_typePieces scope hc p.type h.1.2,
    freeIn_valuePieces scope hc h.2⟩⟩
  rcases hc with rfl | rfl <;> simp [hname, hmodifiers]

theorem freeIn_signaturePieces (hc : IsBreak c) {f : Function} (h : Free c f.texts) :
    FreeIn names c (signaturePieces scope f) := by
  simp only [Function.texts, free_append, free_cons] at h
  obtain ⟨⟨⟨⟨-, hname, htypeParameters⟩, hparameters⟩, hreturns⟩, -⟩ := h
  have hname := hc.not_mem_escape hname
  have hmodifiers := not_mem_modifierText hc f.modifiers
  have htypeParameters : FreeIn names c (typeParameterPieces scope f.typeParameters) :=
    freeIn_typeParameterPieces scope hc htypeParameters
  have hlist : FreeIn names c (separated ", " (f.parameters.map (parameterPieces scope))) := by
    refine FreeIn.separated (hc.not_mem ", " (by decide)) fun pieces hpieces => ?_
    obtain ⟨p, hp, rfl⟩ := List.mem_map.mp hpieces
    exact freeIn_parameterPieces scope hc (free_flatMap.mp hparameters p hp)
  have hspaced : FreeIn names c (if (typeParameterPieces scope f.typeParameters).isEmpty then []
      else typeParameterPieces scope f.typeParameters ++ [.text " "]) := by
    split
    · exact freeIn_nil
    · exact freeIn_append.mpr ⟨htypeParameters,
        freeIn_cons.mpr ⟨hc.not_mem " " (by decide), freeIn_nil⟩⟩
  rw [signaturePieces]
  simp only [List.cons_append, freeIn_cons, freeIn_append]
  refine ⟨?_, ⟨hspaced, hname, hc.not_mem "(" (by decide), hlist⟩, hc.not_mem ")" (by decide), ?_⟩
  · rcases hc with rfl | rfl <;> simp [hmodifiers]
  · split
    · exact freeIn_nil
    · next type hf =>
      rw [hf] at hreturns
      exact freeIn_cons.mpr ⟨hc.not_mem ": " (by decide),
        freeIn_typePieces scope hc type (by simpa using hreturns)⟩

theorem freeIn_supertypePieces (hc : IsBreak c) {superclass : Option TypeName}
    {interfaces : List TypeName} (hsuperclass : Free c (superclass.toList.flatMap TypeName.texts))
    (hinterfaces : Free c (interfaces.flatMap TypeName.texts)) :
    FreeIn names c (supertypePieces scope superclass interfaces) := by
  have hinterfaces : ∀ pieces ∈ interfaces.map (typePieces scope), FreeIn names c pieces := by
    intro pieces hpieces
    obtain ⟨t, ht, rfl⟩ := List.mem_map.mp hpieces
    exact freeIn_typePieces scope hc t (free_flatMap.mp hinterfaces t ht)
  have hlist {all : List (List Piece)} (hall : ∀ pieces ∈ all, FreeIn names c pieces) :
      FreeIn names c (if all.isEmpty then [] else .text " : " :: separated ", " all) := by
    split
    · exact freeIn_nil
    · exact freeIn_cons.mpr ⟨hc.not_mem " : " (by decide),
        FreeIn.separated (hc.not_mem ", " (by decide)) hall⟩
  refine hlist (List.forall_mem_append.mpr ⟨?_, hinterfaces⟩)
  cases superclass with
  | none => exact fun _ h => nomatch h
  | some type =>
    have htype : Free c type.texts := by simpa using hsuperclass
    exact List.forall_mem_singleton.mpr (freeIn_append.mpr
      ⟨freeIn_typePieces scope hc type htype,
        freeIn_cons.mpr ⟨hc.not_mem "()" (by decide), freeIn_nil⟩⟩)

theorem freeIn_turnsOf (pieces : List Piece) : FreeIn names c (turnsOf pieces) := by
  intro piece hpiece
  obtain ⟨other, -, hother⟩ := List.mem_filterMap.mp hpiece
  cases other with
  | reference scope cls =>
    obtain rfl := Option.some.inj hother
    simp
  | text _ => cases hother
  | turn _ => cases hother

theorem freeIn_annotationPieces (hc : IsBreak c) {a : Annotation} (h : Free c a.texts)
    (hfew : c ≠ '\n' ∨ a.members.length ≤ 1) : FreeIn names c (annotationPieces scope a) := by
  obtain ⟨hcls, hmembers⟩ := free_append.mp h
  have hreference := hc.not_mem_reference names scope hcls
  have hmembers : ∀ pieces ∈ a.members.map fun m => Piece.text "  " :: codePieces scope m,
      FreeIn names c pieces := by
    intro pieces hpieces
    obtain ⟨m, hm, rfl⟩ := List.mem_map.mp hpieces
    exact freeIn_cons.mpr ⟨hc.not_mem "  " (by decide),
      freeIn_codePieces scope hc (free_flatMap.mp hmembers m hm)⟩
  obtain ⟨cls, members, onGetter⟩ := a
  have hopening : c ∉ ((Piece.text (if onGetter then "@get:" else "@")).textIn names).toList := by
    cases onGetter
    · exact hc.not_mem "@" (by decide)
    · exact hc.not_mem "@get:" (by decide)
  refine freeIn_cons.mpr ⟨hopening, freeIn_cons.mpr ⟨hreference, ?_⟩⟩
  match members, hmembers, hfew with
  | [], _, _ => exact freeIn_nil
  | [member], hmembers, _ =>
    have hmember := (freeIn_cons.mp (hmembers _ List.mem_cons_self)).2
    exact freeIn_cons.mpr ⟨hc.not_mem "(" (by decide), freeIn_append.mpr ⟨hmember,
      freeIn_cons.mpr ⟨hc.not_mem ")" (by decide), freeIn_nil⟩⟩⟩
  | first :: second :: rest, hmembers, hfew =>
    have hfeed : c ≠ '\n' := hfew.resolve_right (by simp)
    obtain rfl : c = '\r' := hc.resolve_left hfeed
    have hlist := FreeIn.separated (show '\r' ∉ ",\n".toList by decide) hmembers
    exact freeIn_cons.mpr ⟨show '\r' ∉ "(\n".toList by decide, freeIn_append.mpr ⟨hlist,
      freeIn_cons.mpr ⟨show '\r' ∉ "\n)".toList by decide, freeIn_nil⟩⟩⟩

end Pieces

end DataClassGen.Source
