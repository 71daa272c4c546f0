import DataClassGen.Proofs.Source.Cleaning
import DataClassGen.Proofs.Source.Imports
import DataClassGen.Proofs.Source.LineTexts

/-!
# Cleaning up written files

Cleaning up sees a text and knows nothing of what its lines stand for. That it leaves the code of a
file alone follows from how lines begin that are written. A line that is not broken has a plain
start: a modifier but `public`, a keyword, a brace, a doc comment or a constant of an enum, whose
comma tells it from both words (`IsPlainStart`). The lines of an annotation begin with its at sign, a
blank or a parenthesis, and those of functions are set in. So no line but those for the imports is
taken for an import, and an explicit `public` can only be one that stands in the code of annotations
and functions (`IsSafe`, `isSafe_typeLines`).

`SourceFile.emit_keeps_lines` puts this together for all files whose line feeds are where they may
be. The last section has two files for its limits: a `public` that none of the texts has, and lines
of an import one of which only becomes an import itself by being cleaned up.
-/

namespace DataClassGen.Source

/-! ### The beginnings of lines -/

/-- The line is neither marked as public nor an import. -/
def IsPlainStart (line : List Char) : Prop :=
  ¬ IsMarkedPublic line ∧ ¬ "import ".toList <+: line

theorem isPlainStart_nil : IsPlainStart [] := by
  constructor <;> simp [IsMarkedPublic, Text.trimLeft]

theorem isPlainStart_cons {first : Char} {rest : List Char} (hblank : Text.isBlank first = false)
    (hpublic : first = 'p' → rest.head? ≠ some 'u') (himport : first = 'i' → rest.head? ≠ some 'm') :
    IsPlainStart (first :: rest) := by
  have htrim : Text.trimLeft (first :: rest) = first :: rest :=
    List.dropWhile_cons_of_neg (by simp [hblank])
  constructor
  · rw [IsMarkedPublic, htrim]
    rintro ⟨tail, htail⟩
    obtain ⟨rfl, rfl⟩ := List.cons.inj htail
    exact hpublic rfl rfl
  · rintro ⟨tail, htail⟩
    obtain ⟨rfl, rfl⟩ := List.cons.inj htail
    exact himport rfl rfl

/-- What begins so is neither marked as public nor an import, whatever follows. -/
def startsPlain : List Char → Bool
  | [] => false
  | [first] => !Text.isBlank first && first != 'p' && first != 'i'
  | first :: second :: _ =>
    !Text.isBlank first && !(first == 'p' && second == 'u') && !(first == 'i' && second == 'm')

theorem isPlainStart_append {start : List Char} (h : startsPlain start = true) (rest : List Char) :
    IsPlainStart (start ++ rest) := by
  unfold startsPlain at h
  split at h
  · cases h
  · simp only [Bool.and_eq_true, Bool.not_eq_true', bne_iff_ne] at h
    exact isPlainStart_cons h.1.1 (fun heq => absurd heq h.1.2) fun heq => absurd heq h.2
  · simp only [Bool.and_eq_true, Bool.not_eq_true', Bool.and_eq_false_iff, beq_eq_false_iff_ne] at h
    refine isPlainStart_cons h.1.1 (fun heq => ?_) fun heq => ?_
    · simpa using h.1.2.resolve_left (not_not_intro heq)
    · simpa using h.2.resolve_left (not_not_intro heq)

/-- The modifiers in front of a declaration do not have `public` among them. -/
theorem isPlainStart_modifierText (modifiers : List DeclModifier) {start : List Char}
    (h : startsPlain start = true) (rest : List Char) :
    IsPlainStart ((modifierText modifiers).toList ++ start ++ rest) := by
  have hwritten : ∀ m ∈ DeclModifier.all.filter fun m => modifiers.contains m && m != .publicAccess,
      startsPlain m.keyword.toList = true := by
    intro m hm
    have hne := (Bool.and_eq_true_iff.mp (List.mem_filter.mp hm).2).2
    cases m <;> first | rfl | exact absurd hne (by decide)
  rw [modifierText, Text.toList_concat]
  generalize DeclModifier.all.filter _ = written at hwritten ⊢
  cases written with
  | nil => exact isPlainStart_append h rest
  | cons m written =>
    simp only [List.map_cons, List.flatMap_cons, String.toList_append, List.append_assoc]
    exact isPlainStart_append (hwritten m List.mem_cons_self) _

theorem blank_not_mem_of_isPlainIdentifier {name : String} (h : isPlainIdentifier name = true) :
    ' ' ∉ name.toList := by
  have hletter : Text.isLetter ' ' = false := by decide +kernel
  have hnumber : Text.isNumber ' ' = false := by decide +kernel
  rw [isPlainIdentifier] at h
  split at h
  · cases h
  · next first rest hname =>
    rw [hname]
    simp only [Bool.and_eq_true, Bool.or_eq_true, beq_iff_eq, List.all_eq_true] at h
    obtain ⟨⟨hfirst, -⟩, hrest⟩ := h
    intro hmem
    rcases List.mem_cons.mp hmem with rfl | hmem
    · simp [hletter] at hfirst
    · simpa [hletter, hnumber] using hrest ' ' hmem

/-- A constant of an enum is followed by a comma. -/
theorem isPlainStart_entry (name : String) : IsPlainStart ((escape name).toList ++ [',']) := by
  rw [escape]
  split
  · rw [String.toList_append, String.toList_append, List.append_assoc, List.append_assoc]
    exact isPlainStart_append (show startsPlain "`".toList = true from rfl) _
  · next hplain =>
    -- both words are followed by a blank, and there is none
    have hblank : ' ' ∉ name.toList ++ [','] := by
      simp only [Bool.or_eq_true, not_or, Bool.not_eq_true', Bool.not_eq_false] at hplain
      simpa using blank_not_mem_of_isPlainIdentifier hplain.2
    constructor
    · intro hmarked
      exact hblank ((List.dropWhile_sublist _).subset (hmarked.subset (by decide)))
    · exact fun himport => hblank (himport.subset (by decide))

/-- A line of a doc comment. -/
theorem isPlainStart_doc (rest : List Char) : IsPlainStart (' ' :: '*' :: rest) := by
  constructor
  · rw [IsMarkedPublic, show Text.trimLeft (' ' :: '*' :: rest) = '*' :: rest from rfl]
    rintro ⟨tail, htail⟩
    exact absurd (List.cons.inj htail).1 (by decide)
  · rintro ⟨tail, htail⟩
    exact absurd (List.cons.inj htail).1 (by decide)

/-! ### Lines that are laid out -/

/-- The characters that are written for some pieces. -/
def charsIn (names : Names) (pieces : List Piece) : List Char :=
  pieces.flatMap fun piece => (piece.textIn names).toList

section Chars

variable {names : Names}

@[simp] theorem charsIn_nil : charsIn names [] = [] := rfl

@[simp] theorem charsIn_text (text : String) (pieces : List Piece) :
    charsIn names (.text text :: pieces) = text.toList ++ charsIn names pieces := rfl

@[simp] theorem charsIn_append (pieces pieces' : List Piece) :
    charsIn names (pieces ++ pieces') = charsIn names pieces ++ charsIn names pieces' :=
  List.flatMap_append

theorem FreeIn.not_mem {c : Char} {pieces : List Piece} (h : FreeIn names c pieces) :
    c ∉ charsIn names pieces := fun hmem =>
  have ⟨piece, hpiece, hc⟩ := List.mem_flatMap.mp hmem
  h piece hpiece hc

end Chars

/-- The line, written, neither ends early nor is taken for what it is not: one that is not broken
is a single line with a plain start, and each line of a broken one has a plain start where it is
not set in, and at least no explicit `public` in the first place. -/
inductive IsSafe (names : Names) : Line → Prop
  | flat (depth : Nat) (pieces : List Piece) (free : ∀ c, IsBreak c → FreeIn names c pieces)
      (start : IsPlainStart (charsIn names pieces)) : IsSafe names ⟨depth, pieces, false⟩
  | annotated (depth : Nat) (pieces : List Piece) (free : FreeIn names '\r' pieces)
      (starts : ∀ line ∈ Text.cut '\n' (charsIn names pieces),
        line.head? = some '@' ∨ line.head? = some ' ' ∨ line.head? = some ')') :
      IsSafe names ⟨depth, pieces, true⟩
  | code (depth : Nat) (pieces : List Piece) (free : FreeIn names '\r' pieces) :
      IsSafe names ⟨depth + 1, pieces, true⟩

/-- The texts stay on their lines. -/
def Flat (texts : List String) : Prop := ∀ c, IsBreak c → Free c texts

section Flat

theorem flat_iff {texts : List String} : Flat texts ↔ Free '\n' texts ∧ Free '\r' texts := by
  refine ⟨fun h => ⟨h '\n' (Or.inl rfl), h '\r' (Or.inr rfl)⟩, fun h c hc => ?_⟩
  rcases hc with rfl | rfl
  · exact h.1
  · exact h.2

instance (texts : List String) : Decidable (Flat texts) := decidable_of_iff _ flat_iff.symm

theorem flat_append {texts texts' : List String} :
    Flat (texts ++ texts') ↔ Flat texts ∧ Flat texts' := by
  simp only [Flat, free_append]
  exact ⟨fun h => ⟨fun c hc => (h c hc).1, fun c hc => (h c hc).2⟩,
    fun h c hc => ⟨h.1 c hc, h.2 c hc⟩⟩

theorem flat_cons {text : String} {texts : List String} :
    Flat (text :: texts) ↔ (∀ c, IsBreak c → c ∉ text.toList) ∧ Flat texts := by
  simp only [Flat, free_cons]
  exact ⟨fun h => ⟨fun c hc => (h c hc).1, fun c hc => (h c hc).2⟩,
    fun h c hc => ⟨h.1 c hc, h.2 c hc⟩⟩

theorem Flat.of_mem {α : Type} {f : α → List String} {as : List α} (h : Flat (as.flatMap f))
    {a : α} (ha : a ∈ as) : Flat (f a) := fun c hc => free_flatMap.mp (h c hc) a ha

end Flat

section Safe

variable {names : Names}

theorem isSafe_plain (depth : Nat) {text : String} (free : ∀ c, IsBreak c → c ∉ text.toList)
    (start : IsPlainStart text.toList) : IsSafe names (.plain depth text) := by
  refine .flat depth _ (fun c hc => freeIn_cons.mpr ⟨free c hc, freeIn_nil⟩) ?_
  simpa using start

theorem isSafe_blank : IsSafe names .blank := .flat 0 [] (fun _ _ => freeIn_nil) isPlainStart_nil

theorem isPlainStart_declared (modifiers : List DeclModifier) (start : String)
    (h : startsPlain start.toList = true) (pieces : List Piece) :
    IsPlainStart (charsIn names (.text (modifierText modifiers ++ start) :: pieces)) := by
  rw [charsIn_text, String.toList_append]
  exact isPlainStart_modifierText modifiers h _

/-- What is always written the same. -/
theorem isSafe_fixed (depth : Nat) (text : String) (free : '\n' ∉ text.toList ∧ '\r' ∉ text.toList)
    (start : startsPlain text.toList = true) : IsSafe names (.plain depth text) :=
  isSafe_plain depth (fun _ hc => hc.not_mem text free)
    (by simpa using isPlainStart_append start [])

theorem not_mem_of_mem_textLines {text line : String} (h : '\r' ∉ text.toList)
    (hline : line ∈ Text.textLines text) {c : Char} (hc : IsBreak c) : c ∉ line.toList := by
  obtain ⟨cs, hcs, rfl⟩ := List.mem_map.mp hline
  have hcs := Text.isLine_of_mem_cut h (Text.mem_cut_of_mem_lines h hcs)
  rw [String.toList_ofList]
  rcases hc with rfl | rfl
  · exact hcs.1
  · exact hcs.2

theorem isSafe_docLines (depth : Nat) {doc : Option String} (h : Free '\r' doc.toList) :
    ∀ line ∈ docLines depth doc, IsSafe names line := by
  cases doc with
  | none => exact fun _ hline => nomatch hline
  | some doc =>
    have hdoc : '\r' ∉ doc.toList := by simpa using h
    intro line hline
    simp only [docLines, List.mem_cons, List.mem_append, List.mem_map, List.not_mem_nil,
      or_false] at hline
    obtain (rfl | ⟨text, htext, rfl⟩) | rfl := hline
    · exact isSafe_fixed depth "/**" (by decide) rfl
    · split
      · exact isSafe_plain depth (fun _ hc => hc.not_mem " *" (by decide)) (isPlainStart_doc [])
      · refine isSafe_plain depth (fun c hc => ?_) ?_
        · have := not_mem_of_mem_textLines hdoc htext hc
          rcases hc with rfl | rfl <;> simp [this]
        · rw [String.toList_append]
          exact isPlainStart_doc _
    · exact isSafe_plain depth (fun _ hc => hc.not_mem " */" (by decide)) (isPlainStart_doc _)

/-- The members of an annotation that stand on lines of their own, and its closing parenthesis. -/
theorem starts_memberLines (scope : List String) {members : List Code} (hne : members ≠ [])
    (h : ∀ m ∈ members, FreeIn names '\n' (codePieces scope m)) :
    ∀ line ∈ Text.cut '\n' (charsIn names (separated ",\n"
      (members.map fun m => .text "  " :: codePieces scope m) ++ [.text "\n)"])),
      line.head? = some ' ' ∨ line.head? = some ')' := by
  induction members with
  | nil => exact absurd rfl hne
  | cons m members ih =>
    obtain ⟨hm, hmembers⟩ := List.forall_mem_cons.mp h
    have hfree := hm.not_mem
    cases members with
    | nil =>
      have hcut : Text.cut '\n' ((' ' :: ' ' :: charsIn names (codePieces scope m)) ++
          '\n' :: [')']) = (' ' :: ' ' :: charsIn names (codePieces scope m)) :: [[')']] :=
        Text.cut_append_sep (by simpa using hfree) [')']
      have hchars : charsIn names (separated ",\n"
          ([m].map fun m => .text "  " :: codePieces scope m) ++ [.text "\n)"]) =
          (' ' :: ' ' :: charsIn names (codePieces scope m)) ++ '\n' :: [')'] := by
        simp [separated]
      rw [hchars, hcut]
      simp
    | cons next rest =>
      have ih := ih (List.cons_ne_nil _ _) hmembers
      have hchars : charsIn names (separated ",\n"
          ((m :: next :: rest).map fun m => .text "  " :: codePieces scope m) ++ [.text "\n)"]) =
          (' ' :: ' ' :: charsIn names (codePieces scope m) ++ [',']) ++ '\n' ::
            charsIn names (separated ",\n"
              ((next :: rest).map fun m => .text "  " :: codePieces scope m) ++ [.text "\n)"]) := by
        simp [separated]
      rw [hchars, Text.cut_append_sep (by simpa using hfree)]
      exact List.forall_mem_cons.mpr ⟨Or.inl rfl, ih⟩

/-- The lines of an annotation: the annotation itself, then the members and the parenthesis. -/
theorem starts_annotationPieces (scope : List String) {a : Annotation} (h : Free '\n' a.texts) :
    ∀ line ∈ Text.cut '\n' (charsIn names (annotationPieces scope a)),
      line.head? = some '@' ∨ line.head? = some ' ' ∨ line.head? = some ')' := by
  have hbreak : IsBreak '\n' := Or.inl rfl
  by_cases hfew : a.members.length ≤ 1
  · have hfree : FreeIn names '\n' (annotationPieces scope a) :=
      freeIn_annotationPieces scope hbreak h (Or.inr hfew)
    rw [Text.cut_of_not_mem hfree.not_mem]
    refine List.forall_mem_singleton.mpr (Or.inl ?_)
    rw [annotationPieces, charsIn_text]
    cases a.onGetter <;> simp
  · obtain ⟨hcls, hmembers⟩ := free_append.mp h
    have hreference := hbreak.not_mem_reference names scope hcls
    have hmembers : ∀ m ∈ a.members, FreeIn names '\n' (codePieces scope m) := fun m hm =>
      freeIn_codePieces scope hbreak (free_flatMap.mp hmembers m hm)
    obtain ⟨cls, members, onGetter⟩ := a
    rcases members with _ | ⟨first, _ | ⟨second, rest⟩⟩
    · exact absurd (by simp) hfew
    · exact absurd (by simp) hfew
    · have hlines := starts_memberLines scope (List.cons_ne_nil first (second :: rest)) hmembers
      have hchars : charsIn names (annotationPieces scope ⟨cls, first :: second :: rest, onGetter⟩) =
          ((if onGetter then "@get:" else "@").toList ++ (names.reference scope cls).toList ++
            ['(']) ++ '\n' :: charsIn names (separated ",\n"
              ((first :: second :: rest).map fun m => .text "  " :: codePieces scope m) ++
                [.text "\n)"]) := by
        simp [annotationPieces, charsIn, Piece.textIn]
      have hopening : '\n' ∉ (if onGetter then "@get:" else "@").toList := by
        cases onGetter <;> decide
      rw [hchars, Text.cut_append_sep (by simp [hopening, hreference])]
      refine List.forall_mem_cons.mpr ⟨Or.inl ?_, fun line hline => Or.inr (hlines line hline)⟩
      cases onGetter <;> simp

theorem isSafe_annotationLines (depth : Nat) (scope : List String) {annotations : List Annotation}
    (h : Flat (annotations.flatMap Annotation.texts)) :
    ∀ line ∈ annotationLines depth scope annotations, IsSafe names line := by
  intro line hline
  obtain ⟨a, ha, rfl⟩ := List.mem_map.mp hline
  have ha : ∀ c, IsBreak c → Free c a.texts := fun c hc => free_flatMap.mp (h c hc) a ha
  exact .annotated depth _
    (freeIn_annotationPieces scope (Or.inr rfl) (ha '\r' (Or.inr rfl)) (Or.inl (by decide)))
    (starts_annotationPieces scope (ha '\n' (Or.inl rfl)))

theorem isSafe_property (depth : Nat) (scope : List String) {p : Property} {value : Option Code}
    {last : List Piece} (h : Flat p.texts) (hvalue : Flat (value.toList.flatMap Code.texts))
    (hlast : ∀ c, IsBreak c → FreeIn names c last) :
    IsSafe names ⟨depth, propertyPieces scope p ++ valuePieces scope value ++ last, false⟩ := by
  refine .flat depth _ (fun c hc => freeIn_append.mpr ⟨freeIn_append.mpr
    ⟨freeIn_propertyPieces scope hc (h c hc), freeIn_valuePieces scope hc (hvalue c hc)⟩,
    hlast c hc⟩) ?_
  have hstart : startsPlain (if p.isMutable then "var " else "val ").toList = true := by
    cases p.isMutable <;> decide
  have := isPlainStart_modifierText p.modifiers hstart ((escape p.name ++ ": ").toList ++
    charsIn names (typePieces scope p.type ++ valuePieces scope value ++ last))
  simpa [propertyPieces] using this

theorem isSafe_propertyLines (depth : Nat) (scope : List String) {p : Property} (h : Flat p.texts)
    (hdoc : Free '\r' p.doc.toList) : ∀ line ∈ propertyLines depth scope p, IsSafe names line := by
  have hparts := h
  simp only [Property.texts, flat_append] at hparts
  refine List.forall_mem_append.mpr ⟨List.forall_mem_append.mpr ⟨isSafe_docLines depth hdoc,
    isSafe_annotationLines depth scope hparts.1.1⟩, List.forall_mem_singleton.mpr ?_⟩
  have hlast (c : Char) (_ : IsBreak c) : FreeIn names c [] := freeIn_nil
  simpa using isSafe_property depth scope h hparts.2 hlast

theorem isSafe_constructorLines (depth : Nat) (scope : List String)
    {properties : List ConstructorProperty}
    (h : Flat (properties.flatMap ConstructorProperty.texts))
    (hdoc : Free '\r' (properties.flatMap fun p => p.property.doc.toList)) :
    ∀ line ∈ constructorLines depth scope properties, IsSafe names line := by
  have hlines : ∀ (isLast : Bool), ∀ p ∈ properties,
      ∀ line ∈ constructorPropertyLines depth scope isLast p, IsSafe names line := by
    intro isLast p hp
    obtain ⟨hproperty, hdefault⟩ := flat_append.mp (h.of_mem hp)
    have hparts := hproperty
    simp only [Property.texts, flat_append] at hparts
    refine List.forall_mem_append.mpr ⟨List.forall_mem_append.mpr
      ⟨isSafe_docLines depth (free_flatMap.mp hdoc p hp),
        isSafe_annotationLines depth scope hparts.1.1⟩, List.forall_mem_singleton.mpr ?_⟩
    refine isSafe_property depth scope hproperty hdefault fun c hc => ?_
    cases isLast with
    | true => exact freeIn_nil
    | false => exact freeIn_cons.mpr ⟨hc.not_mem "," (by decide), freeIn_nil⟩
  clear h hdoc
  induction properties with
  | nil => simp [constructorLines]
  | cons p rest ih =>
    cases rest with
    | nil => exact hlines true p List.mem_cons_self
    | cons q rest =>
      exact List.forall_mem_append.mpr ⟨hlines false p List.mem_cons_self,
        ih fun isLast q hq => hlines isLast q (List.mem_cons_of_mem _ hq)⟩

theorem isSafe_entryLines (depth : Nat) (scope : List String) {e : EnumEntry} (h : Flat e.texts)
    (hdoc : Free '\r' e.doc.toList) : ∀ line ∈ entryLines depth scope e, IsSafe names line := by
  obtain ⟨hannotations, hname⟩ := flat_append.mp h
  refine List.forall_mem_append.mpr ⟨List.forall_mem_append.mpr ⟨isSafe_docLines depth hdoc,
    isSafe_annotationLines depth scope hannotations⟩, List.forall_mem_singleton.mpr ?_⟩
  refine isSafe_plain depth (fun c hc => ?_) ?_
  · have := hc.not_mem_escape ((flat_cons.mp hname).1 c hc)
    rcases hc with rfl | rfl <;> simp [this]
  · rw [String.toList_append]
    exact isPlainStart_entry e.name

/-- A body that only returns a value has the characters of the value. -/
theorem free_of_returned? {c : Char} {body : List Statement} {value : Code}
    (h : returned? body = some value) (hbody : Free c (body.flatMap Statement.codeTexts)) :
    Free c value.texts := by
  unfold returned? at h
  split at h
  · next code =>
    have hcode : Free c code.texts := by simpa [Statement.codeTexts] using hbody
    unfold Code.after? at h
    split at h
    · next text rest =>
      obtain ⟨text', htext', rfl⟩ := Option.map_eq_some_iff.mp h
      obtain ⟨htext, hrest⟩ : c ∉ text.toList ∧ Free c (Code.texts rest) := by
        simpa [Code.texts, CodePart.texts] using hcode
      rw [Text.eq_append_of_after? htext', String.toList_append, List.mem_append, not_or] at htext
      rw [Code.lit]
      split
      · exact hrest
      · exact free_cons.mpr ⟨htext.2, hrest⟩
    · cases h
  · cases h

theorem isSafe_statementLine (depth : Nat) (scope : List String) {statement : Statement}
    (h : Flat statement.commentTexts) (hopen : Free '\r' statement.codeTexts) :
    IsSafe names (statementLine (depth + 1) scope statement) := by
  cases statement with
  | code code => exact .code depth _ (freeIn_codePieces scope (Or.inr rfl) hopen)
  | comment text =>
    rw [statementLine]
    split
    · exact isSafe_fixed (depth + 1) "//" (by decide) rfl
    · refine isSafe_plain (depth + 1) (fun c hc => ?_) ?_
      · have := (flat_cons.mp h).1 c hc
        rcases hc with rfl | rfl <;> simp [this]
      · rw [String.toList_append]
        exact isPlainStart_append (show startsPlain "// ".toList = true from rfl) _

theorem isSafe_functionLines (depth : Nat) (scope : List String) {f : Function} (h : Flat f.texts)
    (hopen : Free '\r' f.openTexts) :
    ∀ line ∈ functionLines (depth + 1) scope f, IsSafe names line := by
  have hparts := h
  simp only [Function.texts, flat_append, flat_cons] at hparts
  obtain ⟨hdoc, hbody⟩ := free_append.mp hopen
  refine List.forall_mem_append.mpr ⟨List.forall_mem_append.mpr ⟨isSafe_docLines _ hdoc,
    isSafe_annotationLines _ scope hparts.1.1.1.1⟩, ?_⟩
  have hsignature (c : Char) (hc : IsBreak c) : FreeIn names c (signaturePieces scope f) :=
    freeIn_signaturePieces scope hc (h c hc)
  cases hreturned : returned? f.body with
  | some value =>
    exact List.forall_mem_singleton.mpr (.code depth _ (freeIn_append.mpr
      ⟨hsignature '\r' (Or.inr rfl), freeIn_cons.mpr ⟨show '\r' ∉ " = ".toList by decide,
        freeIn_codePieces scope (Or.inr rfl) (free_of_returned? hreturned hbody)⟩⟩))
  | none =>
    refine List.forall_mem_cons.mpr ⟨.flat _ _ (fun c hc => freeIn_append.mpr
      ⟨hsignature c hc, freeIn_cons.mpr ⟨hc.not_mem " \x7b" (by decide), freeIn_nil⟩⟩) ?_,
      List.forall_mem_append.mpr ⟨?_, List.forall_mem_singleton.mpr
        (isSafe_fixed _ "\x7d" (by decide) rfl)⟩⟩
    · rw [signaturePieces]
      exact isPlainStart_declared f.modifiers "fun " rfl _
    · intro line hline
      obtain ⟨statement, hstatement, rfl⟩ := List.mem_map.mp hline
      exact isSafe_statementLine _ scope (hparts.2.of_mem hstatement)
        (free_flatMap.mp hbody statement hstatement)

theorem startsPlain_introduction (kind : TypeDeclKind) (name : String) :
    startsPlain (introduction kind name).toList = true := by
  cases kind with
  | classDecl => rw [introduction, String.toList_append]; rfl
  | enumDecl => rw [introduction, String.toList_append]; rfl
  | companion => rw [introduction]; rfl

/-- The lines from the introduction of a type to its opening brace. -/
theorem isSafe_headLines (depth : Nat) {inside : List String} {start : String} {opening : List Piece}
    {supertypes : List Piece} {modifiers : List DeclModifier} {hasMembers : Bool}
    {constructor : Option Constructor} (hstart : startsPlain start.toList = true)
    (hopening : ∀ c, IsBreak c →
      FreeIn names c (.text (modifierText modifiers ++ start) :: opening))
    (hsupertypes : ∀ c, IsBreak c → FreeIn names c supertypes)
    (hproperties : Flat (constructor.toList.flatMap fun c =>
      c.properties.flatMap ConstructorProperty.texts))
    (hdocs : Free '\r' (constructor.toList.flatMap fun c =>
      c.properties.flatMap fun p => p.property.doc.toList)) :
    ∀ line ∈ headLines depth inside (.text (modifierText modifiers ++ start) :: opening) supertypes
      hasMembers constructor, IsSafe names line := by
  have hbrace (c : Char) (hc : IsBreak c) : FreeIn names c (headLines.brace hasMembers) := by
    cases hasMembers with
    | true => exact freeIn_cons.mpr ⟨hc.not_mem " \x7b" (by decide), freeIn_nil⟩
    | false => exact freeIn_nil
  cases constructor with
  | none =>
    refine List.forall_mem_singleton.mpr (.flat depth _ (fun c hc => ?_)
      (isPlainStart_declared modifiers start hstart _))
    exact freeIn_append.mpr ⟨freeIn_append.mpr ⟨hopening c hc, hsupertypes c hc⟩, hbrace c hc⟩
  | some constructor =>
    -- the keyword may stand behind modifiers, and what opens the parameters behind it
    have hkeyword (c : Char) (hc : IsBreak c) (ending : String) (hending : c ∉ ending.toList) :
        c ∉ ((if (modifierText constructor.modifiers).isEmpty then ""
          else " " ++ modifierText constructor.modifiers ++ "constructor") ++ ending).toList := by
      have := not_mem_modifierText hc constructor.modifiers
      rw [String.toList_append, List.mem_append, not_or]
      refine ⟨?_, hending⟩
      split
      · simp
      · rcases hc with rfl | rfl <;> simp [this]
    rw [headLines]
    split
    · refine List.forall_mem_singleton.mpr (.flat depth _ (fun c hc => ?_)
        (isPlainStart_declared modifiers start hstart _))
      exact freeIn_append.mpr ⟨freeIn_append.mpr ⟨hopening c hc, freeIn_cons.mpr
        ⟨hkeyword c hc "()" (hc.not_mem "()" (by decide)), hsupertypes c hc⟩⟩, hbrace c hc⟩
    · have hproperties : Flat (constructor.properties.flatMap ConstructorProperty.texts) := by
        simpa using hproperties
      have hdocs : Free '\r' (constructor.properties.flatMap fun p => p.property.doc.toList) := by
        simpa using hdocs
      refine List.forall_mem_append.mpr ⟨List.forall_mem_cons.mpr ⟨?_,
        isSafe_constructorLines (depth + 1) inside hproperties hdocs⟩,
        List.forall_mem_singleton.mpr ?_⟩
      · refine .flat depth _ (fun c hc => ?_) (isPlainStart_declared modifiers start hstart _)
        exact freeIn_append.mpr ⟨hopening c hc, freeIn_cons.mpr
          ⟨hkeyword c hc "(" (hc.not_mem "(" (by decide)), freeIn_nil⟩⟩
      · refine .flat depth _ (fun c hc => ?_) (isPlainStart_append
          (show startsPlain ")".toList = true from rfl) _)
        exact freeIn_cons.mpr ⟨hc.not_mem ")" (by decide),
          freeIn_append.mpr ⟨hsupertypes c hc, hbrace c hc⟩⟩

/-- The lines between the braces of a type, if those of the types in there are safe. -/
theorem isSafe_memberLines (depth : Nat) (scope : List String) {t : TypeDecl}
    (hentries : Flat (t.entries.flatMap EnumEntry.texts))
    (hproperties : Flat (t.properties.flatMap Property.texts))
    (hfunctions : Flat (t.functions.flatMap Function.texts))
    (hentryDocs : Free '\r' (t.entries.flatMap (·.doc.toList)))
    (hpropertyDocs : Free '\r' (t.properties.flatMap (·.doc.toList)))
    (hfunctionsOpen : Free '\r' (t.functions.flatMap Function.openTexts))
    (htypes : ∀ member ∈ typeLinesAll (depth + 1) scope t.types, ∀ line ∈ member,
      IsSafe names line) :
    ∀ line ∈ memberLines depth scope t, IsSafe names line := by
  intro line hline
  rw [memberLines] at hline
  split at hline
  · simp only [List.mem_append, List.mem_singleton] at hline
    rcases hline with ((hline | hline) | hline) | rfl
    · obtain ⟨e, he, hline⟩ := List.mem_flatMap.mp hline
      have he : e ∈ t.entries := by
        split at he
        · exact he
        · cases he
      exact isSafe_entryLines (depth + 1) scope (hentries.of_mem he) (free_flatMap.mp hentryDocs e he)
        line hline
    · split at hline
      · rw [List.mem_singleton.mp hline]
        exact isSafe_fixed (depth + 1) ";" (by decide) rfl
      · cases hline
    · rcases mem_spaced hline with rfl | ⟨member, hmember, hline⟩
      · exact isSafe_blank
      · simp only [List.mem_append, List.mem_map] at hmember
        rcases hmember with (⟨p, hp, rfl⟩ | ⟨f, hf, rfl⟩) | hmember
        · exact isSafe_propertyLines (depth + 1) scope (hproperties.of_mem hp)
            (free_flatMap.mp hpropertyDocs p hp) line hline
        · exact isSafe_functionLines depth scope (hfunctions.of_mem hf)
            (free_flatMap.mp hfunctionsOpen f hf) line hline
        · exact htypes member hmember line hline
    · exact isSafe_fixed depth "\x7d" (by decide) rfl
  · cases hline

mutual

/-- Every line of a type is safe. -/
theorem isSafe_typeLines (depth : Nat) (scope : List String) : ∀ t : TypeDecl,
    Flat t.lineTexts → Free '\r' t.openTexts → ∀ line ∈ typeLines depth scope t, IsSafe names line
  | ⟨kind, name, modifiers, annotations, doc, typeParameters, constructor, superclass, interfaces,
      entries, properties, functions, types⟩, h, hopen => by
    simp only [TypeDecl.lineTexts, flat_append, flat_cons] at h
    simp only [TypeDecl.openTexts, free_append] at hopen
    obtain ⟨⟨⟨⟨⟨⟨⟨⟨hannotations, hname, htypeParameters⟩, hconstructor⟩, hsuperclass⟩, hinterfaces⟩,
      hentries⟩, hproperties⟩, hfunctions⟩, htypes⟩ := h
    obtain ⟨⟨⟨⟨⟨hdoc, hconstructorDocs⟩, hentryDocs⟩, hpropertyDocs⟩, hfunctionsOpen⟩, htypesOpen⟩ :=
      hopen
    have hsupertypes (c : Char) (hc : IsBreak c) :
        FreeIn names c (supertypePieces scope superclass interfaces) :=
      freeIn_supertypePieces scope hc (hsuperclass c hc) (hinterfaces c hc)
    rw [typeLines_eq]
    refine List.forall_mem_append.mpr ⟨List.forall_mem_append.mpr ⟨List.forall_mem_append.mpr
      ⟨isSafe_docLines depth hdoc, isSafe_annotationLines depth scope hannotations⟩,
      isSafe_headLines depth (startsPlain_introduction kind name) (fun c hc => ?_) hsupertypes
        hconstructor hconstructorDocs⟩,
      isSafe_memberLines depth _ hentries hproperties hfunctions hentryDocs hpropertyDocs
        hfunctionsOpen (isSafe_typeLinesAll (depth + 1) _ types htypes htypesOpen)⟩
    have hmodifiers := not_mem_modifierText hc modifiers
    have hintroduction : c ∉ (introduction kind name).toList := by
      have := hc.not_mem_escape (hname c hc)
      cases kind <;> rcases hc with rfl | rfl <;> simp [introduction, this]
    refine freeIn_cons.mpr ⟨?_, freeIn_append.mpr
      ⟨freeIn_typeParameterPieces scope hc (htypeParameters c hc), freeIn_turnsOf _⟩⟩
    simpa using ⟨hmodifiers, hintroduction⟩

/-- Every line of the types is safe. -/
theorem isSafe_typeLinesAll (depth : Nat) (scope : List String) : ∀ ts : List TypeDecl,
    Flat (TypeDecl.lineTextsAll ts) → Free '\r' (TypeDecl.openTextsAll ts) →
      ∀ member ∈ typeLinesAll depth scope ts, ∀ line ∈ member, IsSafe names line
  | [], _, _ => fun _ hmember => nomatch hmember
  | t :: ts, h, hopen =>
    List.forall_mem_cons.mpr
      ⟨isSafe_typeLines depth scope t (flat_append.mp h).1 (free_append.mp hopen).1,
        isSafe_typeLinesAll depth scope ts (flat_append.mp h).2 (free_append.mp hopen).2⟩

end

end Safe

/-! ### The lines of a file -/

/-- A line set in by `depth` steps, unless it is empty. -/
def setInLine (depth : Nat) (line : List Char) : List Char :=
  if line.isEmpty then [] else List.replicate (2 * depth) ' ' ++ line

/-- The lines that are written for a line of the layout. -/
def Line.written (names : Names) (line : Line) : List (List Char) :=
  if line.isBroken then (Text.cut '\n' (charsIn names line.pieces)).map (setInLine line.depth)
  else [setInLine line.depth (charsIn names line.pieces)]

theorem toList_setIn (depth : Nat) (text : String) :
    (setIn depth text).toList = setInLine depth text.toList ++ ['\n'] := by
  rw [setIn, setInLine]
  by_cases h : text.isEmpty = true
  · have : text.toList.isEmpty = true := by simpa using h
    simp [h, this]
  · have : ¬ text.toList.isEmpty = true := by simpa using h
    simp [h, this]

theorem toList_textIn (names : Names) (line : Line) :
    (line.textIn names).toList = Text.ended (line.written names) := by
  have hchars : (Text.concat (line.pieces.map (Piece.textIn names))).toList =
      charsIn names line.pieces := by
    rw [Text.toList_concat, List.flatMap_map, charsIn]
  rw [Line.textIn, Line.written]
  split
  · rw [Text.toList_concat, List.flatMap_map, Text.split, List.flatMap_map, Text.ended,
      List.flatMap_map]
    simp only [toList_setIn, String.toList_ofList, hchars]
  · simp only [toList_setIn, hchars, Text.ended, List.flatMap_cons, List.flatMap_nil, List.append_nil]

namespace SourceFile

/-- The lines for the package. -/
def packageLines (file : SourceFile) : List (List Char) :=
  if file.package.isEmpty then []
  else [("package " ++ dotted (Text.split '.' file.package)).toList, []]

/-- The lines for the imports. -/
def importLines (file : SourceFile) : List (List Char) :=
  if file.importNames.isEmpty then []
  else file.importNames.map (fun name => ("import " ++ name).toList) ++ [[]]

/-- The lines for the type. -/
def declarationLines (file : SourceFile) : List (List Char) :=
  file.layout.flatMap (Line.written file.names)

/-- The text of a file is made of the lines for the package, the imports and the type. -/
theorem toList_render (file : SourceFile) : file.render.toList =
    Text.ended (file.packageLines ++ file.importLines ++ file.declarationLines) := by
  have hpackage : file.packageText.toList = Text.ended file.packageLines := by
    rw [packageText, packageLines]
    split
    · rfl
    · simp [Text.ended]
  have himports : file.importText.toList = Text.ended file.importLines := by
    rw [importText, importLines]
    split
    · rfl
    · simp [Text.ended, Text.toList_concat, List.flatMap_map]
  have htypes : (Text.concat (file.layout.map (Line.textIn file.names))).toList =
      Text.ended file.declarationLines := by
    rw [Text.toList_concat, List.flatMap_map, declarationLines, Text.ended, List.flatMap_assoc]
    simp only [toList_textIn, Text.ended]
  rw [render, String.toList_append, String.toList_append, hpackage, himports, htypes, Text.ended,
    Text.ended, Text.ended, Text.ended, List.flatMap_append, List.flatMap_append]

/-- Carriage returns stand nowhere, and line feeds in the doc comments and in the code of functions
only, but not in the imports for the classes named there. -/
structure IsLineWise (file : SourceFile) : Prop where
  package : Flat [file.package]
  imports : Flat file.importNames
  lineTexts : Flat file.root.lineTexts
  openTexts : Free '\r' file.root.openTexts

variable {file : SourceFile}

theorem IsLineWise.isSafe (h : file.IsLineWise) : ∀ line ∈ file.layout, IsSafe file.names line :=
  isSafe_typeLines 0 [] file.root h.lineTexts h.openTexts

end SourceFile

section Written

variable {names : Names}

theorem isMarkedPublic_setInLine (depth : Nat) (line : List Char) :
    IsMarkedPublic (setInLine depth line) ↔ IsMarkedPublic line := by
  rw [setInLine]
  split
  · next h => rw [List.isEmpty_iff.mp h]
  · rw [IsMarkedPublic, trimLeft_append_of_blanks, IsMarkedPublic]
    intro c hc
    rw [List.eq_of_mem_replicate hc]
    decide

theorem isLine_setInLine (depth : Nat) {line : List Char} (h : Text.IsLine line) :
    Text.IsLine (setInLine depth line) := by
  rw [setInLine]
  split
  · exact ⟨List.not_mem_nil, List.not_mem_nil⟩
  · simp only [Text.IsLine, List.mem_append, List.mem_replicate, not_or]
    exact ⟨⟨by simp, h.1⟩, ⟨by simp, h.2⟩⟩

theorem head?_of_starts {start line : List Char} {first : Char} (hfirst : start.head? = some first)
    (h : start <+: line) : line.head? = some first := by
  obtain ⟨rest, rfl⟩ := h
  rw [List.head?_append, hfirst, Option.some_or]

/-- A line that is set in begins with nothing but blanks. -/
theorem prefix_of_prefix_setInLine {depth : Nat} {first : Char} {start line : List Char}
    (hfirst : start.head? = some first) (hblank : first ≠ ' ') (h : start <+: setInLine depth line) :
    depth = 0 ∧ start <+: line := by
  have hhead := head?_of_starts hfirst h
  by_cases hempty : line.isEmpty = true
  · rw [setInLine, if_pos hempty] at hhead
    cases hhead
  · rw [setInLine, if_neg hempty] at h hhead
    cases depth with
    | zero => exact ⟨rfl, h⟩
    | succ depth =>
      rw [Nat.mul_succ, List.replicate_succ] at hhead
      exact absurd (Option.some.inj hhead).symm hblank

theorem isMarkedPublic_of_starts {line : List Char} (h : "public ".toList <+: line) :
    IsMarkedPublic line := by
  obtain ⟨rest, rfl⟩ := h
  exact ⟨rest, rfl⟩

/-- What is written for a safe line is a line, and neither an import nor marked as public in the
first place. -/
theorem IsSafe.of_mem_written {line : Line} {l : List Char} (h : IsSafe names line)
    (hl : l ∈ line.written names) :
    Text.IsLine l ∧ ¬ "import ".toList <+: l ∧ ¬ "public ".toList <+: l := by
  have hpublic {depth : Nat} {cs : List Char} (hstarts : "public ".toList <+: setInLine depth cs) :=
    prefix_of_prefix_setInLine rfl (by decide) hstarts
  have himport {depth : Nat} {cs : List Char} (hstarts : "import ".toList <+: setInLine depth cs) :=
    prefix_of_prefix_setInLine rfl (by decide) hstarts
  cases h with
  | flat depth pieces free start =>
    obtain rfl := List.mem_singleton.mp hl
    have hfree {c : Char} (hc : IsBreak c) := (free c hc).not_mem
    refine ⟨isLine_setInLine depth ⟨hfree (Or.inl rfl), hfree (Or.inr rfl)⟩,
      fun hstarts => start.2 (himport hstarts).2, fun hstarts => start.1 ?_⟩
    exact isMarkedPublic_of_starts (hpublic hstarts).2
  | annotated depth pieces free starts =>
    obtain ⟨cs, hcs, rfl⟩ := List.mem_map.mp hl
    refine ⟨isLine_setInLine depth (Text.isLine_of_mem_cut free.not_mem hcs), fun hstarts => ?_,
      fun hstarts => ?_⟩
    · have hfirst : "import ".toList.head? = some 'i' := rfl
      have hhead := starts _ hcs
      rw [head?_of_starts hfirst (himport hstarts).2] at hhead
      exact absurd hhead (by decide)
    · have hfirst : "public ".toList.head? = some 'p' := rfl
      have hhead := starts _ hcs
      rw [head?_of_starts hfirst (hpublic hstarts).2] at hhead
      exact absurd hhead (by decide)
  | code depth pieces free =>
    obtain ⟨cs, hcs, rfl⟩ := List.mem_map.mp hl
    exact ⟨isLine_setInLine (depth + 1) (Text.isLine_of_mem_cut free.not_mem hcs),
      fun hstarts => absurd (himport hstarts).1 (Nat.succ_ne_zero depth),
      fun hstarts => absurd (hpublic hstarts).1 (Nat.succ_ne_zero depth)⟩

/-- Only a broken line can have an explicit `public`. -/
theorem IsSafe.isBroken_of_marked {line : Line} {l : List Char} (h : IsSafe names line)
    (hl : l ∈ line.written names) (hmarked : IsMarkedPublic l) :
    line.isBroken = true ∧ ∃ cs ∈ Text.cut '\n' (charsIn names line.pieces), IsMarkedPublic cs := by
  have hbroken {depth : Nat} {pieces : List Piece}
      (hl : l ∈ (Text.cut '\n' (charsIn names pieces)).map (setInLine depth)) :
      ∃ cs ∈ Text.cut '\n' (charsIn names pieces), IsMarkedPublic cs := by
    obtain ⟨cs, hcs, rfl⟩ := List.mem_map.mp hl
    exact ⟨cs, hcs, (isMarkedPublic_setInLine _ _).mp hmarked⟩
  cases h with
  | flat depth pieces free start =>
    obtain rfl := List.mem_singleton.mp hl
    exact absurd ((isMarkedPublic_setInLine _ _).mp hmarked) start.1
  | annotated depth pieces free starts => exact ⟨rfl, hbroken hl⟩
  | code depth pieces free => exact ⟨rfl, hbroken hl⟩

theorem prefix_of_isRedundantImport {package : String} {line : List Char}
    (h : isRedundantImport package line = true) : "import ".toList <+: line := by
  simp only [isRedundantImport, Bool.and_eq_true, Text.beginsWith, List.isPrefixOf_iff_prefix,
    String.toList_ofList] at h
  exact h.1.trans (List.rdropWhile_prefix _ _)

end Written

namespace SourceFile

variable {file : SourceFile}

/-- A line of a file is one line; unless it is an import, it is not taken for one and has no explicit
`public` in the first place. -/
theorem IsLineWise.of_mem_lines (h : file.IsLineWise) {l : List Char}
    (hl : l ∈ file.packageLines ++ file.importLines ++ file.declarationLines) :
    Text.IsLine l ∧ ((∃ name ∈ file.importNames, l = ("import " ++ name).toList) ∨
      ¬ "import ".toList <+: l ∧ ¬ "public ".toList <+: l) := by
  have hempty : Text.IsLine ([] : List Char) := ⟨List.not_mem_nil, List.not_mem_nil⟩
  have hnil : ¬ "import ".toList <+: ([] : List Char) ∧ ¬ "public ".toList <+: ([] : List Char) := by
    simp
  have hline {start name : String} (hstart : '\n' ∉ start.toList ∧ '\r' ∉ start.toList)
      (hname : ∀ c, IsBreak c → c ∉ name.toList) : Text.IsLine (start ++ name).toList := by
    rw [String.toList_append]
    simp only [Text.IsLine, List.mem_append, not_or]
    exact ⟨⟨hstart.1, hname '\n' (Or.inl rfl)⟩, hstart.2, hname '\r' (Or.inr rfl)⟩
  rcases List.mem_append.mp hl with hl | hl
  · rcases List.mem_append.mp hl with hl | hl
    · rw [packageLines] at hl
      split at hl
      · cases hl
      · obtain rfl | hl := List.mem_cons.mp hl
        · have hstart := isPlainStart_append (show startsPlain "package ".toList = true from rfl)
            (dotted (Text.split '.' file.package)).toList
          rw [← String.toList_append] at hstart
          refine ⟨hline (by decide) fun c hc => ?_, Or.inr ⟨hstart.2, fun hstarts =>
            hstart.1 (isMarkedPublic_of_starts hstarts)⟩⟩
          refine not_mem_dotted (hc.not_mem "`" (by decide)) (hc.ne_of (by decide) (by decide)) ?_
          exact fun piece hpiece hmem => (free_cons.mp (h.package c hc)).1
            (Text.mem_of_mem_split hpiece hmem)
        · rw [List.mem_singleton.mp hl]
          exact ⟨hempty, Or.inr hnil⟩
    · rw [importLines] at hl
      split at hl
      · cases hl
      · rcases List.mem_append.mp hl with hl | hl
        · obtain ⟨name, hname, rfl⟩ := List.mem_map.mp hl
          exact ⟨hline (by decide) fun c hc => h.imports c hc name hname,
            Or.inl ⟨name, hname, rfl⟩⟩
        · rw [List.mem_singleton.mp hl]
          exact ⟨hempty, Or.inr hnil⟩
  · obtain ⟨line, hline, hl⟩ := List.mem_flatMap.mp hl
    obtain ⟨hone, hstart⟩ := (h.isSafe line hline).of_mem_written hl
    exact ⟨hone, Or.inr hstart⟩

theorem IsLineWise.lines_render (h : file.IsLineWise) : Text.lines file.render.toList =
    file.packageLines ++ file.importLines ++ file.declarationLines := by
  rw [toList_render, Text.lines_ended fun l hl => (h.of_mem_lines hl).1]

theorem not_isMarkedPublic_import (name : String) : ¬ IsMarkedPublic ("import " ++ name).toList := by
  have htrim : Text.trimLeft ("import " ++ name).toList = ("import " ++ name).toList := by
    rw [String.toList_append]
    rfl
  rw [IsMarkedPublic, htrim, String.toList_append]
  intro hstarts
  have hhead := head?_of_starts (show "public ".toList.head? = some 'p' from rfl) hstarts
  rw [List.head?_append, show "import ".toList.head? = some 'i' from rfl, Option.some_or] at hhead
  exact absurd hhead (by decide)

/-- A line only becomes an import if it begins with `public`. -/
theorem not_import_cleanLine {l : List Char} (himport : ¬ "import ".toList <+: l)
    (hpublic : ¬ "public ".toList <+: l) : ¬ "import ".toList <+: cleanLine l := by
  intro hstarts
  have hhead := head?_of_starts (show "import ".toList.head? = some 'i' from rfl) hstarts
  have hindent := indent_append l
  rw [cleanLine] at hstarts hhead
  split at hstarts
  · simp at hstarts
  · next hfull =>
    rw [if_neg hfull] at hhead
    cases hblanks : l.takeWhile Text.isBlank with
    | nil =>
      rw [hblanks, List.nil_append] at hindent hstarts
      rw [hindent, dropPublic_of_not_prefix hpublic] at hstarts
      exact himport hstarts
    | cons c blanks =>
      have hc : Text.isBlank c = true :=
        List.mem_takeWhile_imp (l := l) (hblanks ▸ List.mem_cons_self)
      rw [hblanks, List.cons_append, List.head?_cons] at hhead
      rw [Option.some.inj hhead] at hc
      exact absurd hc (by decide)

/-- Only lines for imports are redundant. -/
theorem IsLineWise.import_of_redundant (h : file.IsLineWise) {l : List Char}
    (hl : l ∈ Text.lines file.render.toList) (hredundant : isRedundantImport file.package l = true) :
    ∃ name ∈ file.importNames, l = ("import " ++ name).toList := by
  rw [h.lines_render] at hl
  exact (h.of_mem_lines hl).2.resolve_right fun hnot =>
    hnot.1 (prefix_of_isRedundantImport hredundant)

/-- No line becomes a redundant import by being cleaned. -/
theorem IsLineWise.not_redundant_cleanLine (h : file.IsLineWise) {l : List Char}
    (hl : l ∈ keptLines file.package file.render.toList) :
    isRedundantImport file.package (cleanLine l) = false := by
  obtain ⟨hl, hkept⟩ := List.mem_filter.mp hl
  rw [h.lines_render] at hl
  rcases (h.of_mem_lines hl).2 with ⟨name, -, rfl⟩ | ⟨himport, hpublic⟩
  · have hfull : ¬ Text.isBlankLine ("import " ++ name).toList = true := by
      rw [String.toList_append]
      exact fun hblank => absurd (List.all_eq_true.mp hblank 'i' (by simp)) (by decide)
    rw [cleanLine_of_not_marked (not_isMarkedPublic_import name), emptied, if_neg hfull]
    simpa using hkept
  · by_contra hredundant
    exact not_import_cleanLine himport hpublic
      (prefix_of_isRedundantImport (Bool.eq_true_of_not_eq_false hredundant))

/-- An explicit `public` stands in broken lines only. -/
theorem IsLineWise.marked_iff (h : file.IsLineWise) :
    (∃ l ∈ keptLines file.package file.render.toList, IsMarkedPublic l) ↔
      ∃ line ∈ file.layout, line.isBroken = true ∧
        ∃ cs ∈ Text.cut '\n' (charsIn file.names line.pieces), IsMarkedPublic cs := by
  have hnil : ¬ IsMarkedPublic [] := isPlainStart_nil.1
  constructor
  · rintro ⟨l, hl, hmarked⟩
    have hl := (List.mem_filter.mp hl).1
    rw [h.lines_render] at hl
    rcases List.mem_append.mp hl with hl | hl
    · rcases List.mem_append.mp hl with hl | hl
      · rw [packageLines] at hl
        split at hl
        · cases hl
        · obtain rfl | hl := List.mem_cons.mp hl
          · rw [String.toList_append] at hmarked
            exact absurd hmarked
              (isPlainStart_append (show startsPlain "package ".toList = true from rfl) _).1
          · exact absurd (List.mem_singleton.mp hl ▸ hmarked) hnil
      · rw [importLines] at hl
        split at hl
        · cases hl
        · rcases List.mem_append.mp hl with hl | hl
          · obtain ⟨name, -, rfl⟩ := List.mem_map.mp hl
            exact absurd hmarked (not_isMarkedPublic_import name)
          · exact absurd (List.mem_singleton.mp hl ▸ hmarked) hnil
    · obtain ⟨line, hline, hl⟩ := List.mem_flatMap.mp hl
      exact ⟨line, hline, (h.isSafe line hline).isBroken_of_marked hl hmarked⟩
  · rintro ⟨line, hline, hbroken, cs, hcs, hmarked⟩
    have hwritten : setInLine line.depth cs ∈ line.written file.names := by
      rw [Line.written, if_pos hbroken]
      exact List.mem_map_of_mem hcs
    have himport := ((h.isSafe line hline).of_mem_written hwritten).2.1
    refine ⟨_, List.mem_filter.mpr ⟨?_, ?_⟩, (isMarkedPublic_setInLine line.depth cs).mpr hmarked⟩
    · rw [h.lines_render]
      exact List.mem_append_right _ (List.mem_flatMap_of_mem hline hwritten)
    · rw [Bool.not_eq_true']
      exact Bool.eq_false_of_not_eq_true fun hredundant =>
        himport (prefix_of_isRedundantImport hredundant)

theorem IsLineWise.return_not_mem (h : file.IsLineWise) : '\r' ∉ file.render.toList := by
  rw [toList_render]
  intro hmem
  obtain ⟨l, hl, hmem⟩ := List.mem_flatMap.mp hmem
  rcases List.mem_append.mp hmem with hmem | hmem
  · exact (h.of_mem_lines hl).1.2 hmem
  · exact absurd (List.mem_singleton.mp hmem) (by decide)

/-! ### What goes out -/

/-- A type is introduced on a line of its own, with more than blanks. -/
theorem exists_introduction (names : Names) (depth : Nat) (scope : List String) (t : TypeDecl) :
    ∃ line ∈ typeLines depth scope t, line.isBroken = false ∧ 'c' ∈ charsIn names line.pieces := by
  have hintroduction : 'c' ∈ (introduction t.kind t.name).toList := by
    cases t.kind <;> simp [introduction]
  have hhead {inside : List String} {opening supertypes : List Piece} :
      ∃ line ∈ headLines depth inside
          (.text (modifierText t.modifiers ++ introduction t.kind t.name) :: opening) supertypes
          t.hasMembers t.constructor,
        line.isBroken = false ∧ 'c' ∈ charsIn names line.pieces := by
    cases t.constructor with
    | none => exact ⟨_, List.mem_cons_self, rfl, by simp [hintroduction]⟩
    | some constructor =>
      rw [headLines]
      split
      · exact ⟨_, List.mem_cons_self, rfl, by simp [hintroduction]⟩
      · exact ⟨_, List.mem_cons_self, rfl, by simp [hintroduction]⟩
  obtain ⟨line, hline, hspec⟩ := hhead
  rw [typeLines_eq]
  exact ⟨line, List.mem_append_left _ (List.mem_append_right _ hline), hspec⟩

/-- Something is left of a file. -/
theorem IsLineWise.cleanLines_ne_nil (h : file.IsLineWise) :
    cleanLines file.package file.render.toList ≠ [] := by
  obtain ⟨line, hline, hbroken, hchar⟩ := exists_introduction file.names 0 [] file.root
  have hwritten : setInLine line.depth (charsIn file.names line.pieces) ∈
      line.written file.names := by
    rw [Line.written, hbroken]
    exact List.mem_singleton_self _
  have hsafe := h.isSafe line hline
  have hchar : 'c' ∈ setInLine line.depth (charsIn file.names line.pieces) := by
    rw [setInLine, if_neg (by rw [List.isEmpty_iff]; exact List.ne_nil_of_mem hchar)]
    exact List.mem_append_right _ hchar
  have hfull : ¬ Text.isBlankLine (setInLine line.depth (charsIn file.names line.pieces)) = true :=
    fun hblank => absurd (List.all_eq_true.mp hblank 'c' hchar) (by decide)
  have hkept : setInLine line.depth (charsIn file.names line.pieces) ∈
      keptLines file.package file.render.toList := by
    refine List.mem_filter.mpr ⟨?_, ?_⟩
    · rw [h.lines_render]
      exact List.mem_append_right _ (List.mem_flatMap_of_mem hline hwritten)
    · rw [Bool.not_eq_true']
      exact Bool.eq_false_of_not_eq_true fun hredundant =>
        (hsafe.of_mem_written hwritten).2.1 (prefix_of_isRedundantImport hredundant)
  have hclean := cleanLine_of_not_marked fun hmarked =>
    absurd (hsafe.isBroken_of_marked hwritten hmarked).1 (by simp [hbroken])
  rw [emptied, if_neg hfull] at hclean
  intro hnil
  have hflat := @flatten_cleanLines file.package file.render.toList
  rw [hnil, List.flatten_nil, eq_comm, List.flatten_eq_nil_iff] at hflat
  rw [hflat _ (List.mem_map.mpr ⟨_, hkept, hclean⟩)] at hchar
  cases hchar

/-- What goes out of a file is the file's lines as they stand, but for redundant imports, with one
empty line for the blank ones between two paragraphs, just when no line of its annotations and
functions begins with `public`. It always ends with one line feed, and is clean. -/
theorem emit_keeps_lines (h : file.IsLineWise) :
    (Text.lines file.emit.toList =
        spacedOut (paragraphs (keptLines file.package file.render.toList)) ↔
      ∀ line ∈ file.layout, line.isBroken = true →
        ∀ cs ∈ Text.cut '\n' (charsIn file.names line.pieces), ¬ IsMarkedPublic cs) ∧
    (∀ l ∈ Text.lines file.render.toList, isRedundantImport file.package l = true →
      ∃ name ∈ file.importNames, l = ("import " ++ name).toList) ∧
    (∃ body, file.emit.toList = body ++ ['\n'] ∧ body ≠ [] ∧ body.getLast? ≠ some '\n') ∧
    clean file.package file.emit = file.emit := by
  refine ⟨?_, fun l => h.import_of_redundant, clean_ends h.return_not_mem h.cleanLines_ne_nil, ?_⟩
  · have hmarked := not_congr h.marked_iff
    simp only [not_exists, not_and] at hmarked
    rw [emit, lines_clean h.return_not_mem, cleanLines_eq_iff, hmarked]
  · have hcleaned := cleanLines_cleaned h.return_not_mem fun l => h.not_redundant_cleanLine
    rw [← String.toList_inj, toList_clean, emit, toList_clean, hcleaned]

end SourceFile

/-- A file with a redundant import, and with `public` behind other things. -/
def wordyFile : SourceFile where
  package := "test"
  root := {
    kind := .classDecl
    name := "A"
    doc := some "public words\n\n\nimport more"
    properties := [{ name := "b", type := .ofClass ⟨"java.util", ["List"]⟩ }]
    functions := [{ name := "f", body := [.code [.literal "g(\n  // public h\n\n)"]] }] }

namespace SourceFile

/-- Its lines are kept as they stand, and the import is not among them. -/
theorem wordyFile_keeps_lines :
    Text.lines wordyFile.emit.toList =
        spacedOut (paragraphs (keptLines "test" wordyFile.render.toList)) ∧
      clean "test" wordyFile.emit = wordyFile.emit ∧ wordyFile.importNames = ["java.util.List"] := by
  have h : wordyFile.IsLineWise := ⟨by decide, by decide, by decide, by decide⟩
  obtain ⟨hkept, -, -, hclean⟩ := emit_keeps_lines h
  refine ⟨hkept.mpr ?_, hclean, by decide⟩
  decide

end SourceFile

/-! ### Files with lines that change -/

/-- The texts in a file. -/
def SourceFile.texts (file : SourceFile) : List String :=
  file.package :: file.root.lineTexts ++ file.root.openTexts

/-- A text with `public` in it is at most the name of a class. -/
def SourceFile.HasPublicNamesOnly (file : SourceFile) : Prop :=
  ∀ text ∈ file.texts, "public ".toList <:+: text.toList →
    ∃ r ∈ file.references, text ∈ r.cls.simpleNames

instance (file : SourceFile) : Decidable file.HasPublicNamesOnly :=
  inferInstanceAs (Decidable (∀ text ∈ file.texts, "public ".toList <:+: text.toList →
    ∃ r ∈ file.references, text ∈ r.cls.simpleNames))

/-- A file with a `public` that is made of two texts. -/
def composedFile : SourceFile where
  package := "test"
  root := {
    kind := .classDecl
    name := "A"
    functions := [{ name := "f", body := [.code [.literal "public", .literal " x"]] }] }

/-- A file with an import that spans two lines. -/
def brokenImportFile : SourceFile where
  package := "test"
  root := {
    kind := .classDecl
    name := "A"
    functions := [{
      name := "f"
      body := [.code [.type (.ofClass ⟨"other", ["B\npublic import kotlin.C"]⟩)]] }] }

namespace SourceFile

/-- A line of a function can begin with `public` though no text has it. And if the name of a class
that a function names has a line feed, a line can become an import. -/
theorem public_lines_change :
    (composedFile.IsLineWise ∧ composedFile.HasPublicNamesOnly ∧ composedFile.references = [] ∧
      Text.lines composedFile.emit.toList ≠
        spacedOut (paragraphs (keptLines composedFile.package composedFile.render.toList))) ∧
    Flat [brokenImportFile.package] ∧ Flat brokenImportFile.root.lineTexts ∧
      Free '\r' brokenImportFile.root.openTexts ∧ brokenImportFile.HasPublicNamesOnly ∧
      clean brokenImportFile.package brokenImportFile.emit ≠ brokenImportFile.emit := by
  have hreturn : '\r' ∉ composedFile.render.toList := by decide +kernel
  have hmarked : ∃ l ∈ keptLines composedFile.package composedFile.render.toList,
      IsMarkedPublic l := by decide +kernel
  refine ⟨⟨⟨by decide, by decide, by decide, by decide⟩, by decide, rfl, ?_⟩, by decide, by decide,
    by decide, by decide +kernel, by decide +kernel⟩
  rw [emit, lines_clean hreturn, Ne, cleanLines_eq_iff]
  exact fun hnone => let ⟨l, hl, h⟩ := hmarked; hnone l hl h

end SourceFile

end DataClassGen.Source
