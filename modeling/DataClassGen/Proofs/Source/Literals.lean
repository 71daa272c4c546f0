import DataClassGen.Proofs.Source.LineTexts

/-!
# Literals in code

How string and character literals are read: `readString?` and `readChar?` know the rules of the
language that is written, and nothing of how `stringLiteral` and `charLiteral` write. What these
write is read back whatever follows it (`readString?_stringLiteral`, `readChar?_charLiteral`), with
no line ending in it and no template in a string (`IsLiteral`).

Code is text with names, types and literals in it. `HasLiterals` tells the values of its literals in
their order; outside of these it allows quotes only in the names and the types, which are written as
they are. Where those have none, the values are the only ones (`HasLiterals.unique`).
-/

namespace DataClassGen.Source

/-! ### Reading -/

/-- What a character stands for behind a backslash: the marks and the backslash for themselves. -/
def escaped? (marks : List Char) (c : Char) : Option Char :=
  if c ∈ '\\' :: marks then some c
  else
    match c with
    | 'n' => some '\n'
    | 'r' => some '\r'
    | 't' => some '\t'
    | _ => none

/-- What stands behind the mark that the text begins with. -/
def behind? (mark : Char) : List Char → Option (List Char)
  | [] => none
  | c :: rest => if c = mark then some rest else none

/-- The characters up to the quote that ends a string, and what stands behind the quote. A dollar
sign would begin a template, and the line must not end. -/
def readText? : List Char → Option (List Char × List Char)
  | [] => none
  | '"' :: rest => some ([], rest)
  | '\\' :: c :: rest => do
    let value ← escaped? ['"', '$'] c
    let (values, rest) ← readText? rest
    some (value :: values, rest)
  | c :: rest =>
    if c ∈ ['\\', '$', '\n', '\r'] then none
    else do
      let (values, rest) ← readText? rest
      some (c :: values, rest)

/-- The value of the string literal that the text begins with, and what stands behind it. -/
def readString? (cs : List Char) : Option (String × List Char) := do
  let rest ← behind? '"' cs
  let (values, rest) ← readText? rest
  some (String.ofList values, rest)

/-- The character between the quotes of a character literal, and what stands behind it. -/
def readCharacter? : List Char → Option (Char × List Char)
  | [] => none
  | '\\' :: c :: rest => (escaped? [singleQuote] c).map (·, rest)
  | c :: rest => if c ∈ [singleQuote, '\\', '\n', '\r'] then none else some (c, rest)

/-- The value of the character literal that the text begins with, and what stands behind it. -/
def readChar? (cs : List Char) : Option (Char × List Char) := do
  let rest ← behind? singleQuote cs
  let (value, rest) ← readCharacter? rest
  let rest ← behind? singleQuote rest
  some (value, rest)

theorem behind?_cons (mark : Char) (rest : List Char) : behind? mark (mark :: rest) = some rest :=
  if_pos rfl

section Reading

variable {c mark : Char}

theorem readText?_escape (h : escaped? ['"', '$'] mark = some c) (cs : List Char) :
    readText? ('\\' :: mark :: cs) = (readText? cs).map (Prod.map (c :: ·) id) := by
  rw [readText?, h]
  cases readText? cs <;> rfl

theorem readText?_plain (h : c ∉ ['"', '\\', '$', '\n', '\r']) (cs : List Char) :
    readText? (c :: cs) = (readText? cs).map (Prod.map (c :: ·) id) := by
  obtain ⟨hquote, h⟩ := not_or.mp (mt List.mem_cons.mpr h)
  have hbackslash : c ≠ '\\' := fun heq => h (heq ▸ List.mem_cons_self)
  rw [readText?, if_neg h]
  · cases readText? cs <;> rfl
  · exact hquote
  · exact fun _ _ heq => absurd heq hbackslash

/-- A character is written behind a backslash, as what stands for it there, or as it is. -/
theorem stringChar_cases (c : Char) :
    (∃ mark, stringChar c = ['\\', mark] ∧ escaped? ['"', '$'] mark = some c) ∨
      stringChar c = [c] ∧ c ∉ ['"', '\\', '$', '\n', '\r'] := by
  unfold stringChar
  split
  case h_7 => right; simp_all
  all_goals exact .inl ⟨_, rfl, by decide⟩

theorem readText?_stringChar (c : Char) (cs : List Char) :
    readText? (stringChar c ++ cs) = (readText? cs).map (Prod.map (c :: ·) id) := by
  obtain ⟨mark, htext, hmark⟩ | ⟨htext, hplain⟩ := stringChar_cases c
  · rw [htext]
    exact readText?_escape hmark cs
  · rw [htext]
    exact readText?_plain hplain cs

theorem readText?_flatMap (values rest : List Char) :
    readText? (values.flatMap stringChar ++ '"' :: rest) = some (values, rest) := by
  induction values with
  | nil => rfl
  | cons c values ih => rw [List.flatMap_cons, List.append_assoc, readText?_stringChar, ih]; rfl

/-- A string literal is read as the string, and nothing behind it is read. -/
theorem readString?_stringLiteral (value : String) (rest : List Char) :
    readString? ((stringLiteral value).toList ++ rest) = some (value, rest) := by
  rw [stringLiteral, String.toList_ofList, List.cons_append, List.cons_append, List.append_assoc,
    readString?, behind?_cons]
  simp [readText?_flatMap]

/-- What would be a template is no string literal. -/
example : readString? "\"costs $price\"".toList = none := by decide

/-- The character of a literal is written behind a backslash, or as it is. -/
theorem charLiteral_cases (c : Char) :
    (∃ mark, (charLiteral c).toList = [singleQuote, '\\', mark, singleQuote] ∧
      escaped? [singleQuote] mark = some c) ∨
    (charLiteral c).toList = [singleQuote, c, singleQuote] ∧
      c ∉ [singleQuote, '\\', '\n', '\r'] := by
  simp only [charLiteral, String.toList_ofList]
  split
  next hquote =>
    obtain rfl := beq_iff_eq.mp hquote
    exact .inl ⟨_, rfl, by decide⟩
  next hquote =>
    split
    case h_5 => right; simp_all
    all_goals exact .inl ⟨_, rfl, by decide⟩

theorem readCharacter?_escape (h : escaped? [singleQuote] mark = some c) (rest : List Char) :
    readCharacter? ('\\' :: mark :: rest) = some (c, rest) := by
  rw [readCharacter?, h, Option.map_some]

theorem readCharacter?_plain (h : c ∉ [singleQuote, '\\', '\n', '\r']) (rest : List Char) :
    readCharacter? (c :: rest) = some (c, rest) := by
  have hbackslash : c ≠ '\\' := fun heq => h (heq ▸ by simp)
  rw [readCharacter?, if_neg h]
  exact fun _ _ heq => absurd heq hbackslash

/-- A character literal is read as the character, and nothing behind it is read. -/
theorem readChar?_charLiteral (value : Char) (rest : List Char) :
    readChar? ((charLiteral value).toList ++ rest) = some (value, rest) := by
  obtain ⟨mark, htext, hmark⟩ | ⟨htext, hplain⟩ := charLiteral_cases value
  · simp [htext, readChar?, behind?_cons, readCharacter?_escape hmark]
  · simp [htext, readChar?, behind?_cons, readCharacter?_plain hplain]

/-- In character literals there are no templates. -/
example : readChar? [singleQuote, '$', singleQuote] = some ('$', []) := by decide

end Reading

/-! ### Literals -/

/-- A value that is written in quotes. -/
inductive Quoted where
  | string (value : String)
  | char (value : Char)
  deriving DecidableEq, Repr

/-- The value of the literal that the text begins with, and what stands behind it. -/
def readQuoted? (cs : List Char) : Option (Quoted × List Char) :=
  match readString? cs with
  | some (value, rest) => some (.string value, rest)
  | none => (readChar? cs).map (Prod.map .char id)

/-- Every dollar sign stands behind a backslash. That this is not an escaped backslash itself is for
the reader to see. -/
def EscapesDollars (cs : List Char) : Prop :=
  ∀ before after, cs = before ++ '$' :: after → before.getLast? = some '\\'

theorem escapesDollars_of_not_mem {cs : List Char} (h : '$' ∉ cs) : EscapesDollars cs := by
  rintro before after rfl
  exact absurd (List.mem_append_right before List.mem_cons_self) h

theorem EscapesDollars.append {cs cs' : List Char} (h : EscapesDollars cs)
    (h' : EscapesDollars cs') : EscapesDollars (cs ++ cs') := by
  intro before after heq
  rcases List.append_eq_append_iff.mp heq with ⟨between, rfl, hbetween⟩ | ⟨behind, rfl, hbehind⟩
  · have hlast := h' between after hbetween
    rw [List.getLast?_append, hlast]
    rfl
  · cases behind with
    | nil => cases h' [] after hbehind.symm
    | cons c behind =>
      obtain ⟨rfl, -⟩ := List.cons.inj hbehind
      exact h before behind rfl

theorem escapesDollars_stringChar (c : Char) : EscapesDollars (stringChar c) := by
  obtain ⟨mark, htext, -⟩ | ⟨htext, hplain⟩ := stringChar_cases c
  · intro before after heq
    rw [htext] at heq
    match before with
    | [] => cases heq
    | [_] =>
      cases heq
      rfl
    | _ :: _ :: _ => simp at heq
  · rw [htext]
    exact escapesDollars_of_not_mem fun hmem => hplain (List.mem_singleton.mp hmem ▸ by simp)

theorem escapesDollars_stringLiteral (value : String) :
    EscapesDollars (stringLiteral value).toList := by
  have hquote : EscapesDollars ['"'] := escapesDollars_of_not_mem (by decide)
  have hvalue : EscapesDollars (value.toList.flatMap stringChar) := by
    induction value.toList with
    | nil => exact escapesDollars_of_not_mem List.not_mem_nil
    | cons c values ih => exact (escapesDollars_stringChar c).append ih
  rw [stringLiteral, String.toList_ofList]
  exact (hquote.append hvalue).append hquote

theorem not_mem_charLiteral {c : Char} (hc : IsBreak c) (value : Char) :
    c ∉ (charLiteral value).toList := by
  have hquote : c ≠ singleQuote := hc.ne_of (by decide) (by decide)
  have hbackslash : c ≠ '\\' := hc.ne_of (by decide) (by decide)
  obtain ⟨mark, htext, hmark⟩ | ⟨htext, hplain⟩ := charLiteral_cases value
  · have hmark : c ≠ mark := by
      rintro rfl
      rcases hc with rfl | rfl <;> cases hmark
    simp [htext, hquote, hbackslash, hmark]
  · have hvalue : c ≠ value := by
      rintro rfl
      rcases hc with rfl | rfl <;> simp at hplain
    simp [htext, hquote, hvalue]

/-- The text is one literal for the value, whatever it stands in. -/
structure IsLiteral (value : Quoted) (text : List Char) : Prop where
  /-- Whatever follows, the literal is read as the value, and nothing behind it is read. -/
  read : ∀ rest, readQuoted? (text ++ rest) = some (value, rest)
  /-- No line ends in the literal. -/
  unbroken : ∀ c, IsBreak c → c ∉ text
  /-- No template begins in a string: its reader stops at a dollar sign that is not escaped, and
  none is without its backslash. -/
  templateless : ∀ s, value = .string s → EscapesDollars text

theorem isLiteral_stringLiteral (value : String) :
    IsLiteral (.string value) (stringLiteral value).toList where
  read := fun rest => by rw [readQuoted?, readString?_stringLiteral]
  unbroken := fun _ hc => not_mem_stringLiteral hc value
  templateless := fun _ _ => escapesDollars_stringLiteral value

theorem isLiteral_charLiteral (value : Char) :
    IsLiteral (.char value) (charLiteral value).toList where
  read := fun rest => by
    have hstring : readString? ((charLiteral value).toList ++ rest) = none := by
      obtain ⟨mark, htext, -⟩ | ⟨htext, -⟩ := charLiteral_cases value <;> rw [htext] <;> rfl
    rw [readQuoted?, hstring, readChar?_charLiteral]
    rfl
  unbroken := fun _ hc => not_mem_charLiteral hc value
  templateless := fun _ heq => nomatch heq

/-! ### The literals of a text -/

/-- The character begins and ends literals. -/
def IsQuote (c : Char) : Prop := c = '"' ∨ c = singleQuote

instance : DecidablePred IsQuote := fun c => inferInstanceAs (Decidable (c = '"' ∨ c = singleQuote))

/-- No quote is in the text. -/
def Unquoted (text : String) : Prop := ∀ c ∈ text.toList, ¬ IsQuote c

instance (text : String) : Decidable (Unquoted text) :=
  List.decidableBAll (fun c => ¬ IsQuote c) text.toList

theorem unquoted_append {text text' : String} :
    Unquoted (text ++ text') ↔ Unquoted text ∧ Unquoted text' := by
  rw [Unquoted, String.toList_append]
  exact List.forall_mem_append

/-- The text has literals for the values, one behind the other. Around them there is no quote but in
the `others`, texts each of which is there as a whole. -/
inductive HasLiterals (others : List String) : List Char → List Quoted → Prop where
  | done : HasLiterals others [] []
  | plain {c : Char} {cs : List Char} {values : List Quoted} (plain : ¬ IsQuote c)
      (rest : HasLiterals others cs values) : HasLiterals others (c :: cs) values
  | other {text : String} {cs : List Char} {values : List Quoted} (other : text ∈ others)
      (rest : HasLiterals others cs values) : HasLiterals others (text.toList ++ cs) values
  | literal {value : Quoted} {text cs : List Char} {values : List Quoted}
      (literal : IsLiteral value text) (rest : HasLiterals others cs values) :
      HasLiterals others (text ++ cs) (value :: values)

section HasLiterals

variable {others others' : List String} {cs cs' : List Char} {values values' : List Quoted}

theorem hasLiterals_of_unquoted {text : String} (h : Unquoted text) :
    HasLiterals others text.toList [] := by
  rw [Unquoted] at h
  generalize text.toList = cs at h
  induction cs with
  | nil => exact .done
  | cons c cs ih =>
    obtain ⟨hc, hcs⟩ := List.forall_mem_cons.mp h
    exact .plain hc (ih hcs)

theorem hasLiterals_of_other {text : String} (h : text ∈ others) :
    HasLiterals others text.toList [] := by
  simpa using HasLiterals.other h .done

theorem IsLiteral.hasLiterals {value : Quoted} (h : IsLiteral value cs) :
    HasLiterals others cs [value] := by
  simpa using HasLiterals.literal h .done

theorem HasLiterals.append (h : HasLiterals others cs values)
    (h' : HasLiterals others cs' values') : HasLiterals others (cs ++ cs') (values ++ values') := by
  induction h with
  | done => exact h'
  | plain plain _ ih => exact .plain plain ih
  | other other _ ih => rw [List.append_assoc]; exact .other other ih
  | literal literal _ ih => rw [List.append_assoc]; exact .literal literal ih

theorem HasLiterals.mono (h : HasLiterals others cs values) (hsubset : others ⊆ others') :
    HasLiterals others' cs values := by
  induction h with
  | done => exact .done
  | plain plain _ ih => exact .plain plain ih
  | other other _ ih => exact .other (hsubset other) ih
  | literal literal _ ih => exact .literal literal ih

/-- Where the others have no quotes, they need not be told apart from what is around them. -/
theorem HasLiterals.of_unquoted (h : HasLiterals others cs values)
    (hothers : ∀ text ∈ others, Unquoted text) : HasLiterals [] cs values := by
  induction h with
  | done => exact .done
  | plain plain _ ih => exact .plain plain ih
  | other other _ ih => simpa using (hasLiterals_of_unquoted (hothers _ other)).append ih
  | literal literal _ ih => exact .literal literal ih

theorem IsLiteral.exists_quote {value : Quoted} {text : List Char} (h : IsLiteral value text) :
    ∃ c rest, text = c :: rest ∧ IsQuote c := by
  have hread := h.read []
  rw [List.append_nil] at hread
  cases text with
  | nil => cases hread
  | cons c rest =>
    refine ⟨c, rest, rfl, ?_⟩
    by_contra hquote
    obtain ⟨hstring, hchar⟩ := not_or.mp hquote
    simp [readQuoted?, readString?, readChar?, behind?, hstring, hchar] at hread

theorem HasLiterals.of_nil (h : HasLiterals [] [] values) : values = [] := by
  generalize hcs : ([] : List Char) = cs at h
  cases h with
  | done => rfl
  | plain => cases hcs
  | other other => cases other
  | literal literal =>
    obtain ⟨c, rest, rfl, -⟩ := literal.exists_quote
    cases hcs

theorem HasLiterals.of_plain {c : Char} (plain : ¬ IsQuote c)
    (h : HasLiterals [] (c :: cs) values) : HasLiterals [] cs values := by
  generalize hcs : c :: cs = text at h
  cases h with
  | done => cases hcs
  | plain _ rest =>
    obtain ⟨-, rfl⟩ := List.cons.inj hcs
    exact rest
  | other other => cases other
  | literal literal =>
    obtain ⟨c', rest, rfl, hquote⟩ := literal.exists_quote
    obtain ⟨rfl, -⟩ := List.cons.inj hcs
    exact absurd hquote plain

theorem HasLiterals.of_literal {value : Quoted} {text : List Char} (literal : IsLiteral value text)
    (h : HasLiterals [] (text ++ cs) values) :
    ∃ rest, values = value :: rest ∧ HasLiterals [] cs rest := by
  generalize hcs : text ++ cs = input at h
  cases h with
  | done =>
    obtain ⟨c, rest, rfl, -⟩ := literal.exists_quote
    cases hcs
  | plain plain =>
    obtain ⟨c, rest, rfl, hquote⟩ := literal.exists_quote
    obtain ⟨rfl, -⟩ := List.cons.inj hcs
    exact absurd hquote plain
  | other other => cases other
  | literal literal' rest =>
    have hread := (literal.read _).symm.trans (hcs ▸ literal'.read _)
    obtain ⟨rfl, rfl⟩ := Prod.mk.inj (Option.some.inj hread)
    exact ⟨_, rfl, rest⟩

/-- The text tells the values, unless there are quotes in the others. -/
theorem HasLiterals.unique (h : HasLiterals others cs values)
    (h' : HasLiterals others cs values') (hothers : ∀ text ∈ others, Unquoted text) :
    values' = values := by
  replace h := h.of_unquoted hothers
  replace h' := h'.of_unquoted hothers
  clear hothers
  induction h generalizing values' with
  | done => exact h'.of_nil
  | plain plain _ ih => exact ih (h'.of_plain plain)
  | other other => cases other
  | literal literal _ ih =>
    obtain ⟨rest, rfl, hrest⟩ := h'.of_literal literal
    rw [ih hrest]

end HasLiterals

/-! ### The literals of code -/

namespace Code

variable {resolve : TypeName → String} {code code' : Code} {values values' : List Quoted}

/-- What the names and the types in code are written as. -/
def others (resolve : TypeName → String) (code : Code) : List String :=
  code.flatMap fun
    | .name name => [escape name]
    | .type type => [resolve type]
    | .literal _ | .string _ => []

/-- The text of the code has literals for the values, one behind the other, and no quotes around
them but in names and types. -/
def HasLiterals (resolve : TypeName → String) (code : Code) (values : List Quoted) : Prop :=
  Source.HasLiterals (code.others resolve) (code.textWith resolve).toList values

theorem toList_textWith_append (resolve : TypeName → String) (code code' : Code) :
    ((code ++ code').textWith resolve).toList =
      (code.textWith resolve).toList ++ (code'.textWith resolve).toList := by
  simp only [textWith, Text.toList_concat, List.map_append, List.flatMap_append]

theorem textWith_lit (resolve : TypeName → String) (text : String) :
    (lit text).textWith resolve = text := by
  rw [lit]
  split
  next hempty => exact (String.isEmpty_iff.mp hempty).symm
  next => rfl

theorem HasLiterals.append (h : code.HasLiterals resolve values)
    (h' : code'.HasLiterals resolve values') :
    (code ++ code').HasLiterals resolve (values ++ values') := by
  rw [HasLiterals, toList_textWith_append, others, List.flatMap_append]
  exact (h.mono (List.subset_append_left _ _)).append (h'.mono (List.subset_append_right _ _))

theorem hasLiterals_lit {text : String} (h : Unquoted text) :
    (lit text).HasLiterals resolve [] := by
  rw [HasLiterals, textWith_lit]
  exact hasLiterals_of_unquoted h

theorem HasLiterals.followed {text : String} (h : code.HasLiterals resolve values)
    (htext : Unquoted text) : (code ++ lit text).HasLiterals resolve values := by
  simpa using h.append (hasLiterals_lit htext)

theorem hasLiterals_ident (name : String) : (ident name).HasLiterals resolve [] :=
  hasLiterals_of_other List.mem_cons_self

theorem hasLiterals_classed (cls : ClassName) : (classed cls).HasLiterals resolve [] :=
  hasLiterals_of_other List.mem_cons_self

/-- A string is one literal. -/
theorem hasLiterals_str (value : String) : (str value).HasLiterals resolve [.string value] :=
  (isLiteral_stringLiteral value).hasLiterals

/-- A character is one literal. -/
theorem hasLiterals_charLiteral (value : Char) :
    (lit (charLiteral value)).HasLiterals resolve [.char value] := by
  rw [HasLiterals, textWith_lit]
  exact (isLiteral_charLiteral value).hasLiterals

/-- Code that is joined has the literals of the first piece, then those of the second, and so on. -/
theorem HasLiterals.joined {sep : String} (hsep : Unquoted sep) {codes : List Code}
    {valuess : List (List Quoted)} (h : List.Forall₂ (HasLiterals resolve) codes valuess) :
    (joined sep codes).HasLiterals resolve valuess.flatten := by
  induction h with
  | nil => exact .done
  | @cons code values codes valuess hcode hrest ih =>
    cases hrest with
    | nil => simpa [Code.joined] using hcode
    | cons hnext hrest =>
      exact (hcode.followed hsep).append ih

/-- Written to a file, code has the same literals: the text of its pieces is that of the code, with
the types as the file refers to them. -/
theorem textIn_codePieces (names : Names) (scope : List String) (code : Code) :
    Text.concat ((codePieces scope code).map (Piece.textIn names)) =
      code.textWith fun t => Text.concat ((typePieces scope t).map (Piece.textIn names)) := by
  apply String.toList_inj.mp
  rw [Text.toList_concat, textWith, Text.toList_concat, codePieces, List.flatMap_map,
    List.flatMap_assoc, List.flatMap_map]
  congr 1
  funext part
  cases part <;> simp [Piece.textIn, Text.toList_concat, List.flatMap_map]

end Code

end DataClassGen.Source
