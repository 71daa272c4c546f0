import DataClassGen.Source.Declaration

/-!
# Reading the bodies of functions

The generated functions are written in a small part of the language: values are looked up, passed on
by name, set and given back; what may be null has something else to fall back on. This module reads
that part. A piece of code is first taken apart into words, marks, names, texts and types, then read
as a tree. What the writer makes of a tree is read as that tree again (`Expr.read_tokens`,
`Step.read_tokens`), so a body has one meaning.

A value is something to begin with and what is asked of it, one thing after the other:
`a.b().c?.d()`; behind `?:` stands the next to be tried. The trees have the same shape.
-/

namespace DataClassGen.Meaning

open Source

/-! ### Tokens -/

/-- A word that is not a name, or a mark. -/
inductive Sign where
  | giveBack
  | self
  | null
  | yes
  | no
  | check
  | error
  | copy
  | apply
  | also
  | bind
  | leftParen
  | rightParen
  | leftBrace
  | rightBrace
  | less
  | greater
  | comma
  | dot
  | question
  | colon
  | equals
  | bang
  | minus
  | lineFeed
  deriving DecidableEq

namespace Sign

/-- All words and marks. -/
def all : List Sign :=
  [.giveBack, .self, .null, .yes, .no, .check, .error, .copy, .apply, .also, .bind, .leftParen,
    .rightParen, .leftBrace, .rightBrace, .less, .greater, .comma, .dot, .question, .colon, .equals,
    .bang, .minus, .lineFeed]

/-- The word or mark as it is written. -/
def text : Sign → String
  | .giveBack => "return"
  | .self => "this"
  | .null => "null"
  | .yes => "true"
  | .no => "false"
  | .check => "check"
  | .error => "error"
  | .copy => "copy"
  | .apply => "apply"
  | .also => "also"
  | .bind => "let"
  | .leftParen => "("
  | .rightParen => ")"
  | .leftBrace => "\x7b"
  | .rightBrace => "\x7d"
  | .less => "<"
  | .greater => ">"
  | .comma => ","
  | .dot => "."
  | .question => "?"
  | .colon => ":"
  | .equals => "="
  | .bang => "!"
  | .minus => "-"
  | .lineFeed => "\n"

/-- The word or mark that is written so. -/
def ofText? (text : String) : Option Sign := all.find? fun s => s.text == text

end Sign

/-- What code is made of. -/
inductive Token where
  | sign (s : Sign)
  | name (n : String)
  | text (s : String)
  | type (t : TypeName)
  | unknown (c : Char)
  deriving DecidableEq

namespace Token

/-- The token of a word. -/
def ofWord (word : List Char) : Token :=
  match Sign.ofText? (String.ofList word) with
  | some s => .sign s
  | none => .name (String.ofList word)

/-- The token of a character that is not part of a word; none for a blank. -/
def ofMark (c : Char) : List Token :=
  if c = ' ' then []
  else
    match Sign.ofText? (String.ofList [c]) with
    | some s => [.sign s]
    | none => [.unknown c]

/-- The token of the letters that were read, if there are any. -/
def flush (word : List Char) : List Token := if word.isEmpty then [] else [.ofWord word]

/-- The tokens of some characters behind the letters `word`. -/
def lex : List Char → List Char → List Token
  | word, [] => flush word
  | word, c :: cs => if c.isAlpha then lex (word ++ [c]) cs else flush word ++ ofMark c ++ lex [] cs

/-- The tokens of a text. -/
def ofText (text : String) : List Token := lex [] text.toList

end Token

/-- The tokens of a part of code. -/
def partTokens : CodePart → List Token
  | .literal text => Token.ofText text
  | .name n => [.name n]
  | .string s => [.text s]
  | .type t => [.type t]

/-- The tokens of a piece of code. -/
def codeTokens (code : Code) : List Token := code.flatMap partTokens

/-! ### Trees -/

mutual

/-- An expression. -/
inductive Expr where
  /-- Something, and what is asked of it. -/
  | value (head : Head) (suffixes : List Suffix)
  /-- `other` in place of a value that is null. -/
  | orElse (head : Head) (suffixes : List Suffix) (other : Expr)

/-- What an expression begins with. -/
inductive Head where
  | name (n : String)
  | self
  | null
  | truth (b : Bool)
  | text (s : String)
  /-- A function of this object. -/
  | call (f : String) (args : List Argument)
  /-- A new object. -/
  | make (type : TypeName) (args : List Argument)
  /-- A function of a class. -/
  | factory (type : TypeName) (f : String) (typeArgs : List TypeName)
  /-- A failure. -/
  | fail (message : Expr)
  /-- This object with other values. -/
  | copy (args : List Argument)
  /-- This object after something was done to it. -/
  | apply (action : Action)
  | group (e : Expr)

/-- What is asked of a value. -/
inductive Suffix where
  | field (n : String)
  /-- A function; nothing is asked of null if it is safe. -/
  | send (isSafe : Bool) (f : String) (args : List Argument)
  /-- The value itself, after something was done with it under the name of the parameter. -/
  | also (parameter : String) (actions : List Action)
  /-- Something else, unless the value is null. -/
  | whenPresent (e : Expr)

/-- An argument with its label, if it has one. -/
inductive Argument where
  | mk (label : Option String) (value : Expr)

/-- Something to be done. -/
inductive Action where
  /-- A name is set, or a field of this object. -/
  | assign (onSelf : Bool) (n : String) (value : Expr)
  | perform (e : Expr)

end

/-- A line of a body. -/
inductive Step where
  | giveBack (e : Expr)
  /-- The value of this name must be null. -/
  | requireNull (n message : String)
  /-- The value of this name must be false. -/
  | requireNot (n message : String)
  | act (a : Action)

/-! ### Writing trees -/

/-- A comma between neighbours. -/
def typeTokens : List TypeName → List Token
  | [] => []
  | [t] => [.type t]
  | t :: u :: ts => .type t :: .sign .comma :: typeTokens (u :: ts)

mutual

/-- The tokens of an expression. -/
def Expr.tokens : Expr → List Token
  | .value head suffixes => head.tokens ++ Suffix.tokensAll suffixes
  | .orElse head suffixes other =>
    head.tokens ++ Suffix.tokensAll suffixes ++ .sign .question :: .sign .colon :: other.tokens

/-- The tokens of a head. -/
def Head.tokens : Head → List Token
  | .name n => [.name n]
  | .self => [.sign .self]
  | .null => [.sign .null]
  | .truth b => [.sign (if b then .yes else .no)]
  | .text s => [.text s]
  | .call f args => .name f :: .sign .leftParen :: Argument.tokensAll args
  | .make t args => .type t :: .sign .leftParen :: Argument.tokensAll args
  | .factory t f typeArgs =>
    .type t :: .sign .dot :: .name f ::
      (if typeArgs.isEmpty then [] else .sign .less :: typeTokens typeArgs ++ [.sign .greater]) ++
      [.sign .leftParen, .sign .rightParen]
  | .fail e => .sign .error :: .sign .leftParen :: e.tokens ++ [.sign .rightParen]
  | .copy args => .sign .copy :: .sign .leftParen :: Argument.tokensAll args
  | .apply a => .sign .apply :: .sign .leftBrace :: a.tokens ++ [.sign .rightBrace]
  | .group e => .sign .leftParen :: e.tokens ++ [.sign .rightParen]

/-- The tokens of a suffix. -/
def Suffix.tokens : Suffix → List Token
  | .field n => [.sign .dot, .name n]
  | .send isSafe f args =>
    (if isSafe then [.sign .question, .sign .dot] else [.sign .dot]) ++
      .name f :: .sign .leftParen :: Argument.tokensAll args
  | .also n actions =>
    .sign .dot :: .sign .also :: .sign .leftBrace :: .name n :: .sign .minus :: .sign .greater ::
      Action.tokensAll actions
  | .whenPresent e =>
    .sign .question :: .sign .dot :: .sign .bind :: .sign .leftBrace :: e.tokens ++
      [.sign .rightBrace]

/-- The tokens of suffixes. -/
def Suffix.tokensAll : List Suffix → List Token
  | [] => []
  | s :: ss => s.tokens ++ Suffix.tokensAll ss

/-- The tokens of an argument. -/
def Argument.tokens : Argument → List Token
  | .mk none e => e.tokens
  | .mk (some label) e => .name label :: .sign .equals :: e.tokens

/-- The tokens of arguments, with the parenthesis behind them. -/
def Argument.tokensAll : List Argument → List Token
  | [] => [.sign .rightParen]
  | a :: as => a.tokens ++ Argument.tokensMore as

/-- The tokens of more arguments, with the parenthesis behind them. -/
def Argument.tokensMore : List Argument → List Token
  | [] => [.sign .rightParen]
  | a :: as => .sign .comma :: a.tokens ++ Argument.tokensMore as

/-- The tokens of an action. -/
def Action.tokens : Action → List Token
  | .assign onSelf n e =>
    (if onSelf then [.sign .self, .sign .dot] else []) ++ .name n :: .sign .equals :: e.tokens
  | .perform e => e.tokens

/-- The tokens of actions on lines of their own, with the brace behind them. -/
def Action.tokensAll : List Action → List Token
  | [] => [.sign .lineFeed, .sign .rightBrace]
  | a :: as => .sign .lineFeed :: a.tokens ++ Action.tokensAll as

end

/-- The tokens of a step. -/
def Step.tokens : Step → List Token
  | .giveBack e => .sign .giveBack :: e.tokens
  | .requireNull n message =>
    [.sign .check, .sign .leftParen, .name n, .sign .equals, .sign .equals, .sign .null,
      .sign .rightParen, .sign .leftBrace, .text message, .sign .rightBrace]
  | .requireNot n message =>
    [.sign .check, .sign .leftParen, .sign .bang, .name n, .sign .rightParen, .sign .leftBrace,
      .text message, .sign .rightBrace]
  | .act a => a.tokens

/-! ### Reading trees -/

/-- What stands behind `?:`, if that comes first. -/
def fallback? : List Token → Option (List Token)
  | .sign .question :: .sign .colon :: ts => some ts
  | _ => none

/-- What stands behind the mark, if that comes first. -/
def behind? (s : Sign) : List Token → Option (List Token)
  | .sign s' :: ts => if s' = s then some ts else none
  | _ => none

/-- Types up to the mark behind them. -/
def readTypes : List Token → Option (List TypeName × List Token)
  | .type t :: .sign .comma :: ts => (readTypes ts).map fun (types, ts) => (t :: types, ts)
  | .type t :: .sign .greater :: ts => some ([t], ts)
  | _ => none

/-- Type arguments, if there are any. -/
def readTypeArgs (ts : List Token) : Option (List TypeName × List Token) :=
  match behind? .less ts with
  | some ts => readTypes ts
  | none => some ([], ts)

/-- What can be set. -/
def Expr.target? : Expr → Option (Bool × String)
  | .value (.name n) [] => some (false, n)
  | .value .self [.field n] => some (true, n)
  | _ => none

mutual

/-- Reads an expression; `n` bounds the steps of reading. -/
def readExpr : Nat → List Token → Option (Expr × List Token)
  | 0, _ => none
  | n + 1, ts => do
    let (head, ts) ← readHead n ts
    let (suffixes, ts) ← readSuffixes n ts
    match fallback? ts with
    | some ts => do
      let (other, ts) ← readExpr n ts
      some (.orElse head suffixes other, ts)
    | none => some (.value head suffixes, ts)

/-- Reads what an expression begins with. -/
def readHead : Nat → List Token → Option (Head × List Token)
  | 0, _ => none
  | n + 1, ts =>
    match ts with
    | .name f :: ts =>
      match behind? .leftParen ts with
      | some ts => do
        let (args, ts) ← readArguments n ts
        some (.call f args, ts)
      | none => some (.name f, ts)
    | .sign .self :: ts => some (.self, ts)
    | .sign .null :: ts => some (.null, ts)
    | .sign .yes :: ts => some (.truth true, ts)
    | .sign .no :: ts => some (.truth false, ts)
    | .text s :: ts => some (.text s, ts)
    | .type t :: .sign .leftParen :: ts => do
      let (args, ts) ← readArguments n ts
      some (.make t args, ts)
    | .type t :: .sign .dot :: .name f :: ts => do
      let (typeArgs, ts) ← readTypeArgs ts
      let ts ← behind? .leftParen ts
      let ts ← behind? .rightParen ts
      some (.factory t f typeArgs, ts)
    | .sign .error :: .sign .leftParen :: ts => do
      let (e, ts) ← readExpr n ts
      let ts ← behind? .rightParen ts
      some (.fail e, ts)
    | .sign .copy :: .sign .leftParen :: ts => do
      let (args, ts) ← readArguments n ts
      some (.copy args, ts)
    | .sign .apply :: .sign .leftBrace :: ts => do
      let (a, ts) ← readAction n ts
      let ts ← behind? .rightBrace ts
      some (.apply a, ts)
    | .sign .leftParen :: ts => do
      let (e, ts) ← readExpr n ts
      let ts ← behind? .rightParen ts
      some (.group e, ts)
    | _ => none

/-- Reads what is asked of a value, as far as it goes. -/
def readSuffixes : Nat → List Token → Option (List Suffix × List Token)
  | 0, _ => none
  | n + 1, ts =>
    match ts with
    | .sign .dot :: .name f :: ts =>
      match behind? .leftParen ts with
      | some ts => do
        let (args, ts) ← readArguments n ts
        let (suffixes, ts) ← readSuffixes n ts
        some (.send false f args :: suffixes, ts)
      | none => do
        let (suffixes, ts) ← readSuffixes n ts
        some (.field f :: suffixes, ts)
    | .sign .dot :: .sign .also :: .sign .leftBrace :: .name x :: .sign .minus :: .sign .greater ::
        ts => do
      let (actions, ts) ← readActions n ts
      let (suffixes, ts) ← readSuffixes n ts
      some (.also x actions :: suffixes, ts)
    | .sign .question :: .sign .dot :: .name f :: .sign .leftParen :: ts => do
      let (args, ts) ← readArguments n ts
      let (suffixes, ts) ← readSuffixes n ts
      some (.send true f args :: suffixes, ts)
    | .sign .question :: .sign .dot :: .sign .bind :: .sign .leftBrace :: ts => do
      let (e, ts) ← readExpr n ts
      let ts ← behind? .rightBrace ts
      let (suffixes, ts) ← readSuffixes n ts
      some (.whenPresent e :: suffixes, ts)
    | ts => some ([], ts)

/-- Reads arguments and the parenthesis behind them. -/
def readArguments : Nat → List Token → Option (List Argument × List Token)
  | 0, _ => none
  | n + 1, ts =>
    match behind? .rightParen ts with
    | some ts => some ([], ts)
    | none => do
      let (a, ts) ← readArgument n ts
      let (as, ts) ← readMore n ts
      some (a :: as, ts)

/-- Reads more arguments and the parenthesis behind them. -/
def readMore : Nat → List Token → Option (List Argument × List Token)
  | 0, _ => none
  | n + 1, ts =>
    match behind? .comma ts with
    | some ts => do
      let (a, ts) ← readArgument n ts
      let (as, ts) ← readMore n ts
      some (a :: as, ts)
    | none => do
      let ts ← behind? .rightParen ts
      some ([], ts)

/-- Reads an argument. -/
def readArgument : Nat → List Token → Option (Argument × List Token)
  | 0, _ => none
  | n + 1, ts => do
    let (e, ts) ← readExpr n ts
    match behind? .equals ts with
    | some ts => do
      let (false, label) ← e.target? | none
      let (value, ts) ← readExpr n ts
      some (.mk (some label) value, ts)
    | none => some (.mk none e, ts)

/-- Reads something to be done. -/
def readAction : Nat → List Token → Option (Action × List Token)
  | 0, _ => none
  | n + 1, ts => do
    let (e, ts) ← readExpr n ts
    match behind? .equals ts with
    | some ts => do
      let (onSelf, name) ← e.target?
      let (value, ts) ← readExpr n ts
      some (.assign onSelf name value, ts)
    | none => some (.perform e, ts)

/-- Reads things to be done on lines of their own, and the brace behind them. -/
def readActions : Nat → List Token → Option (List Action × List Token)
  | 0, _ => none
  | n + 1, ts => do
    let ts ← behind? .lineFeed ts
    match behind? .rightBrace ts with
    | some ts => some ([], ts)
    | none => do
      let (a, ts) ← readAction n ts
      let (as, ts) ← readActions n ts
      some (a :: as, ts)

end

/-- Reads a line of a body. -/
def readStep (n : Nat) : List Token → Option (Step × List Token)
  | .sign .giveBack :: ts => (readExpr n ts).map fun (e, ts) => (.giveBack e, ts)
  | .sign .check :: .sign .leftParen :: .name x :: .sign .equals :: .sign .equals :: .sign .null ::
      .sign .rightParen :: .sign .leftBrace :: .text message :: .sign .rightBrace :: ts =>
    some (.requireNull x message, ts)
  | .sign .check :: .sign .leftParen :: .sign .bang :: .name x :: .sign .rightParen ::
      .sign .leftBrace :: .text message :: .sign .rightBrace :: ts =>
    some (.requireNot x message, ts)
  | ts => (readAction n ts).map fun (a, ts) => (.act a, ts)

/-- The tree of a line of a body, if all of it can be read. -/
def Step.ofCode? (code : Code) : Option Step :=
  match readStep (4 * (codeTokens code).length + 3) (codeTokens code) with
  | some (step, []) => some step
  | _ => none

/-! ### Reading what was written -/

/-- The tokens are at their end, or go on with one of the marks. -/
def follows (signs : List Sign) : List Token → Bool
  | [] => true
  | .sign s :: _ => signs.contains s
  | _ => false

/-- The marks that an expression can stand in front of. -/
def exprEnds : List Sign := [.rightParen, .rightBrace, .comma, .equals, .lineFeed]

/-- The marks that an argument stands in front of. -/
def argumentEnds : List Sign := [.rightParen, .comma]

/-- The marks that an action can stand in front of. -/
def actionEnds : List Sign := [.rightBrace, .lineFeed]

section Follows

variable {signs signs' : List Sign} {s : Sign} {ts : List Token}

@[simp] theorem behind?_sign (s : Sign) (ts : List Token) : behind? s (.sign s :: ts) = some ts :=
  if_pos rfl

theorem behind?_of_follows (h : follows signs ts = true) (hs : signs.contains s = false) :
    behind? s ts = none := by
  unfold follows at h
  split at h
  · rfl
  · refine if_neg ?_
    rintro rfl
    rw [h] at hs
    cases hs
  · cases h

theorem fallback?_of_follows (h : follows exprEnds ts = true) : fallback? ts = none := by
  unfold fallback?
  split
  · cases h
  · rfl

theorem follows_mono (h : follows signs ts = true) (hsub : signs ⊆ signs') :
    follows signs' ts = true := by
  unfold follows at h
  split at h
  · rfl
  · exact List.contains_iff_mem.mpr (hsub (List.contains_iff_mem.mp h))
  · cases h

/-- What is asked of a value ends where the value does, or in front of `?:`. -/
def EndsSuffixes (ts : List Token) : Prop :=
  follows exprEnds ts = true ∨ ∃ ts', ts = .sign .question :: .sign .colon :: ts'

theorem EndsSuffixes.read (h : EndsSuffixes ts) (n : Nat) :
    readSuffixes (n + 1) ts = some ([], ts) := by
  rcases h with h | ⟨ts', rfl⟩
  · rw [readSuffixes]
    all_goals
      intros
      subst ts
      cases h
  · rfl

theorem EndsSuffixes.behind? (h : EndsSuffixes ts) : behind? .leftParen ts = none := by
  rcases h with h | ⟨ts', rfl⟩
  · exact behind?_of_follows h rfl
  · rfl

end Follows

/-- A value that something is asked of does not go on with arguments. -/
theorem behind?_suffixes (suffixes : List Suffix) {ts : List Token} (h : EndsSuffixes ts) :
    behind? .leftParen (Suffix.tokensAll suffixes ++ ts) = none := by
  cases suffixes with
  | nil => exact h.behind?
  | cons s ss =>
    cases s with
    | send isSafe f args => cases isSafe <;> rfl
    | _ => rfl

theorem readTypes_tokens {types : List TypeName} (h : types ≠ []) (ts : List Token) :
    readTypes (typeTokens types ++ .sign .greater :: ts) = some (types, ts) := by
  induction types with
  | nil => exact absurd rfl h
  | cons t types ih =>
    cases types with
    | nil => rfl
    | cons u types =>
      have ih := ih (List.cons_ne_nil _ _)
      rw [typeTokens, List.cons_append, List.cons_append, readTypes, ih]
      rfl

/-- The token can stand at the beginning of an expression. -/
def isStart : Token → Bool
  | .sign s => [.self, .null, .yes, .no, .error, .copy, .apply, .leftParen].contains s
  | .name _ | .text _ | .type _ => true
  | .unknown _ => false

theorem Head.exists_start (head : Head) : ∃ t ts, head.tokens = t :: ts ∧ isStart t = true := by
  cases head with
  | truth b => cases b <;> exact ⟨_, _, rfl, rfl⟩
  | _ => exact ⟨_, _, rfl, rfl⟩

theorem Expr.exists_start (e : Expr) : ∃ t ts, e.tokens = t :: ts ∧ isStart t = true := by
  cases e with
  | value head suffixes =>
    obtain ⟨t, ts, htokens, ht⟩ := head.exists_start
    exact ⟨t, ts ++ Suffix.tokensAll suffixes, by rw [Expr.tokens, htokens, List.cons_append], ht⟩
  | orElse head suffixes other =>
    obtain ⟨t, ts, htokens, ht⟩ := head.exists_start
    exact ⟨t, _, by rw [Expr.tokens, htokens, List.cons_append, List.cons_append], ht⟩

theorem Argument.exists_start (a : Argument) : ∃ t ts, a.tokens = t :: ts ∧ isStart t = true := by
  obtain ⟨_ | label, e⟩ := a
  · exact e.exists_start
  · exact ⟨_, _, rfl, rfl⟩

theorem Action.exists_start (a : Action) : ∃ t ts, a.tokens = t :: ts ∧ isStart t = true := by
  cases a with
  | assign onSelf x e => cases onSelf <;> exact ⟨_, _, rfl, rfl⟩
  | perform e => exact e.exists_start

theorem behind?_of_start {s : Sign} {t : Token} (ht : isStart t = true) (hs : isStart (.sign s) = false)
    (ts : List Token) : behind? s (t :: ts) = none := by
  cases t with
  | sign s' =>
    refine if_neg ?_
    rintro rfl
    rw [ht] at hs
    cases hs
  | _ => rfl

theorem follows_more (args : List Argument) (ts : List Token) :
    follows argumentEnds (Argument.tokensMore args ++ ts) = true := by
  cases args <;> rfl

theorem follows_all (actions : List Action) (ts : List Token) :
    follows actionEnds (Action.tokensAll actions ++ ts) = true := by
  cases actions <;> rfl

mutual

/-- An expression is read as it was written. -/
theorem Expr.read_tokens : ∀ (e : Expr) {n : Nat} {r : List Token}, follows exprEnds r = true →
    4 * (e.tokens ++ r).length + 2 ≤ n → readExpr n (e.tokens ++ r) = some (e, r)
  | _, 0, _, _, hn => by omega
  | .value head suffixes, n + 1, r, h, hn => by
    have hends : EndsSuffixes r := Or.inl h
    simp only [Expr.tokens, List.append_assoc, List.length_append] at hn ⊢
    have hhead := Head.read_tokens head (n := n) (behind?_suffixes suffixes hends)
      (by simp only [List.length_append]; omega)
    have hsuffixes := Suffix.read_tokens suffixes (n := n) hends
      (by simp only [List.length_append]; omega)
    simp [readExpr, hhead, hsuffixes, fallback?_of_follows h]
  | .orElse head suffixes other, n + 1, r, h, hn => by
    have hends : EndsSuffixes (.sign .question :: .sign .colon :: (other.tokens ++ r)) :=
      Or.inr ⟨_, rfl⟩
    simp only [Expr.tokens, List.append_assoc, List.cons_append, List.length_append,
      List.length_cons] at hn ⊢
    have hhead := Head.read_tokens head (n := n) (behind?_suffixes suffixes hends)
      (by simp only [List.length_append, List.length_cons]; omega)
    have hsuffixes := Suffix.read_tokens suffixes (n := n) hends
      (by simp only [List.length_append, List.length_cons]; omega)
    have hother := Expr.read_tokens other (n := n) h (by simp only [List.length_append]; omega)
    simp [readExpr, hhead, hsuffixes, fallback?, hother]

theorem Head.read_tokens : ∀ (head : Head) {n : Nat} {r : List Token},
    behind? .leftParen r = none → 4 * (head.tokens ++ r).length + 1 ≤ n →
      readHead n (head.tokens ++ r) = some (head, r)
  | _, 0, _, _, hn => by omega
  | .name x, n + 1, r, h, hn => by simp [Head.tokens, readHead, h]
  | .self, n + 1, r, h, hn => rfl
  | .null, n + 1, r, h, hn => rfl
  | .truth true, n + 1, r, h, hn => rfl
  | .truth false, n + 1, r, h, hn => rfl
  | .text s, n + 1, r, h, hn => rfl
  | .call f args, n + 1, r, h, hn => by
    simp only [Head.tokens, List.cons_append, List.length_cons, List.length_append] at hn ⊢
    have hargs := Argument.read_tokensAll args (n := n) (r := r)
      (by simp only [List.length_append]; omega)
    simp [readHead, hargs]
  | .make t args, n + 1, r, h, hn => by
    simp only [Head.tokens, List.cons_append, List.length_cons, List.length_append] at hn ⊢
    have hargs := Argument.read_tokensAll args (n := n) (r := r)
      (by simp only [List.length_append]; omega)
    simp [readHead, hargs]
  | .factory t f typeArgs, n + 1, r, h, hn => by
    by_cases hnil : typeArgs = []
    · subst hnil
      rfl
    · have htypes := readTypes_tokens hnil (.sign .leftParen :: .sign .rightParen :: r)
      simp [Head.tokens, hnil, readHead, readTypeArgs, htypes]
  | .fail e, n + 1, r, h, hn => by
    simp only [Head.tokens, List.cons_append, List.append_assoc, List.nil_append, List.length_cons,
      List.length_append] at hn ⊢
    have he := Expr.read_tokens e (n := n) (r := .sign .rightParen :: r) rfl
      (by simp only [List.length_append, List.length_cons]; omega)
    simp [readHead, he]
  | .copy args, n + 1, r, h, hn => by
    simp only [Head.tokens, List.cons_append, List.length_cons, List.length_append] at hn ⊢
    have hargs := Argument.read_tokensAll args (n := n) (r := r)
      (by simp only [List.length_append]; omega)
    simp [readHead, hargs]
  | .apply a, n + 1, r, h, hn => by
    simp only [Head.tokens, List.cons_append, List.append_assoc, List.nil_append, List.length_cons,
      List.length_append] at hn ⊢
    have ha := Action.read_tokens a (n := n) (r := .sign .rightBrace :: r) rfl
      (by simp only [List.length_append, List.length_cons]; omega)
    simp [readHead, ha]
  | .group e, n + 1, r, h, hn => by
    simp only [Head.tokens, List.cons_append, List.append_assoc, List.nil_append, List.length_cons,
      List.length_append] at hn ⊢
    have he := Expr.read_tokens e (n := n) (r := .sign .rightParen :: r) rfl
      (by simp only [List.length_append, List.length_cons]; omega)
    simp [readHead, he]

theorem Suffix.read_tokens : ∀ (suffixes : List Suffix) {n : Nat} {r : List Token},
    EndsSuffixes r → 4 * (Suffix.tokensAll suffixes ++ r).length + 1 ≤ n →
      readSuffixes n (Suffix.tokensAll suffixes ++ r) = some (suffixes, r)
  | _, 0, _, _, hn => by omega
  | [], n + 1, r, h, hn => h.read n
  | .field f :: suffixes, n + 1, r, h, hn => by
    simp only [Suffix.tokensAll, Suffix.tokens, List.cons_append, List.nil_append, List.length_cons,
      List.length_append] at hn ⊢
    have hsuffixes := Suffix.read_tokens suffixes (n := n) h
      (by simp only [List.length_append]; omega)
    simp [readSuffixes, behind?_suffixes suffixes h, hsuffixes]
  | .send isSafe f args :: suffixes, n + 1, r, h, hn => by
    simp only [Suffix.tokensAll, Suffix.tokens, List.cons_append, List.append_assoc,
      List.length_cons, List.length_append] at hn ⊢
    have hargs := Argument.read_tokensAll args (n := n) (r := Suffix.tokensAll suffixes ++ r)
      (by simp only [List.length_append]; omega)
    have hsuffixes := Suffix.read_tokens suffixes (n := n) h
      (by simp only [List.length_append]; omega)
    cases isSafe <;> simp [readSuffixes, hargs, hsuffixes]
  | .also x actions :: suffixes, n + 1, r, h, hn => by
    simp only [Suffix.tokensAll, Suffix.tokens, List.cons_append, List.append_assoc,
      List.length_cons, List.length_append] at hn ⊢
    have hactions := Action.read_tokensAll actions (n := n) (r := Suffix.tokensAll suffixes ++ r)
      (by simp only [List.length_append]; omega)
    have hsuffixes := Suffix.read_tokens suffixes (n := n) h
      (by simp only [List.length_append]; omega)
    simp [readSuffixes, hactions, hsuffixes]
  | .whenPresent e :: suffixes, n + 1, r, h, hn => by
    simp only [Suffix.tokensAll, Suffix.tokens, List.cons_append, List.append_assoc, List.nil_append,
      List.length_cons, List.length_append] at hn ⊢
    have he := Expr.read_tokens e (n := n)
      (r := .sign .rightBrace :: (Suffix.tokensAll suffixes ++ r)) rfl
      (by simp only [List.length_append, List.length_cons]; omega)
    have hsuffixes := Suffix.read_tokens suffixes (n := n) h
      (by simp only [List.length_append]; omega)
    simp [readSuffixes, he, hsuffixes]

theorem Argument.read_tokens : ∀ (a : Argument) {n : Nat} {r : List Token},
    follows argumentEnds r = true → 4 * (a.tokens ++ r).length + 3 ≤ n →
      readArgument n (a.tokens ++ r) = some (a, r)
  | _, 0, _, _, hn => by omega
  | .mk none e, n + 1, r, h, hn => by
    rw [Argument.tokens] at hn ⊢
    have he := Expr.read_tokens e (n := n) (follows_mono h (by decide)) (by omega)
    have hbehind : behind? .equals r = none := behind?_of_follows h rfl
    simp [readArgument, he, hbehind]
  | .mk (some label) e, n + 1, r, h, hn => by
    simp only [Argument.tokens, List.cons_append, List.length_cons, List.length_append] at hn ⊢
    have hlabel := Expr.read_tokens (.value (.name label) []) (n := n)
      (r := .sign .equals :: (e.tokens ++ r)) rfl
      (by simp only [Expr.tokens, Head.tokens, Suffix.tokensAll, List.length_append, List.length_cons,
        List.length_nil]; omega)
    have he := Expr.read_tokens e (n := n) (follows_mono h (by decide))
      (by simp only [List.length_append]; omega)
    simp only [Expr.tokens, Head.tokens, Suffix.tokensAll, List.cons_append, List.nil_append,
      List.append_nil] at hlabel
    simp [readArgument, hlabel, Expr.target?, he]

theorem Argument.read_tokensAll : ∀ (args : List Argument) {n : Nat} {r : List Token},
    4 * (Argument.tokensAll args ++ r).length + 4 ≤ n →
      readArguments n (Argument.tokensAll args ++ r) = some (args, r)
  | _, 0, _, hn => by omega
  | [], n + 1, r, hn => rfl
  | a :: as, n + 1, r, hn => by
    simp only [Argument.tokensAll, List.append_assoc, List.length_append] at hn ⊢
    obtain ⟨t, r', htokens, ht⟩ := a.exists_start
    have hlength : 0 < a.tokens.length := by simp [htokens]
    have ha := Argument.read_tokens a (n := n) (follows_more as r)
      (by simp only [List.length_append]; omega)
    have has := Argument.read_tokensMore as (n := n) (r := r)
      (by simp only [List.length_append]; omega)
    have hbehind : behind? .rightParen (a.tokens ++ (Argument.tokensMore as ++ r)) = none := by
      rw [htokens]
      exact behind?_of_start ht rfl _
    simp [readArguments, hbehind, ha, has]

theorem Argument.read_tokensMore : ∀ (args : List Argument) {n : Nat} {r : List Token},
    4 * (Argument.tokensMore args ++ r).length + 4 ≤ n →
      readMore n (Argument.tokensMore args ++ r) = some (args, r)
  | _, 0, _, hn => by omega
  | [], n + 1, r, hn => rfl
  | a :: as, n + 1, r, hn => by
    simp only [Argument.tokensMore, List.cons_append, List.append_assoc, List.length_cons,
      List.length_append] at hn ⊢
    have ha := Argument.read_tokens a (n := n) (follows_more as r)
      (by simp only [List.length_append]; omega)
    have has := Argument.read_tokensMore as (n := n) (r := r)
      (by simp only [List.length_append]; omega)
    simp [readMore, ha, has]

theorem Action.read_tokens : ∀ (a : Action) {n : Nat} {r : List Token},
    follows actionEnds r = true → 4 * (a.tokens ++ r).length + 3 ≤ n →
      readAction n (a.tokens ++ r) = some (a, r)
  | _, 0, _, _, hn => by omega
  | .perform e, n + 1, r, h, hn => by
    rw [Action.tokens] at hn ⊢
    have he := Expr.read_tokens e (n := n) (follows_mono h (by decide)) (by omega)
    have hbehind : behind? .equals r = none := behind?_of_follows h rfl
    simp [readAction, he, hbehind]
  | .assign onSelf x e, n + 1, r, h, hn => by
    simp only [Action.tokens, List.cons_append, List.append_assoc, List.length_cons,
      List.length_append] at hn ⊢
    have he := Expr.read_tokens e (n := n) (follows_mono h (by decide))
      (by simp only [List.length_append]; omega)
    cases onSelf with
    | false =>
      have htarget := Expr.read_tokens (.value (.name x) []) (n := n)
        (r := .sign .equals :: (e.tokens ++ r)) rfl
        (by simp only [Expr.tokens, Head.tokens, Suffix.tokensAll, List.length_append,
          List.length_cons, List.length_nil]; omega)
      simp only [Expr.tokens, Head.tokens, Suffix.tokensAll, List.cons_append, List.nil_append,
        List.append_nil] at htarget
      simp [readAction, htarget, Expr.target?, he]
    | true =>
      have htarget := Expr.read_tokens (.value .self [.field x]) (n := n)
        (r := .sign .equals :: (e.tokens ++ r)) rfl
        (by simp [Expr.tokens, Head.tokens, Suffix.tokensAll, Suffix.tokens] at hn ⊢; omega)
      simp only [Expr.tokens, Head.tokens, Suffix.tokensAll, Suffix.tokens, List.cons_append,
        List.nil_append, List.append_nil] at htarget
      simp [readAction, htarget, Expr.target?, he]

theorem Action.read_tokensAll : ∀ (actions : List Action) {n : Nat} {r : List Token},
    4 * (Action.tokensAll actions ++ r).length + 4 ≤ n →
      readActions n (Action.tokensAll actions ++ r) = some (actions, r)
  | _, 0, _, hn => by omega
  | [], n + 1, r, hn => rfl
  | a :: as, n + 1, r, hn => by
    simp only [Action.tokensAll, List.cons_append, List.append_assoc, List.length_cons,
      List.length_append] at hn ⊢
    have ha := Action.read_tokens a (n := n) (follows_all as r)
      (by simp only [List.length_append]; omega)
    have has := Action.read_tokensAll as (n := n) (r := r)
      (by simp only [List.length_append]; omega)
    obtain ⟨t, r', htokens, ht⟩ := a.exists_start
    have hbehind : behind? .rightBrace (a.tokens ++ (Action.tokensAll as ++ r)) = none := by
      rw [htokens]
      exact behind?_of_start ht rfl _
    simp [readActions, hbehind, ha, has]

end

theorem readStep_of_start {t : Token} (ht : isStart t = true) (n : Nat) (ts : List Token) :
    readStep n (t :: ts) = (readAction n (t :: ts)).map fun (a, ts) => (.act a, ts) := by
  cases t with
  | sign s => cases s <;> first | rfl | cases ht
  | _ => rfl

/-- A step is read as it was written. -/
theorem Step.read_tokens (step : Step) {n : Nat} (hn : 4 * step.tokens.length + 3 ≤ n) :
    readStep n step.tokens = some (step, []) := by
  cases step with
  | giveBack e =>
    rw [Step.tokens, List.length_cons] at hn
    have he := Expr.read_tokens e (n := n) (r := []) rfl (by simp only [List.append_nil]; omega)
    rw [List.append_nil] at he
    rw [Step.tokens, readStep, he]
    rfl
  | requireNull x message => rfl
  | requireNot x message => rfl
  | act a =>
    have ha := Action.read_tokens a (n := n) (r := []) rfl (by simpa [Step.tokens] using hn)
    obtain ⟨t, ts, htokens, ht⟩ := a.exists_start
    rw [List.append_nil, htokens] at ha
    rw [Step.tokens, htokens, readStep_of_start ht, ha]
    rfl

/-- Code with the tokens of a step is that step. -/
theorem Step.ofCode?_eq {code : Code} {step : Step} (h : codeTokens code = step.tokens) :
    ofCode? code = some step := by
  rw [ofCode?, h, Step.read_tokens step (Nat.le_refl _)]

end DataClassGen.Meaning
