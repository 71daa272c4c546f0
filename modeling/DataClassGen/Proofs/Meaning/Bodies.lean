import DataClassGen.Proofs.Meaning.Evaluation
import DataClassGen.Proofs.Model.Methods

/-!
# The bodies that are generated

The generator writes the bodies of functions piece by piece. Here each of them is shown to be what
some tree is written as, whatever the names, types and number of properties are, so that it reads as
that tree: the functions that give a builder or change a property, the setters of a builder, the
access to the builders of properties, and the methods that finish a value.

Arguments with commas between them come in all of these, so they are dealt with first
(`codeTokens_joined`).
-/

namespace DataClassGen.Meaning

open Source

/-! ### Tokens of code -/

@[simp] theorem codeTokens_nil : codeTokens [] = [] := rfl

@[simp] theorem codeTokens_append (code code' : Code) :
    codeTokens (code ++ code') = codeTokens code ++ codeTokens code' := List.flatMap_append

@[simp] theorem codeTokens_lit (text : String) : codeTokens (Code.lit text) = Token.ofText text := by
  rw [Code.lit]
  split
  · next h =>
    rw [String.isEmpty_iff.mp h]
    rfl
  · exact List.append_nil _

@[simp] theorem codeTokens_ident (n : String) : codeTokens (Code.ident n) = [.name n] := rfl

@[simp] theorem codeTokens_str (s : String) : codeTokens (Code.str s) = [.text s] := rfl

@[simp] theorem codeTokens_typed (t : TypeName) : codeTokens (Code.typed t) = [.type t] := rfl

@[simp] theorem codeTokens_classed (cls : ClassName) :
    codeTokens (Code.classed cls) = [.type (.ofClass cls)] := rfl

/-! ### What the texts between the names stand for -/

section Texts

@[simp] theorem ofText_return : Token.ofText "return " = [.sign .giveBack] := rfl

@[simp] theorem ofText_leftParen : Token.ofText "(" = [.sign .leftParen] := rfl

@[simp] theorem ofText_rightParen : Token.ofText ")" = [.sign .rightParen] := rfl

@[simp] theorem ofText_comma : Token.ofText ", " = [.sign .comma] := rfl

@[simp] theorem ofText_equals : Token.ofText " = " = [.sign .equals] := rfl

@[simp] theorem ofText_dot : Token.ofText "." = [.sign .dot] := rfl

@[simp] theorem ofText_noArguments :
    Token.ofText "()" = [.sign .leftParen, .sign .rightParen] := rfl

@[simp] theorem ofText_thenDot : Token.ofText ")." = [.sign .rightParen, .sign .dot] := rfl

@[simp] theorem ofText_fallback : Token.ofText " ?: " = [.sign .question, .sign .colon] := rfl

@[simp] theorem ofText_orError : Token.ofText " ?: error(" =
    [.sign .question, .sign .colon, .sign .error, .sign .leftParen] := rfl

@[simp] theorem ofText_built : Token.ofText "?.build() ?: " =
    [.sign .question, .sign .dot, .name "build", .sign .leftParen, .sign .rightParen,
      .sign .question, .sign .colon] := rfl

@[simp] theorem ofText_copy :
    Token.ofText "return copy(" = [.sign .giveBack, .sign .copy, .sign .leftParen] := rfl

@[simp] theorem ofText_null : Token.ofText "null" = [.sign .null] := rfl

@[simp] theorem ofText_false : Token.ofText "false" = [.sign .no] := rfl

end Texts

/-- Pieces with commas between them are arguments. -/
theorem codeTokens_joined {β : Type} {code : β → Code} {argument : β → Argument} (bs : List β)
    (h : ∀ b ∈ bs, codeTokens (code b) = (argument b).tokens) :
    codeTokens (Code.joined ", " (bs.map code)) ++ [.sign .rightParen] =
      Argument.tokensAll (bs.map argument) := by
  cases bs with
  | nil => rfl
  | cons b bs =>
    induction bs generalizing b with
    | nil => simp [Code.joined, Argument.tokensAll, Argument.tokensMore, h b (by simp)]
    | cons b' bs ih =>
      have ih := ih b' fun b'' hb => h b'' (List.mem_cons_of_mem _ hb)
      simp only [List.map_cons, Argument.tokensAll] at ih
      simp [Code.joined, Argument.tokensAll, Argument.tokensMore, h b (by simp), ih]

/-- The argument for a property that is passed on by its name. -/
def forwarded (onSelf : Bool) (n : String) : Argument :=
  .mk (some n) (if onSelf then .value .self [.field n] else .value (.name n) [])

theorem codeTokens_forwarding (set : PropertySet) :
    codeTokens (set.forwardingArguments none) ++ [.sign .rightParen] =
      Argument.tokensAll (set.properties.map fun p => forwarded false p.name) := by
  refine codeTokens_joined set.properties fun p _ => ?_
  simp [forwarded, Argument.tokens, Expr.tokens, Head.tokens, Suffix.tokensAll]

theorem codeTokens_forwardingSelf (set : PropertySet) :
    codeTokens (set.forwardingArguments (some "this")) ++ [.sign .rightParen] =
      Argument.tokensAll (set.properties.map fun p => forwarded true p.name) := by
  have hself : Token.ofText "this." = [.sign .self, .sign .dot] := rfl
  refine codeTokens_joined set.properties fun p _ => ?_
  simp [forwarded, Argument.tokens, Expr.tokens, Head.tokens, Suffix.tokensAll, Suffix.tokens,
    hself]

/-! ### Bodies of a value class -/

/-- A value of this name. -/
def named (n : String) : Expr := .value (.name n) []

/-- What gives a new builder with the values of the properties. -/
def builderHead (c : ClassModel) (b : BuilderModel) (onSelf : Bool) : Head :=
  .make (.ofClass (c.builderClass b)) (c.properties.properties.map fun p => forwarded onSelf p.name)

theorem ofCode?_builderFromProperties (c : ClassModel) (b : BuilderModel) :
    Step.ofCode? (c.builderFromProperties b) =
      some (.giveBack (.value (builderHead c b false) [])) := by
  refine Step.ofCode?_eq ?_
  simp [ClassModel.builderFromProperties, builderHead, Step.tokens, Expr.tokens, Head.tokens,
    Suffix.tokensAll, ← codeTokens_forwarding]

/-- What sets a property of a builder and finishes the value. -/
def settingSuffixes (b : BuilderModel) (property setter : String) : List Suffix :=
  [.send false setter [.mk none (named property)], .send false b.buildCall []]

/-- The step of a function that changes a property. -/
def witherStep (c : ClassModel) (property : String) : Step :=
  match c.builder with
  | none => .giveBack (.value (.copy [.mk (some property) (named property)]) [])
  | some b =>
    match b.setterName? property with
    | none => .giveBack (.value (.copy [.mk (some property) (named property)]) [])
    | some setter =>
      match c.plainToBuilder? with
      | some f => .giveBack (.value (.call f.name []) (settingSuffixes b property setter))
      | none => .giveBack (.value (builderHead c b true) (settingSuffixes b property setter))

theorem ofCode?_witherBody (c : ClassModel) (property : String) :
    Step.ofCode? (witherBody property c.properties (c.builder.map fun b => (b, c.builderClass b))
      c.plainToBuilder?) = some (witherStep c property) := by
  refine Step.ofCode?_eq ?_
  have hcopy : codeTokens (Code.lit "return copy(" ++ Code.ident property ++ Code.lit " = " ++
      Code.ident property ++ Code.lit ")") =
        Step.tokens (.giveBack (.value (.copy [.mk (some property) (named property)]) [])) := by
    simp [Step.tokens, Expr.tokens, Head.tokens, Suffix.tokensAll, Argument.tokensAll,
      Argument.tokens, Argument.tokensMore, named]
  rw [witherBody.eq_def, witherStep]
  cases c.builder with
  | none => exact hcopy
  | some b =>
    simp only [Option.map_some]
    cases b.setterName? property with
    | none => exact hcopy
    | some setter =>
      cases c.plainToBuilder? with
      | none =>
        simp [Step.tokens, Expr.tokens, Head.tokens, builderHead, settingSuffixes, named,
          Suffix.tokensAll, Suffix.tokens, Argument.tokensAll, Argument.tokens, Argument.tokensMore,
          ← codeTokens_forwardingSelf]
      | some f =>
        simp [Step.tokens, Expr.tokens, Head.tokens, settingSuffixes, named, Suffix.tokensAll,
          Suffix.tokens, Argument.tokensAll, Argument.tokens, Argument.tokensMore]

/-! ### Bodies of a builder -/

/-- The step of a function that calls another. -/
theorem ofCode?_call (f : String) :
    Step.ofCode? (Code.lit "return " ++ Code.ident f ++ Code.lit "()") =
      some (.giveBack (.value (.call f []) [])) := by
  refine Step.ofCode?_eq ?_
  simp [Step.tokens, Expr.tokens, Head.tokens, Suffix.tokensAll, Argument.tokensAll]

/-- The argument for a property when the value is finished. -/
def builtArgument (p : BuilderProperty) (zero : Option Code) : Argument :=
  let given : Expr :=
    if zero.isNone && !p.type.isNullable then
      .orElse (.name p.name) [] (.value (.fail (.value (.text (p.name ++ " == null")) [])) [])
    else named p.name
  .mk (some p.name) (match p.subBuilder with
    | none => given
    | some s => .orElse (.name s.fieldName) [.send true "build" []] given)

theorem codeTokens_argument (p : BuilderProperty) (zero : Option Code) :
    codeTokens (p.argument zero) = (builtArgument p zero).tokens := by
  rw [BuilderProperty.argument, builtArgument]
  generalize (zero.isNone && !p.type.isNullable) = isNeeded
  cases p.subBuilder <;> cases isNeeded <;>
    simp [Argument.tokens, Expr.tokens, Head.tokens, Suffix.tokensAll, Suffix.tokens,
      Argument.tokensAll, named]

theorem ofCode?_finalize (valueClass : ClassName)
    (properties : List (BuilderProperty × Option Code)) :
    Step.ofCode? (Code.lit "return " ++ Code.classed valueClass ++ Code.lit "(" ++
      Code.joined ", " (properties.map fun p => p.1.argument p.2) ++ Code.lit ")") =
        some (.giveBack (.value (.make (.ofClass valueClass)
          (properties.map fun p => builtArgument p.1 p.2)) [])) := by
  refine Step.ofCode?_eq ?_
  simp [Step.tokens, Expr.tokens, Head.tokens, Suffix.tokensAll,
    ← codeTokens_joined properties fun p _ => codeTokens_argument p.1 p.2]

/-- What a setter has to see to before it sets a property that has a builder of its own. -/
def guardSteps (p : BuilderProperty) : List Step :=
  match p.guarded? with
  | none => []
  | some s => [
    .requireNull s.fieldName ("Cannot set " ++ p.name ++ " after calling " ++ s.accessor.name ++ "()"),
    .act (.assign false (SubBuilder.flagName p.name) (.value (.truth true) []))]

/-- What a setter does then. -/
def settingStep (p : BuilderProperty) (setter : Function) : Step :=
  match setter.parameters.head? with
  | some parameter => .giveBack (.value (.apply (.assign true p.name (named parameter.name))) [])
  | none => .giveBack (.value .self [])

theorem stepsOf?_setterFunction (p : BuilderProperty) {setter : Function} (h : setter.body = []) :
    stepsOf? (p.setterFunction setter) = some (guardSteps p ++ [settingStep p setter]) := by
  have hcheck : Token.ofText "check(" = [.sign .check, .sign .leftParen] := rfl
  have hisNull : Token.ofText " == null) \x7b " =
      [.sign .equals, .sign .equals, .sign .null, .sign .rightParen, .sign .leftBrace] := rfl
  have hend : Token.ofText " \x7d" = [.sign .rightBrace] := rfl
  have htrue : Token.ofText " = true" = [.sign .equals, .sign .yes] := rfl
  have happly : Token.ofText "return apply \x7b this." =
      [.sign .giveBack, .sign .apply, .sign .leftBrace, .sign .self, .sign .dot] := rfl
  have hself : Token.ofText "return this" = [.sign .giveBack, .sign .self] := rfl
  -- the guards and the setting are read one by one
  have hguard (s : SubBuilder) : Step.ofCode? (Code.lit "check(" ++ Code.ident s.fieldName ++
      Code.lit " == null) \x7b " ++
        Code.str ("Cannot set " ++ p.name ++ " after calling " ++ s.accessor.name ++ "()") ++
        Code.lit " \x7d") = some (.requireNull s.fieldName
          ("Cannot set " ++ p.name ++ " after calling " ++ s.accessor.name ++ "()")) :=
    Step.ofCode?_eq (by simp [Step.tokens, hcheck, hisNull, hend])
  have hflag : Step.ofCode? (Code.ident (SubBuilder.flagName p.name) ++ Code.lit " = true") =
      some (.act (.assign false (SubBuilder.flagName p.name) (.value (.truth true) []))) :=
    Step.ofCode?_eq (by
      simp [Step.tokens, Action.tokens, Expr.tokens, Head.tokens, Suffix.tokensAll, htrue])
  have hreturn : Step.ofCode? (Code.lit "return this") = some (.giveBack (.value .self [])) :=
    Step.ofCode?_eq (by simp [Step.tokens, Expr.tokens, Head.tokens, Suffix.tokensAll, hself])
  have hset (q : Parameter) : Step.ofCode? (Code.lit "return apply \x7b this." ++ Code.ident p.name ++
      Code.lit " = " ++ Code.ident q.name ++ Code.lit " \x7d") =
        some (.giveBack (.value (.apply (.assign true p.name (named q.name))) [])) :=
    Step.ofCode?_eq (by
      simp [Step.tokens, Expr.tokens, Head.tokens, Suffix.tokensAll, Action.tokens, named, happly,
        hend])
  rw [stepsOf?, BuilderProperty.setterFunction, guardSteps, settingStep, h]
  cases p.guarded? <;> cases setter.parameters.head? <;>
    simp [code?, hguard, hflag, hreturn, hset, -List.append_assoc]

/-- What gives a new builder of a property. -/
def creationHead (s : SubBuilder) : Head :=
  match s.type.class?.bind ClassName.enclosing?, s.type.class? with
  | some enclosing, some cls =>
    if cls.simpleName = "Builder" then .factory (.ofClass enclosing) "builder" s.type.args
    else .make s.type []
  | _, _ => .make s.type []

theorem codeTokens_joinedTypes (types : List TypeName) :
    codeTokens (Code.joined ", " (types.map Code.typed)) = typeTokens types := by
  induction types with
  | nil => rfl
  | cons t types ih =>
    cases types with
    | nil => rfl
    | cons u types =>
      simp only [List.map_cons] at ih
      simp [Code.joined, typeTokens, ih]

theorem codeTokens_creation (s : SubBuilder) :
    codeTokens s.creation = (creationHead s).tokens := by
  have hbuilder : Token.ofText ".builder" = [.sign .dot, .name "builder"] := rfl
  have hless : Token.ofText "<" = [.sign .less] := rfl
  have hgreater : Token.ofText ">" = [.sign .greater] := rfl
  rw [SubBuilder.creation, creationHead]
  cases hcls : s.type.class? with
  | none => simp [Head.tokens, Argument.tokensAll]
  | some cls =>
    cases henclosing : cls.enclosing? with
    | none => simp [henclosing, Head.tokens, Argument.tokensAll]
    | some enclosing =>
      by_cases hname : cls.simpleName = "Builder"
      · by_cases hargs : s.type.args = [] <;>
          simp [henclosing, hname, hargs, Head.tokens, hbuilder, hless, hgreater,
            codeTokens_joinedTypes]
      · simp [henclosing, hname, Head.tokens, Argument.tokensAll]

/-- What is done with a new builder of a property: the property gives way to it, and it is kept. -/
def keepingActions (s : SubBuilder) (property : String) : List Action :=
  [.assign false property (.value .null []), .assign false s.fieldName (named "subBuilder")]

/-- The builder of a property: the one that is kept, or else a new one that takes over the value. -/
def subBuilderExpr (s : SubBuilder) (property : String) : Expr :=
  .orElse (.name s.fieldName) [] (match s.seedMethod? with
    | some method => .value (creationHead s) [.also "subBuilder"
        (.perform (.value (.name property) [.whenPresent (.value (.name "subBuilder")
          [.send false method [.mk none (named "it")]])]) :: keepingActions s property)]
    | none => .value (.group (.orElse (.name property) [.send true "toBuilder" []]
        (.value (creationHead s) []))) [.also "subBuilder" (keepingActions s property)])

theorem seedMethod?_cases {s : SubBuilder} {method : String} (h : s.seedMethod? = some method) :
    method = "putAll" ∨ method = "addAll" := by
  obtain ⟨cls, -, h⟩ := Option.bind_eq_some_iff.mp h
  obtain ⟨enclosing, -, h⟩ := Option.bind_eq_some_iff.mp h
  split at h
  · obtain rfl := Option.some.inj h
    split
    · exact Or.inl rfl
    · exact Or.inr rfl
  · cases h

theorem codeTokens_seeded (s : SubBuilder) (property : String) :
    Token.name s.fieldName :: .sign .question :: .sign .colon ::
      codeTokens (s.seededCreation property) = (subBuilderExpr s property).tokens := by
  have halso : Token.ofText ".also \x7b subBuilder ->" =
      [.sign .dot, .sign .also, .sign .leftBrace, .name "subBuilder", .sign .minus,
        .sign .greater] := rfl
  have hline : Token.ofText "\n  " = [.sign .lineFeed] := rfl
  have hnull : Token.ofText " = null" = [.sign .equals, .sign .null] := rfl
  have hkept : Token.ofText " = subBuilder\n\x7d" =
      [.sign .equals, .name "subBuilder", .sign .lineFeed, .sign .rightBrace] := rfl
  have hput : Token.ofText "?.let \x7b subBuilder.putAll(it) \x7d" =
      [.sign .question, .sign .dot, .sign .bind, .sign .leftBrace, .name "subBuilder", .sign .dot,
        .name "putAll", .sign .leftParen, .name "it", .sign .rightParen, .sign .rightBrace] := rfl
  have hadd : Token.ofText "?.let \x7b subBuilder.addAll(it) \x7d" =
      [.sign .question, .sign .dot, .sign .bind, .sign .leftBrace, .name "subBuilder", .sign .dot,
        .name "addAll", .sign .leftParen, .name "it", .sign .rightParen, .sign .rightBrace] := rfl
  have htoBuilder : Token.ofText "?.toBuilder() ?: " =
      [.sign .question, .sign .dot, .name "toBuilder", .sign .leftParen, .sign .rightParen,
        .sign .question, .sign .colon] := rfl
  have hgroup : Token.ofText ").also \x7b subBuilder ->" =
      [.sign .rightParen, .sign .dot, .sign .also, .sign .leftBrace, .name "subBuilder",
        .sign .minus, .sign .greater] := rfl
  have hkeeping : codeTokens (s.keeping property) =
      Action.tokensAll (keepingActions s property) := by
    simp [SubBuilder.keeping, keepingActions, Action.tokensAll, Action.tokens, Expr.tokens,
      Head.tokens, Suffix.tokensAll, named, hline, hnull, hkept]
  rw [SubBuilder.seededCreation, subBuilderExpr]
  cases hmethod : s.seedMethod? with
  | none =>
    simp [Expr.tokens, Head.tokens, Suffix.tokensAll, Suffix.tokens, Argument.tokensAll,
      codeTokens_creation, hkeeping, htoBuilder, hgroup]
  | some method =>
    rcases seedMethod?_cases hmethod with rfl | rfl <;>
      simp [Expr.tokens, Head.tokens, Suffix.tokensAll, Suffix.tokens, Argument.tokensAll,
        Argument.tokens, Argument.tokensMore, Action.tokensAll, Action.tokens, named,
        codeTokens_creation, hkeeping, halso, hline, hput, hadd]

/-- What the access to a builder of a property has to see to. -/
def accessSteps (p : BuilderProperty) (s : SubBuilder) : List Step :=
  match p.guarded? with
  | none => []
  | some _ => [.requireNot (SubBuilder.flagName p.name)
      ("Cannot call " ++ s.accessor.name ++ "() after setting " ++ p.name)]

theorem stepsOf?_subBuilderFunction (p : BuilderProperty) {s : SubBuilder}
    (h : s.accessor.body = []) :
    stepsOf? (p.subBuilderFunction s) =
      some (accessSteps p s ++ [.giveBack (subBuilderExpr s p.name)]) := by
  have hcheck : Token.ofText "check(!" = [.sign .check, .sign .leftParen, .sign .bang] := rfl
  have hthen : Token.ofText ") \x7b " = [.sign .rightParen, .sign .leftBrace] := rfl
  have hend : Token.ofText " \x7d" = [.sign .rightBrace] := rfl
  have hguard : Step.ofCode? (Code.lit "check(!" ++ Code.ident (SubBuilder.flagName p.name) ++
      Code.lit ") \x7b " ++
        Code.str ("Cannot call " ++ s.accessor.name ++ "() after setting " ++ p.name) ++
        Code.lit " \x7d") = some (.requireNot (SubBuilder.flagName p.name)
          ("Cannot call " ++ s.accessor.name ++ "() after setting " ++ p.name)) :=
    Step.ofCode?_eq (by simp [Step.tokens, hcheck, hthen, hend])
  have hgive : Step.ofCode? (Code.lit "return " ++ Code.ident s.fieldName ++ Code.lit " ?: " ++
      s.seededCreation p.name) = some (.giveBack (subBuilderExpr s p.name)) :=
    Step.ofCode?_eq (by simp [Step.tokens, ← codeTokens_seeded])
  rw [stepsOf?, BuilderProperty.subBuilderFunction, accessSteps, h]
  cases p.guarded? <;> simp [code?, hguard, hgive, -List.append_assoc]

end DataClassGen.Meaning
