import DataClassGen.Convert.Annotation
import DataClassGen.Proofs.Source.Literals
import Mathlib.Data.List.Forall2

/-!
# The values of annotations and constants as they are written

An annotation's member may be an array or an annotation again, with strings and characters at any
depth. Each of these is written as one literal, in the order in which they stand in the value
(`MemberValue.quoted`). What is written around them are names, types, signs and numbers, and in
signs and numbers there are no quotes.
-/

namespace DataClassGen

open Source

/-! ### Strings and characters in a value -/

mutual

/-- The strings and the characters in the value of a member, in their order. -/
def MemberValue.quoted : MemberValue → List Quoted
  | .string s => [.string s]
  | .char c => [.char c]
  | .array items => MemberValue.quotedAll items
  | .nested _ members => MemberValue.quotedMembers members
  | _ => []

/-- Those in the values of an array. -/
def MemberValue.quotedAll : List MemberValue → List Quoted
  | [] => []
  | item :: items => MemberValue.quoted item ++ MemberValue.quotedAll items

/-- Those in the values of members. -/
def MemberValue.quotedMembers : List (String × MemberValue) → List Quoted
  | [] => []
  | (_, value) :: members => MemberValue.quoted value ++ MemberValue.quotedMembers members

end

/-- The string or the character that a constant is. -/
def Constant.quoted : Constant → List Quoted
  | .string s => [.string s]
  | .char c => [.char c]
  | _ => []

theorem MemberValue.quotedAll_eq (items : List MemberValue) :
    MemberValue.quotedAll items = (items.map MemberValue.quoted).flatten := by
  induction items with
  | nil => rfl
  | cons item items ih => rw [MemberValue.quotedAll, ih, List.map_cons, List.flatten_cons]

theorem MemberValue.quotedMembers_eq (members : List (String × MemberValue)) :
    MemberValue.quotedMembers members =
      (members.map fun member => member.2.quoted).flatten := by
  induction members with
  | nil => rfl
  | cons member members ih => rw [MemberValue.quotedMembers, ih, List.map_cons, List.flatten_cons]

/-! ### Numbers -/

theorem not_isQuote_of_isDigit {c : Char} (h : c.isDigit = true) : ¬ IsQuote c := by
  rintro (rfl | rfl) <;> revert h <;> decide

theorem not_isQuote_of_mem_decimalDigits {n : Nat} {c : Char} (h : c ∈ decimalDigits n) :
    ¬ IsQuote c :=
  not_isQuote_of_isDigit (Nat.isDigit_of_mem_toDigits (by decide) (by decide) h)

theorem unquoted_decimalDigits (n : Nat) : Unquoted (String.ofList (decimalDigits n)) := by
  intro c hc
  rw [String.toList_ofList] at hc
  exact not_isQuote_of_mem_decimalDigits hc

theorem unquoted_toString (n : Int) : Unquoted (toString n) := by
  cases n with
  | ofNat n => exact unquoted_decimalDigits n
  | negSucc n => exact unquoted_append.mpr ⟨by decide, unquoted_decimalDigits (n + 1)⟩

theorem DecimalForm.unquoted_positional (d : DecimalForm) : Unquoted d.positional := by
  rw [positional]
  split
  · exact unquoted_decimalDigits _
  · next n _ =>
    intro c hc
    rw [String.toList_ofList] at hc
    have hpadded : ∀ c ∈ List.replicate (n + 2 - (decimalDigits d.digits).length) '0' ++
        decimalDigits d.digits, ¬ IsQuote c := by
      intro c hc
      rcases List.mem_append.mp hc with hc | hc
      · rw [List.eq_of_mem_replicate hc]
        decide
      · exact not_isQuote_of_mem_decimalDigits hc
    rcases List.mem_append.mp hc with hc | hc
    · exact hpadded c (List.mem_of_mem_take hc)
    · rcases List.mem_cons.mp hc with rfl | hc
      · decide
      · exact hpadded c (List.mem_of_mem_drop hc)

namespace Binary64

variable (x : Binary64)

theorem unquoted_text : Unquoted x.text := by
  refine unquoted_append.mpr ⟨?_, x.shortest.unquoted_positional⟩
  split <;> decide

theorem unquoted_textWithPoint : Unquoted x.textWithPoint := by
  rw [textWithPoint]
  split
  · exact unquoted_append.mpr ⟨x.unquoted_text, by decide⟩
  · exact x.unquoted_text

end Binary64

theorem unquoted_nonFiniteText {className : String} (h : Unquoted className) (x : Binary64) :
    Unquoted (nonFiniteText className x) := by
  refine unquoted_append.mpr ⟨unquoted_append.mpr ⟨h, by decide⟩, ?_⟩
  split
  · decide
  · split <;> decide

theorem unquoted_floatText (x : Binary64) : Unquoted (floatText x) := by
  rw [floatText]
  split
  · exact unquoted_append.mpr ⟨x.unquoted_text, by decide⟩
  · exact unquoted_nonFiniteText (by decide) x

theorem unquoted_doubleText (x : Binary64) : Unquoted (doubleText x) := by
  rw [doubleText]
  split
  · exact x.unquoted_textWithPoint
  · exact unquoted_nonFiniteText (by decide) x

theorem unquoted_boolText (b : Bool) : Unquoted (boolText b) := by
  cases b <;> decide

/-! ### The literals of a value -/

open Code (hasLiterals_lit hasLiterals_str hasLiterals_charLiteral hasLiterals_ident
  hasLiterals_classed)

variable (resolve : TypeName → String)

/-- A constant is written with a literal for the string or the character that it is. -/
theorem Constant.hasLiterals_literal (k : Constant) : k.literal.HasLiterals resolve k.quoted := by
  cases k with
  | string s => exact hasLiterals_str s
  | char c => exact hasLiterals_charLiteral c
  | bool b => exact hasLiterals_lit (unquoted_boolText b)
  | int n => exact hasLiterals_lit (unquoted_toString n)
  | long n => exact hasLiterals_lit (unquoted_append.mpr ⟨unquoted_toString n, by decide⟩)
  | float x => exact hasLiterals_lit (unquoted_floatText x)
  | double x => exact hasLiterals_lit (unquoted_doubleText x)

mutual

/-- The value of a member is written with the literals for its strings and its characters. -/
theorem MemberValue.hasLiterals_literal :
    ∀ v : MemberValue, v.literal.HasLiterals resolve v.quoted
  | .string s => hasLiterals_str s
  | .char c => hasLiterals_charLiteral c
  | .bool b => hasLiterals_lit (unquoted_boolText b)
  | .int n => hasLiterals_lit (unquoted_toString n)
  | .long n => hasLiterals_lit (unquoted_append.mpr ⟨unquoted_toString n, by decide⟩)
  | .float x => hasLiterals_lit (unquoted_floatText x)
  | .double x => hasLiterals_lit (unquoted_doubleText x)
  | .enumConstant typeName constant =>
    ((hasLiterals_classed (.ofCanonical typeName)).followed (by decide)).append
      (hasLiterals_ident constant)
  | .classLiteral name => (hasLiterals_classed (convertClass name)).followed (by decide)
  | .array items => by
    have hitems : (Code.joined ", " (literals items)).HasLiterals resolve _ :=
      .joined (by decide) (MemberValue.hasLiterals_literals items)
    rw [literal, quoted, quotedAll_eq]
    exact ((hasLiterals_lit (by decide)).append hitems).followed (by decide)
  | .nested typeName members => by
    have hmembers :
        (Code.joined ", " (memberCodes (isPositional members) members)).HasLiterals resolve _ :=
      .joined (by decide) (MemberValue.hasLiterals_memberCodes (isPositional members) members)
    rw [literal, quoted, quotedMembers_eq]
    exact (((hasLiterals_classed (.ofCanonical typeName)).followed (by decide)).append
      hmembers).followed (by decide)

theorem MemberValue.hasLiterals_literals : ∀ items : List MemberValue,
    List.Forall₂ (Code.HasLiterals resolve) (MemberValue.literals items)
      (items.map MemberValue.quoted)
  | [] => .nil
  | item :: items =>
    .cons (MemberValue.hasLiterals_literal item) (MemberValue.hasLiterals_literals items)

theorem MemberValue.hasLiterals_memberCodes (positional : Bool) :
    ∀ members : List (String × MemberValue),
      List.Forall₂ (Code.HasLiterals resolve) (memberCodes positional members)
        (members.map fun member => member.2.quoted)
  | [] => .nil
  | (name, value) :: members => by
    have hvalue := MemberValue.hasLiterals_literal value
    refine .cons ?_ (MemberValue.hasLiterals_memberCodes positional members)
    cases positional with
    | true => exact hvalue
    | false =>
      exact ((hasLiterals_ident name).followed (by decide)).append hvalue

end

/-- Literals are read back: a string or a character from its own literal, whatever follows it, and
those of the values of annotations and constants, however deep they stand in arrays and annotations,
from one literal each, in their order. -/
theorem literals_read_back :
    (∀ s rest, readString? ((stringLiteral s).toList ++ rest) = some (s, rest)) ∧
    (∀ c rest, readChar? ((charLiteral c).toList ++ rest) = some (c, rest)) ∧
    ∀ resolve : TypeName → String,
      (∀ v : MemberValue, v.literal.HasLiterals resolve v.quoted) ∧
      (∀ a : AnnotationUse, List.Forall₂
        (fun member code => Code.HasLiterals resolve code member.2.quoted)
        a.members a.convert.members) ∧
      ∀ k : Constant, k.literal.HasLiterals resolve k.quoted := by
  refine ⟨readString?_stringLiteral, readChar?_charLiteral, fun resolve =>
    ⟨MemberValue.hasLiterals_literal resolve, fun a => ?_, Constant.hasLiterals_literal resolve⟩⟩
  have hmembers :=
    MemberValue.hasLiterals_memberCodes resolve (isPositional a.members) a.members
  exact (List.forall₂_map_right_iff.mp hmembers).flip

end DataClassGen
