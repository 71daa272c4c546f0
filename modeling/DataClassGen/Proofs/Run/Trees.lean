import DataClassGen.Proofs.Run.Accounts

/-!
# Rounds of trees

A round is made of trees if each of its types comes with all that is nested in it, and a nested type
has the name of the type around it, a dot and a name without dots; in a complete round none of these
names is empty besides. As long as the types at the top have names that are not empty, this much is
enough to tell from the name of a type which type at the top it is in, and that its package and its
own name make up its name again.
-/

namespace DataClassGen

open Source

namespace TypeElement

/-- A name of a type by itself. -/
def IsSimpleName (name : String) : Prop := name ≠ "" ∧ '.' ∉ name.toList

/-- The name of a type in a package, declared in `outer` or at the top. -/
def nameIn (package : String) (outer : Option String) (simpleName : String) : String :=
  match outer with
  | some outer => outer ++ "." ++ simpleName
  | none => if package.isEmpty then simpleName else package ++ "." ++ simpleName

/-- The type and all that is nested in it are of the package and do not say what they are declared
in, and what is nested is named for the type around it. -/
inductive IsTree (package : String) : TypeElement → Prop
  | intro {e : TypeElement} (enclosing : e.enclosing = none) (inPackage : e.package = package)
      (named : ∀ u ∈ e.nestedTypes, ∃ simpleName : String, '.' ∉ simpleName.toList ∧
        u.qualifiedName = e.qualifiedName ++ "." ++ simpleName)
      (nested : ∀ u ∈ e.nestedTypes, IsTree package u) : IsTree package e

/-- The type has the name of the type `top` at the top of its package, or one that continues it
behind a dot. -/
def IsNamedUnder (top : String) (e : TypeElement) : Prop :=
  ∃ rest : String, (rest = "" ∨ ∃ inner, rest = "." ++ inner) ∧
    e.qualifiedName = nameIn e.package none (top ++ rest)

theorem nameIn_append (package name rest : String) :
    nameIn package none name ++ rest = nameIn package none (name ++ rest) := by
  simp only [nameIn]
  split
  · rfl
  · rw [String.append_assoc]

theorem relative?_nameIn (package name : String) :
    ClassName.relative? package (nameIn package none name) = some name := by
  rw [ClassName.relative?, nameIn]
  split
  · rfl
  · exact Text.after?_append _ _

namespace IsNamedUnder

variable {top : String} {e : TypeElement}

theorem of_top (name : e.qualifiedName = nameIn e.package none top) : e.IsNamedUnder top :=
  ⟨"", Or.inl rfl, by rw [String.append_empty, name]⟩

/-- What is nested in a type is under the same type at the top. -/
theorem nested (h : e.IsNamedUnder top) {u : TypeElement} {simpleName : String}
    (hpackage : u.package = e.package)
    (name : u.qualifiedName = e.qualifiedName ++ "." ++ simpleName) : u.IsNamedUnder top := by
  obtain ⟨rest, hrest, hname⟩ := h
  refine ⟨rest ++ ("." ++ simpleName), ?_, ?_⟩
  · rcases hrest with rfl | ⟨inner, rfl⟩
    · exact Or.inr ⟨simpleName, String.empty_append⟩
    · exact Or.inr ⟨inner ++ ("." ++ simpleName), String.append_assoc ..⟩
  · rw [name, hname, hpackage, String.append_assoc, nameIn_append, String.append_assoc]

/-- The name of a type at the top that is not empty begins with no dot. -/
theorem head (hsimple : IsSimpleName top) (rest : String) :
    ∃ c cs, (top ++ rest).toList = c :: cs ∧ c ≠ '.' := by
  obtain ⟨c, cs, hcs⟩ := List.exists_cons_of_ne_nil (mt String.toList_eq_nil_iff.mp hsimple.1)
  refine ⟨c, cs ++ rest.toList, by rw [String.toList_append, hcs, List.cons_append], ?_⟩
  rintro rfl
  exact hsimple.2 (hcs ▸ List.mem_cons_self)

theorem keepsName (h : e.IsNamedUnder top) (hsimple : IsSimpleName top) : e.KeepsName := by
  obtain ⟨rest, -, hname⟩ := h
  have hne : top ++ rest ≠ "" := by
    obtain ⟨c, cs, hcs, -⟩ := head hsimple rest
    rw [ne_eq, ← String.toList_eq_nil_iff, hcs]
    exact List.cons_ne_nil c cs
  have hrelative : ClassName.relative? e.package e.qualifiedName = some (top ++ rest) :=
    hname ▸ relative?_nameIn e.package (top ++ rest)
  exact ClassName.canonical_inPackage_of_relative hrelative hne

/-- The type at the top is told by the name. -/
theorem outermostSimpleName (h : e.IsNamedUnder top) (hsimple : IsSimpleName top) :
    e.outermostSimpleName = top := by
  obtain ⟨rest, hrest, hname⟩ := h
  obtain ⟨c, cs, hcs, hc⟩ := head hsimple rest
  have hdrop : (top ++ rest).toList.dropWhile (· == '.') = (top ++ rest).toList := by
    rw [hcs, List.dropWhile_cons, if_neg (by simpa using hc)]
  -- behind the package stands what the type is called there, with a dot before it if there is one
  obtain ⟨behind, hbehind, hdropped⟩ : ∃ behind,
      e.package.toList.isPrefixOf? e.qualifiedName.toList = some behind ∧
        behind.dropWhile (· == '.') = (top ++ rest).toList := by
    rw [hname, nameIn]
    by_cases hpackage : e.package.isEmpty = true
    · have hempty : e.package = "" := by simpa using hpackage
      refine ⟨(top ++ rest).toList, ?_, hdrop⟩
      rw [if_pos hpackage, hempty]
      rfl
    · refine ⟨'.' :: (top ++ rest).toList, ?_, ?_⟩
      · rw [if_neg hpackage, String.append_assoc, String.toList_append (s := e.package),
          List.isPrefixOf?_eq_some_iff_append_eq.mpr rfl, String.toList_append]
        rfl
      · rw [List.dropWhile_cons, if_pos (by rfl), hdrop]
  have htop : ∀ c ∈ top.toList, (c != '.') = true := by
    intro c hc
    simp only [bne_iff_ne, ne_eq]
    rintro rfl
    exact hsimple.2 hc
  rw [TypeElement.outermostSimpleName, hbehind]
  simp only [hdropped]
  rw [String.toList_append, List.takeWhile_append_of_pos htop]
  rcases hrest with rfl | ⟨inner, rfl⟩
  · simp
  · have hdot : ("." ++ inner).toList.takeWhile (· != '.') = [] := by
      rw [String.toList_append]
      rfl
    rw [hdot, List.append_nil, String.ofList_toList]

end IsNamedUnder

/-- The simple name of a type at the top is what its name has behind the package. -/
theorem simpleName_of_top {e : TypeElement} {simpleName : String} (hdot : '.' ∉ simpleName.toList)
    (hname : e.qualifiedName = nameIn e.package none simpleName) : e.simpleName = simpleName := by
  rw [TypeElement.simpleName, hname, nameIn]
  split
  · exact Text.afterLast_of_not_mem hdot
  · exact Text.afterLast_append e.package hdot

/-- The class of a type at the top has the simple name of the type. -/
theorem inPackage_of_top {e : TypeElement} (hsimple : IsSimpleName e.simpleName)
    (hname : e.qualifiedName = nameIn e.package none e.simpleName) :
    ClassName.inPackage e.package e.qualifiedName = ⟨e.package, [e.simpleName]⟩ := by
  have hrelative : ClassName.relative? e.package e.qualifiedName = some e.simpleName :=
    (congrArg _ hname).trans (relative?_nameIn e.package e.simpleName)
  have hempty : e.simpleName.isEmpty = false := String.isEmpty_eq_false_iff.mpr hsimple.1
  have hdot : ∀ name ∈ [e.simpleName], '.' ∉ name.toList := by simpa using hsimple.2
  have hsplit := Text.split_joinWith '.' hdot (List.cons_ne_nil e.simpleName [])
  rw [Text.joinWith] at hsplit
  rw [ClassName.inPackage, hrelative]
  simp only [hempty, Bool.false_eq_true, if_false, hsplit]

/-- All types of a tree are under the type at its top, and all that is nested in them is named for
them. -/
theorem IsTree.of_mem_types {package top : String} {e : TypeElement} (h : e.IsTree package)
    (hname : e.IsNamedUnder top) {around : Option EnclosingType} {t : TypeElement}
    (ht : t ∈ e.types around) :
    t.IsNamedUnder top ∧ ∀ u ∈ t.nestedTypes, u.enclosing = none ∧ u.package = t.package ∧
      ∃ simpleName : String, u.qualifiedName = t.qualifiedName ++ "." ++ simpleName := by
  induction h generalizing around with
  | @intro e enclosing inPackage named nested ih =>
    have hnested : ∀ u ∈ e.nestedTypes, u.enclosing = none ∧ u.package = e.package := by
      intro u hu
      cases nested u hu with
      | intro enclosing' inPackage' => exact ⟨enclosing', inPackage'.trans inPackage.symm⟩
    rw [types_eq] at ht
    rcases List.mem_cons.mp ht with rfl | ht
    · refine ⟨hname, fun u hu => ?_⟩
      obtain ⟨simpleName, -, hu'⟩ := named u hu
      exact ⟨(hnested u hu).1, (hnested u hu).2, simpleName, hu'⟩
    · obtain ⟨u, hu, ht⟩ := mem_typesOfAll.mp ht
      obtain ⟨simpleName, -, hu'⟩ := named u hu
      exact ih u hu (hname.nested (hnested u hu).2 hu') ht

end TypeElement

open TypeElement

/-- All rounds are made of trees, and no two types have one name. -/
structure TreeRounds (rounds : List Round) : Prop where
  trees : ∀ round ∈ rounds, ∀ e ∈ round.elements, e.IsTree e.package
  tops : ∀ round ∈ rounds, ∀ e ∈ round.elements, ∃ simpleName : String,
    '.' ∉ simpleName.toList ∧ e.qualifiedName = nameIn e.package none simpleName
  distinct : ((rounds.flatMap Round.types).map (·.qualifiedName)).Nodup

/-- No type at the top of a round has an empty name. -/
def TopsNamed (rounds : List Round) : Prop :=
  ∀ round ∈ rounds, ∀ e ∈ round.elements, e.simpleName ≠ ""

namespace TreeRounds

variable {rounds : List Round} {t u : TypeElement}

/-- A type at the top is named by itself. -/
theorem of_top (h : TreeRounds rounds) (named : TopsNamed rounds) {round : Round}
    (hround : round ∈ rounds) {e : TypeElement} (he : e ∈ round.elements) :
    IsSimpleName e.simpleName ∧ e.qualifiedName = nameIn e.package none e.simpleName := by
  obtain ⟨simpleName, hdot, hname⟩ := h.tops round hround e he
  have hne := named round hround e he
  rw [simpleName_of_top hdot hname] at hne ⊢
  exact ⟨⟨hne, hdot⟩, hname⟩

theorem of_mem (h : TreeRounds rounds) (named : TopsNamed rounds)
    (ht : t ∈ rounds.flatMap Round.types) :
    (∃ top, IsSimpleName top ∧ t.IsNamedUnder top) ∧
      ∀ u ∈ t.nestedTypes, u.enclosing = none ∧ u.package = t.package ∧
        ∃ simpleName : String, u.qualifiedName = t.qualifiedName ++ "." ++ simpleName := by
  obtain ⟨round, hround, ht⟩ := List.mem_flatMap.mp ht
  obtain ⟨e, he, ht⟩ := mem_typesOfAll.mp ht
  obtain ⟨hsimple, hname⟩ := h.of_top named hround he
  obtain ⟨hunder, hnested⟩ :=
    (h.trees round hround e he).of_mem_types (IsNamedUnder.of_top hname) ht
  exact ⟨⟨e.simpleName, hsimple, hunder⟩, hnested⟩

theorem keepsName (h : TreeRounds rounds) (named : TopsNamed rounds)
    (ht : t ∈ rounds.flatMap Round.types) : t.KeepsName := by
  obtain ⟨⟨top, hsimple, hunder⟩, -⟩ := h.of_mem named ht
  exact hunder.keepsName hsimple

/-- There is one type of a name. -/
theorem eq_of_name (h : TreeRounds rounds) {t' : TypeElement}
    (ht : t ∈ rounds.flatMap Round.types) (ht' : t' ∈ rounds.flatMap Round.types)
    (hname : t.qualifiedName = t'.qualifiedName) : t = t' :=
  List.inj_on_of_nodup_map h.distinct ht ht' hname

/-! ### Nested types -/

/-- A nested type is one of the rounds', declared in the type it is nested in. -/
theorem nested (h : TreeRounds rounds) (named : TopsNamed rounds)
    (ht : t ∈ rounds.flatMap Round.types) (hu : u ∈ t.nestedTypes) :
    u.declaredIn (some t.asEnclosing) ∈ rounds.flatMap Round.types ∧
      (u.declaredIn (some t.asEnclosing)).enclosing = some t.asEnclosing := by
  refine ⟨Round.nested_mem_types ht hu, ?_⟩
  rw [declaredIn, ((h.of_mem named ht).2 u hu).1]
  rfl

theorem keepsName_nested (h : TreeRounds rounds) (named : TopsNamed rounds)
    (ht : t ∈ rounds.flatMap Round.types) (hu : u ∈ t.nestedTypes) : u.KeepsName :=
  keepsName_of_nested (fun _ ht => h.keepsName named ht) ht hu

/-- No type has two nested types of one name. -/
theorem nodup_nested (h : TreeRounds rounds) (ht : t ∈ rounds.flatMap Round.types) :
    (t.nestedTypes.map (·.qualifiedName)).Nodup := by
  obtain ⟨round, hround, ht⟩ := List.mem_flatMap.mp ht
  have hround : (round.types.map (·.qualifiedName)).Nodup := by
    obtain ⟨before, after, rfl⟩ := List.append_of_mem hround
    have := h.distinct
    rw [List.flatMap_append, List.flatMap_cons, List.map_append, List.map_append] at this
    exact ((List.nodup_append'.mp this).2.1 |> List.nodup_append'.mp).1
  have hsublist := (Round.nested_sublist_types ht).map (·.qualifiedName)
  rw [List.map_map] at hsublist
  exact hround.sublist hsublist

/-- Types with one name are nested in one type. -/
theorem eq_of_nested_name (h : TreeRounds rounds) (named : TopsNamed rounds) {t' u' : TypeElement}
    (ht : t ∈ rounds.flatMap Round.types) (ht' : t' ∈ rounds.flatMap Round.types)
    (hu : u ∈ t.nestedTypes) (hu' : u' ∈ t'.nestedTypes)
    (hname : u.qualifiedName = u'.qualifiedName) : t = t' := by
  obtain ⟨hmem, henclosing⟩ := h.nested named ht hu
  obtain ⟨hmem', henclosing'⟩ := h.nested named ht' hu'
  have heq := h.eq_of_name hmem hmem' hname
  rw [heq, henclosing'] at henclosing
  have hsame := congrArg EnclosingType.qualifiedName (Option.some.inj henclosing)
  exact h.eq_of_name ht ht' hsame.symm

/-- A nested type is in the same type at the top as the one it is nested in. -/
theorem outermostSimpleName_nested (h : TreeRounds rounds) (named : TopsNamed rounds)
    (ht : t ∈ rounds.flatMap Round.types) (hu : u ∈ t.nestedTypes) :
    u.outermostSimpleName = t.outermostSimpleName := by
  obtain ⟨⟨top, hsimple, hunder⟩, hnested⟩ := h.of_mem named ht
  obtain ⟨-, hpackage, simpleName, hname⟩ := hnested u hu
  rw [(hunder.nested hpackage hname).outermostSimpleName hsimple,
    hunder.outermostSimpleName hsimple]

/-- A type is at the top, where it is named by itself, or nested in another type, which has the same
outermost type and a name that comes before its own. -/
theorem cases (h : TreeRounds rounds) (named : TopsNamed rounds)
    (ht : t ∈ rounds.flatMap Round.types) :
    (t.enclosing = none ∧ IsSimpleName t.simpleName ∧
        t.qualifiedName = nameIn t.package none t.simpleName) ∨
      ∃ p ∈ rounds.flatMap Round.types, t.enclosing = some p.asEnclosing ∧
        (∃ u ∈ p.nestedTypes, t = u.declaredIn (some p.asEnclosing)) ∧
        p.qualifiedName < t.qualifiedName ∧ t.outermostSimpleName = p.outermostSimpleName := by
  obtain ⟨round, hround, hmem⟩ := List.mem_flatMap.mp ht
  rcases Round.mem_types_cases hmem with ⟨e, he, rfl⟩ | ⟨p, hp, u, hu, rfl⟩
  · have henclosing : e.enclosing = none := by
      cases h.trees round hround e he with
      | intro enclosing => exact enclosing
    have hself := h.of_top named hround he
    refine Or.inl ⟨?_, hself⟩
    rw [declaredIn, henclosing]
    rfl
  · have hp : p ∈ rounds.flatMap Round.types := List.mem_flatMap.mpr ⟨round, hround, hp⟩
    obtain ⟨-, -, simpleName, hname⟩ := (h.of_mem named hp).2 u hu
    have houtermost := h.outermostSimpleName_nested named hp hu
    refine Or.inr ⟨p, hp, (h.nested named hp hu).2, ⟨u, hu, rfl⟩, ?_, houtermost⟩
    have hname : (u.declaredIn (some p.asEnclosing)).qualifiedName =
        p.qualifiedName ++ ("." ++ simpleName) := by
      rw [← String.append_assoc]
      exact hname
    rw [hname]
    exact Text.lt_append (by simp)

/-- A type at the top is its own outermost type. -/
theorem outermostSimpleName_of_top (h : TreeRounds rounds) (named : TopsNamed rounds)
    (ht : t ∈ rounds.flatMap Round.types) (htop : t.enclosing = none) :
    t.outermostSimpleName = t.simpleName := by
  rcases h.cases named ht with ⟨-, hsimple, hname⟩ | ⟨p, -, henclosing, -⟩
  · exact (IsNamedUnder.of_top hname).outermostSimpleName hsimple
  · rw [htop] at henclosing
    cases henclosing

end TreeRounds

end DataClassGen
