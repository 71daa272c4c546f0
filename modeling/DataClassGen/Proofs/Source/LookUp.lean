import DataClassGen.Proofs.Names
import DataClassGen.Proofs.Source.References

/-!
# What references stand for

A name in a source file is looked up in the types around it, innermost first, then in the imports, then
in the package; further names behind dots are those of members (`SourceFile.lookUp`). A reference to a
class of the file's own package is written with the names that the class does not share with the types
around the reference, whatever else has the first of those names. So what is written need not stand
for the class: a type in the file may have that name, or an import, or a type further in
(`capturing_file_captures`).

`own_references_found_iff` says when it does. A class of another file is found just when no type
around the reference declares one of its outermost name and none of that name is imported; a class that
a type around the reference declares, just when no type further in declares one of its name. In general
the names that are written have to lead to the class (`SourceFile.Reaches`). The proof reads the names
back from the text, dots and backticks included, and uses that no class of the own package is ever
imported.
-/

namespace DataClassGen.Source

/-! ### Reading names -/

/-- The character around names that are not plain identifiers. -/
def backtick : Char := Char.ofNat 96

/-- The pieces between dots, without backticks. No piece ends at a dot between backticks; `quoted`
says that the text begins between two of them. -/
def cutNames (quoted : Bool) : List Char → List (List Char)
  | [] => [[]]
  | c :: cs =>
    if c = backtick then cutNames (!quoted) cs
    else if c = '.' ∧ quoted = false then [] :: cutNames quoted cs
    else
      match cutNames quoted cs with
      | [] => [[c]]
      | name :: names => (c :: name) :: names

/-- The names in a text that has dots between them. -/
def readNames (text : String) : List String := (cutNames false text.toList).map String.ofList

/-- Characters that do not end a piece are the beginning of the first one. -/
theorem cutNames_append {quoted : Bool} {cs rest name : List Char} {names : List (List Char)}
    (hcs : ∀ c ∈ cs, c ≠ backtick ∧ (quoted = true ∨ c ≠ '.'))
    (hrest : cutNames quoted rest = name :: names) :
    cutNames quoted (cs ++ rest) = (cs ++ name) :: names := by
  induction cs with
  | nil => exact hrest
  | cons c cs ih =>
    obtain ⟨hbacktick, hdot⟩ := hcs c List.mem_cons_self
    have hkept : ¬(c = '.' ∧ quoted = false) := by
      rintro ⟨hc, hquoted⟩
      rcases hdot with h | h
      · rw [hquoted] at h
        cases h
      · exact h hc
    rw [List.cons_append, cutNames, if_neg hbacktick, if_neg hkept,
      ih fun c hc => hcs c (List.mem_cons_of_mem _ hc)]
    rfl

/-- A plain identifier has no dot. -/
theorem ne_dot_of_isPlainIdentifier {name : String} (h : isPlainIdentifier name = true) {c : Char}
    (hc : c ∈ name.toList) : c ≠ '.' := by
  have hdot : Text.isLetter '.' = false ∧ Text.isNumber '.' = false := by decide +kernel
  rintro rfl
  rw [isPlainIdentifier] at h
  split at h
  · cases h
  · next first rest hname =>
    rw [hname] at hc
    simp only [Bool.and_eq_true, List.all_eq_true] at h
    rcases List.mem_cons.mp hc with rfl | hc
    · simp [hdot] at h
    · have := h.2 _ hc
      simp [hdot] at this

/-- A name is read back from how it is written. -/
theorem cutNames_escape {name : String} (hname : backtick ∉ name.toList) {rest last : List Char}
    {names : List (List Char)} (hrest : cutNames false rest = last :: names) :
    cutNames false ((escape name).toList ++ rest) = (name.toList ++ last) :: names := by
  have hfree : ∀ c ∈ name.toList, c ≠ backtick := fun c hc heq => hname (heq ▸ hc)
  rw [escape]
  split
  · next hescaped =>
    have htext : ("`" ++ name ++ "`").toList ++ rest =
        backtick :: (name.toList ++ backtick :: rest) := by
      simp [backtick]
    have hclosing : cutNames true (backtick :: rest) = last :: names := by
      rw [cutNames, if_pos rfl]
      exact hrest
    rw [htext, cutNames, if_pos rfl]
    exact cutNames_append (fun c hc => ⟨hfree c hc, Or.inl rfl⟩) hclosing
  · next hplain =>
    rw [Bool.or_eq_true, not_or, Bool.not_eq_true', Bool.not_eq_false] at hplain
    exact cutNames_append
      (fun c hc => ⟨hfree c hc, Or.inr (ne_dot_of_isPlainIdentifier hplain.2 hc)⟩) hrest

/-- Names are read back from how they are written. -/
theorem readNames_dotted {names : List String} (hne : names ≠ [])
    (hnames : ∀ name ∈ names, backtick ∉ name.toList) : readNames (dotted names) = names := by
  suffices hcut : cutNames false (dotted names).toList = names.map String.toList by
    rw [readNames, hcut, List.map_map]
    exact (List.map_congr_left fun name _ => String.ofList_toList).trans (List.map_id names)
  induction names with
  | nil => exact absurd rfl hne
  | cons name names ih =>
    have hname := hnames name List.mem_cons_self
    cases names with
    | nil =>
      have hlast : cutNames false ((escape name).toList ++ []) = [name.toList ++ []] :=
        cutNames_escape hname rfl
      simpa [dotted, Text.joinWith] using hlast
    | cons next names =>
      have hrest := ih (List.cons_ne_nil _ _) fun name hmem => hnames name (List.mem_cons_of_mem _ hmem)
      have hdot : cutNames false ('.' :: (dotted (next :: names)).toList) =
          [] :: (next :: names).map String.toList := by
        rw [cutNames, if_neg (by decide), if_pos ⟨rfl, rfl⟩, hrest]
      have hcut := cutNames_escape hname hdot
      simpa [dotted, Text.joinWith] using hcut

/-! ### Looking names up -/

namespace TypeDecl

/-- The name that the type goes by. Companion objects have no name of their own. -/
def ownName (t : TypeDecl) : String := if t.kind = .companion then companionName else t.name

/-- A type of the name is declared directly inside this one. -/
def declares (t : TypeDecl) (name : String) : Bool := t.types.any fun u => u.ownName == name

/-- Where a type of the name is declared: the way to the innermost of some types, standing in each
other, that declares one. -/
def declaringPath? (name : String) : List TypeDecl → Option (List String)
  | [] => none
  | t :: inner =>
    match declaringPath? name inner with
    | some path => some (t.ownName :: path)
    | none => if t.declares name then some [t.ownName] else none

end TypeDecl

/-- The class that a text stands for within some types of the file: the first name is looked up in
those types, innermost first, then in the imports, then in the package; the other names are those of
members. -/
def SourceFile.lookUp (file : SourceFile) (enclosing : List TypeDecl) (text : String) :
    Option ClassName :=
  match readNames text with
  | [] => none
  | first :: members =>
    match TypeDecl.declaringPath? first enclosing with
    | some path => some ⟨file.package, path ++ first :: members⟩
    | none =>
      match file.imports.lookup first with
      | some cls => some { cls with simpleNames := cls.simpleNames ++ members }
      | none => some ⟨file.package, first :: members⟩

namespace TypeDecl

theorem declaringPath?_eq_none_iff {name : String} {enclosing : List TypeDecl} :
    declaringPath? name enclosing = none ↔ ∀ t ∈ enclosing, t.declares name = false := by
  induction enclosing with
  | nil => simp [declaringPath?]
  | cons t inner ih =>
    rw [declaringPath?, List.forall_mem_cons, ← ih]
    cases declaringPath? name inner <;> cases t.declares name <;> simp

/-- The innermost type that declares the name is where it is declared. -/
theorem declaringPath?_of_nearest {name : String} {t : TypeDecl} {inner : List TypeDecl}
    (declares : t.declares name = true) (nearest : ∀ u ∈ inner, u.declares name = false)
    (outer : List TypeDecl) :
    declaringPath? name (outer ++ t :: inner) = some ((outer ++ [t]).map ownName) := by
  induction outer with
  | nil => simp [declaringPath?, declaringPath?_eq_none_iff.mpr nearest, declares]
  | cons u outer ih => rw [List.cons_append, declaringPath?, ih]; rfl

theorem exists_nearest_of_declaringPath? {name : String} {enclosing : List TypeDecl}
    {path : List String} (h : declaringPath? name enclosing = some path) :
    ∃ outer t inner, enclosing = outer ++ t :: inner ∧ (outer ++ [t]).map ownName = path ∧
      t.declares name = true ∧ ∀ u ∈ inner, u.declares name = false := by
  induction enclosing generalizing path with
  | nil => cases h
  | cons t inner ih =>
    rw [declaringPath?] at h
    split at h
    · next innerPath hinner =>
      obtain rfl := Option.some.inj h
      obtain ⟨outer, u, rest, rfl, rfl, hdeclares, hnearest⟩ := ih hinner
      exact ⟨t :: outer, u, rest, rfl, rfl, hdeclares, hnearest⟩
    · next hnone =>
      split at h
      · next hdeclares =>
        exact ⟨[], t, inner, rfl, Option.some.inj h, hdeclares, declaringPath?_eq_none_iff.mp hnone⟩
      · cases h

end TypeDecl

/-! ### Imports -/

/-- Only classes of other packages are imported. -/
theorem Imports.foreign_of_afterTurn {package : String} {declared : List String} {imports : Imports}
    (h : ∀ name cls, imports.lookup name = some cls → isForeign package cls = true)
    (turn : ClassName) {name : String} {cls : ClassName}
    (hcls : (imports.afterTurn package declared turn).lookup name = some cls) :
    isForeign package cls = true := by
  rw [afterTurn] at hcls
  split at hcls
  · next hturn =>
    rw [Bool.and_eq_true, Bool.and_eq_true] at hturn
    by_cases hname : name = turn.topLevel.simpleName
    · subst hname
      rw [lookup_insertByKey_self] at hcls
      obtain rfl := Option.some.inj hcls
      exact hturn.1.1
    · rw [lookup_insertByKey_of_ne hname] at hcls
      exact h name cls hcls
  · exact h name cls hcls

theorem SourceFile.foreign_of_imports (file : SourceFile) {name : String} {cls : ClassName}
    (hcls : file.imports.lookup name = some cls) : isForeign file.package cls = true := by
  suffices hturns : ∀ (turns : List ClassName) (imports : Imports),
      (∀ name cls, imports.lookup name = some cls → isForeign file.package cls = true) →
        ∀ name cls, (turns.foldl (Imports.afterTurn file.package file.root.declaredNames)
          imports).lookup name = some cls → isForeign file.package cls = true from
    hturns file.turns [] (fun _ _ h => nomatch h) name cls hcls
  intro turns
  induction turns with
  | nil => exact fun imports h => h
  | cons turn turns ih => exact fun imports h => ih _ fun _ _ => Imports.foreign_of_afterTurn h turn

/-! ### References to the own package -/

theorem sharedCount_le (limit : Nat) (names scope : List String) :
    sharedCount limit names scope ≤ limit := by
  induction limit generalizing names scope with
  | zero => simp [sharedCount]
  | succ limit ih =>
    cases names with
    | nil => simp [sharedCount]
    | cons name names =>
      cases scope with
      | nil => simp [sharedCount]
      | cons other scope =>
        rw [sharedCount]
        split
        · exact Nat.succ_le_succ (ih names scope)
        · exact Nat.zero_le _

theorem relativeNames_ne_nil {names : List String} (h : names ≠ []) (scope : List String) :
    relativeNames scope names ≠ [] := by
  rw [relativeNames, Ne, List.drop_eq_nil_iff, not_le]
  have := sharedCount_le (names.length - 1) names scope
  have := List.length_pos_of_ne_nil h
  omega

/-- Of names that begin with the scope's first ones, and have one more, only that is left. -/
theorem relativeNames_append (shared rest : List String) (name : String) :
    relativeNames (shared ++ rest) (shared ++ [name]) = [name] := by
  have hcount : sharedCount shared.length (shared ++ [name]) (shared ++ rest) = shared.length := by
    induction shared with
    | nil => rfl
    | cons first shared ih => simp [sharedCount, ih]
  rw [relativeNames, List.length_append, List.length_singleton, Nat.add_sub_cancel, hcount,
    List.drop_left]

/-- Names are written whole where the scope begins with another one. -/
theorem relativeNames_of_head_ne {scope : List String} {first : String} {members : List String}
    (h : ∀ outermost, scope.head? = some outermost → outermost ≠ first) :
    relativeNames scope (first :: members) = first :: members := by
  suffices hcount : sharedCount members.length (first :: members) scope = 0 by
    rw [relativeNames, List.length_cons, Nat.add_sub_cancel, hcount, List.drop_zero]
  cases scope with
  | nil => cases members <;> rfl
  | cons outermost scope =>
    have hne : first ≠ outermost := (h outermost rfl).symm
    cases members with
    | nil => rfl
    | cons next members => simp [sharedCount, hne]

namespace TypeDecl

mutual

/-- Whatever stands in a type stands in the types around it. -/
theorem prefix_of_mem_references {r : Reference} (enclosing : List TypeDecl) : ∀ t : TypeDecl,
    r ∈ t.references enclosing → enclosing <+: r.enclosing
  | ⟨_, _, _, _, _, _, _, _, _, _, _, _, types⟩ => by
    intro h
    simp only [references_eq, List.mem_append, List.mem_map] at h
    obtain (((⟨_, -, rfl⟩ | ⟨_, -, rfl⟩) | ⟨_, -, rfl⟩) | ⟨_, -, rfl⟩) | h := h
    · exact List.prefix_rfl
    · exact List.prefix_append ..
    · exact List.prefix_rfl
    · exact List.prefix_append ..
    · exact (List.prefix_append ..).trans (prefix_of_mem_referencesAll _ types h)

theorem prefix_of_mem_referencesAll {r : Reference} (enclosing : List TypeDecl) :
    ∀ ts : List TypeDecl, r ∈ referencesAll enclosing ts → enclosing <+: r.enclosing
  | [] => fun h => nomatch h
  | t :: ts => fun h => by
    rw [referencesAll, List.mem_append] at h
    rcases h with h | h
    · exact prefix_of_mem_references enclosing t h
    · exact prefix_of_mem_referencesAll enclosing ts h

end

end TypeDecl

/-- A reference stands in nothing or in the type of the file. -/
theorem SourceFile.enclosing_of_mem_references {file : SourceFile} {r : Reference}
    (h : r ∈ file.references) : r.enclosing = [] ∨ ∃ inner, r.enclosing = file.root :: inner := by
  have hinside : ∀ {enclosing : List TypeDecl}, [file.root] <+: enclosing →
      ∃ inner, enclosing = file.root :: inner := fun ⟨inner, h⟩ => ⟨inner, h.symm⟩
  simp only [SourceFile.references, references_eq, List.mem_append, List.mem_map,
    List.nil_append] at h
  obtain (((⟨_, -, rfl⟩ | ⟨_, -, rfl⟩) | ⟨_, -, rfl⟩) | ⟨_, -, rfl⟩) | h := h
  · exact Or.inl rfl
  · exact Or.inr ⟨[], rfl⟩
  · exact Or.inl rfl
  · exact Or.inr ⟨[], rfl⟩
  · exact Or.inr (hinside (TypeDecl.prefix_of_mem_referencesAll _ _ h))

/-- The reference is to a class of the file's own package whose names can be written. -/
structure Reference.IsOwnIn (r : Reference) (file : SourceFile) : Prop where
  package : r.cls.package = file.package
  named : r.cls.simpleNames ≠ []
  writable : ∀ name ∈ r.cls.simpleNames, backtick ∉ name.toList

/-- The text that is written for the reference stands for its class where it is written. -/
def SourceFile.Finds (file : SourceFile) (r : Reference) : Prop :=
  file.lookUp r.enclosing (file.names.reference (TypeDecl.scopeOf r.enclosing) r.cls) = some r.cls

/-- A reference to a class of the own package reaches it if the names it is written with lead there:
by way of the innermost type around it that declares a type of the first of them, or from the
package, if no type around it declares one and none is imported. -/
inductive SourceFile.Reaches (file : SourceFile) (r : Reference) : Prop
  | ofType {outer inner : List TypeDecl} {t : TypeDecl} {first : String} {members : List String}
      (written : relativeNames (TypeDecl.scopeOf r.enclosing) r.cls.simpleNames = first :: members)
      (around : r.enclosing = outer ++ t :: inner)
      (path : r.cls.simpleNames = (outer ++ [t]).map TypeDecl.ownName ++ first :: members)
      (declares : t.declares first = true) (nearest : ∀ u ∈ inner, u.declares first = false)
  | ofPackage {first : String} {members : List String}
      (written : relativeNames (TypeDecl.scopeOf r.enclosing) r.cls.simpleNames = first :: members)
      (whole : r.cls.simpleNames = first :: members)
      (free : ∀ u ∈ r.enclosing, u.declares first = false)
      (notImported : file.imports.lookup first = none)

namespace SourceFile

variable {file : SourceFile} {r : Reference}

/-- The names that are written are read back from the text. -/
theorem readNames_reference (hown : r.IsOwnIn file) :
    readNames (file.names.reference (TypeDecl.scopeOf r.enclosing) r.cls) =
      relativeNames (TypeDecl.scopeOf r.enclosing) r.cls.simpleNames := by
  have hpackage : r.cls.package = file.names.package := hown.package
  rw [Names.reference, if_pos hpackage]
  exact readNames_dotted (relativeNames_ne_nil hown.named _) fun name hmem =>
    hown.writable name (List.mem_of_mem_drop hmem)

theorem finds_iff_reaches (hown : r.IsOwnIn file) : file.Finds r ↔ file.Reaches r := by
  have hrelative := relativeNames_ne_nil hown.named (TypeDecl.scopeOf r.enclosing)
  have hread := readNames_reference hown
  have hclass : ∀ names : List String,
      some (ClassName.mk file.package names) = some r.cls ↔ r.cls.simpleNames = names := by
    intro names
    rw [← hown.package]
    cases r.cls
    simp [eq_comm]
  obtain ⟨first, members, hwritten⟩ := List.exists_cons_of_ne_nil hrelative
  rw [Finds, lookUp, hread, hwritten]
  simp only
  constructor
  · intro hfound
    split at hfound
    · next path hpath =>
      obtain ⟨outer, t, inner, hsplit, rfl, hdeclares, hnearest⟩ :=
        TypeDecl.exists_nearest_of_declaringPath? hpath
      exact .ofType hwritten hsplit ((hclass _).mp hfound) hdeclares hnearest
    · next hnone =>
      split at hfound
      · next cls himport =>
        -- What is imported is of another package.
        have hforeign := file.foreign_of_imports himport
        have hsame := hown.package
        rw [← Option.some.inj hfound] at hsame
        rw [isForeign, ← hsame] at hforeign
        simp at hforeign
      · next himport =>
        exact .ofPackage hwritten ((hclass _).mp hfound)
          (TypeDecl.declaringPath?_eq_none_iff.mp hnone) himport
  · intro hreaches
    cases hreaches with
    | ofType hwritten' hsplit hpath hdeclares hnearest =>
      obtain ⟨rfl, rfl⟩ := List.cons.inj (hwritten.symm.trans hwritten')
      rw [hsplit, TypeDecl.declaringPath?_of_nearest hdeclares hnearest]
      exact (hclass _).mpr hpath
    | ofPackage hwritten' hwhole hfree hnotImported =>
      obtain ⟨rfl, rfl⟩ := List.cons.inj (hwritten.symm.trans hwritten')
      rw [TypeDecl.declaringPath?_eq_none_iff.mpr hfree]
      simp only [hnotImported]
      exact (hclass _).mpr hwhole

/-- The names of a class whose outermost name is not that of the file's type are written whole. -/
theorem relativeNames_of_mem_references (hr : r ∈ file.references)
    (hkind : file.root.kind ≠ .companion) {first : String} {members : List String}
    (hnames : r.cls.simpleNames = first :: members) (hother : first ≠ file.root.name) :
    relativeNames (TypeDecl.scopeOf r.enclosing) r.cls.simpleNames = first :: members := by
  rw [hnames]
  refine relativeNames_of_head_ne fun outermost houtermost => ?_
  rcases enclosing_of_mem_references hr with hnil | ⟨inner, hinner⟩
  · rw [hnil] at houtermost
    cases houtermost
  · rw [hinner, TypeDecl.scopeOf, List.filter_cons_of_pos (by simpa using hkind)] at houtermost
    rw [← Option.some.inj houtermost]
    exact hother.symm

/-- A class of another file is found just when no type around the reference declares one of its
outermost name, and none of that name is imported. -/
theorem finds_sibling_iff (hr : r ∈ file.references) (hown : r.IsOwnIn file)
    (hkind : file.root.kind ≠ .companion) {first : String} {members : List String}
    (hnames : r.cls.simpleNames = first :: members) (hother : first ≠ file.root.name) :
    file.Finds r ↔
      (∀ u ∈ r.enclosing, u.declares first = false) ∧ file.imports.lookup first = none := by
  have hwhole := relativeNames_of_mem_references hr hkind hnames hother
  rw [finds_iff_reaches hown]
  constructor
  · intro hreaches
    cases hreaches with
    | ofType hwritten _ hpath _ _ =>
      -- A class of one of the types around has more names than are written.
      rw [hwhole] at hwritten
      rw [hnames, hwritten] at hpath
      have hlength := congrArg List.length hpath
      simp only [List.length_append, List.length_map, List.length_cons, List.length_nil] at hlength
      omega
    | ofPackage hwritten _ hfree hnotImported =>
      obtain ⟨rfl, -⟩ := List.cons.inj (hwhole.symm.trans hwritten)
      exact ⟨hfree, hnotImported⟩
  · rintro ⟨hfree, hnotImported⟩
    exact .ofPackage hwhole hnames hfree hnotImported

/-- A class that a type around the reference declares is found just when no type further in declares
one of its name. -/
theorem finds_outer_iff (hown : r.IsOwnIn file) {outer inner : List TypeDecl} {t : TypeDecl}
    {name : String} (haround : r.enclosing = outer ++ t :: inner)
    (hkinds : ∀ u ∈ outer ++ [t], u.kind ≠ .companion) (hdeclares : t.declares name = true)
    (hnames : r.cls.simpleNames = (outer ++ [t]).map TypeDecl.name ++ [name]) :
    file.Finds r ↔ ∀ u ∈ inner, u.declares name = false := by
  have hscope : TypeDecl.scopeOf r.enclosing =
      (outer ++ [t]).map TypeDecl.name ++ TypeDecl.scopeOf inner := by
    have hsplit : r.enclosing = (outer ++ [t]) ++ inner := by simp [haround]
    rw [hsplit, TypeDecl.scopeOf, List.filter_append, List.map_append,
      List.filter_eq_self.mpr fun u hu => by simpa using hkinds u hu]
    rfl
  have hrelative : relativeNames (TypeDecl.scopeOf r.enclosing) r.cls.simpleNames = [name] := by
    rw [hscope, hnames, relativeNames_append]
  have hpath : (outer ++ [t]).map TypeDecl.ownName = (outer ++ [t]).map TypeDecl.name :=
    List.map_congr_left fun u hu => if_neg (hkinds u hu)
  rw [finds_iff_reaches hown]
  constructor
  · intro hreaches
    cases hreaches with
    | @ofType outer' inner' t' first members hwritten hsplit hnames' _ hnearest =>
      obtain ⟨rfl, rfl⟩ := List.cons.inj (hrelative.symm.trans hwritten)
      -- The type that is reached is as far in as the one that declares the class.
      have hlength := congrArg List.length (hnames.symm.trans hnames')
      simp only [List.length_append, List.length_map, List.length_cons, List.length_nil] at hlength
      have hsame := haround.symm.trans hsplit
      obtain ⟨-, hinner⟩ := List.append_inj hsame (by omega)
      obtain ⟨-, rfl⟩ := List.cons.inj hinner
      exact hnearest
    | ofPackage hwritten hwhole _ _ =>
      rw [← hwritten, hrelative, hnames] at hwhole
      have hlength := congrArg List.length hwhole
      simp only [List.length_append, List.length_map, List.length_cons, List.length_nil] at hlength
      omega
  · intro hfree
    exact .ofType hrelative haround (by rw [hpath, hnames]) hdeclares hfree

end SourceFile

/-- The references of a file's layout are those of its declarations. One to a class of the file's own
package, looked up where it is written, gives the class just when it reaches it. -/
theorem own_references_found_iff (file : SourceFile) :
    lineReferences file.layout = file.references.map Reference.laidOut ∧
    ∀ r ∈ file.references, r.IsOwnIn file →
      (file.Finds r ↔ file.Reaches r) ∧
      (∀ first members, file.root.kind ≠ .companion → r.cls.simpleNames = first :: members →
        first ≠ file.root.name → (file.Finds r ↔
          (∀ u ∈ r.enclosing, u.declares first = false) ∧ file.imports.lookup first = none)) ∧
      ∀ outer t inner name, r.enclosing = outer ++ t :: inner →
        (∀ u ∈ outer ++ [t], u.kind ≠ .companion) → t.declares name = true →
        r.cls.simpleNames = (outer ++ [t]).map TypeDecl.name ++ [name] →
        (file.Finds r ↔ ∀ u ∈ inner, u.declares name = false) := by
  refine ⟨file.references_layout, fun r hr hown => ⟨SourceFile.finds_iff_reaches hown, ?_, ?_⟩⟩
  · intro first members hkind hnames hother
    exact SourceFile.finds_sibling_iff hr hown hkind hnames hother
  · intro outer t inner name haround hkinds hdeclares hnames
    exact SourceFile.finds_outer_iff hown haround hkinds hdeclares hnames

/-- A class `A` with a type `B` in it, another package's `I` imported, and a class `D` in it with a
type `B` of its own, each beside references to classes of the package. -/
def capturingFile : SourceFile where
  package := "test"
  root := {
    kind := .classDecl
    name := "A"
    properties := [
      { name := "b", type := .ofClass ⟨"test", ["B"]⟩ },
      { name := "c", type := .ofClass ⟨"test", ["C"]⟩ },
      { name := "i", type := .ofClass ⟨"other", ["I"]⟩ },
      { name := "j", type := .ofClass ⟨"test", ["I"]⟩ }]
    types := [
      { kind := .enumDecl, name := "B" },
      { kind := .classDecl
        name := "D"
        properties := [{ name := "b", type := .ofClass ⟨"test", ["A", "B"]⟩ }]
        types := [{ kind := .enumDecl, name := "B" }] }] }

/-- Of the references to classes of the package there, only that to a class of which neither a type
around it nor an import has the name is found. -/
theorem capturing_file_captures :
    ∃ sibling nested imported outer, capturingFile.references =
        [nested, sibling, ⟨sibling.enclosing, ⟨"other", ["I"]⟩⟩, imported, outer] ∧
      (∀ r ∈ [sibling, nested, imported, outer], r.IsOwnIn capturingFile) ∧
      sibling.cls = ⟨"test", ["C"]⟩ ∧ capturingFile.Finds sibling ∧
      nested.cls = ⟨"test", ["B"]⟩ ∧ ¬capturingFile.Finds nested ∧
      imported.cls = ⟨"test", ["I"]⟩ ∧ ¬capturingFile.Finds imported ∧
      outer.cls = ⟨"test", ["A", "B"]⟩ ∧ ¬capturingFile.Finds outer := by
  let root := capturingFile.root
  let inner : TypeDecl := {
    kind := .classDecl
    name := "D"
    properties := [{ name := "b", type := .ofClass ⟨"test", ["A", "B"]⟩ }]
    types := [{ kind := .enumDecl, name := "B" }] }
  let sibling : Reference := ⟨[root], ⟨"test", ["C"]⟩⟩
  let nested : Reference := ⟨[root], ⟨"test", ["B"]⟩⟩
  let imported : Reference := ⟨[root], ⟨"test", ["I"]⟩⟩
  let outer : Reference := ⟨[root, inner], ⟨"test", ["A", "B"]⟩⟩
  have hreferences : capturingFile.references =
      [nested, sibling, ⟨[root], ⟨"other", ["I"]⟩⟩, imported, outer] := rfl
  have hown : ∀ r ∈ [sibling, nested, imported, outer], r.IsOwnIn capturingFile := by
    intro r hr
    simp only [List.mem_cons, List.not_mem_nil, or_false] at hr
    obtain rfl | rfl | rfl | rfl := hr <;> exact ⟨rfl, by decide, by decide⟩
  obtain ⟨-, hfound⟩ := own_references_found_iff capturingFile
  have hsibling := (hfound sibling (by simp [hreferences]) (hown _ (by simp))).2.1 "C" []
    (by decide) rfl (by decide)
  have hnested := (hfound nested (by simp [hreferences]) (hown _ (by simp))).2.1 "B" []
    (by decide) rfl (by decide)
  have himported := (hfound imported (by simp [hreferences]) (hown _ (by simp))).2.1 "I" []
    (by decide) rfl (by decide)
  have houter := (hfound outer (by simp [hreferences]) (hown _ (by simp))).2.2 [] root [inner] "B"
    rfl (by simp [root, capturingFile]) rfl rfl
  refine ⟨sibling, nested, imported, outer, hreferences, hown, rfl, ?_, rfl, ?_, rfl, ?_, rfl, ?_⟩
  · refine hsibling.mpr ⟨fun u hu => ?_, by decide +kernel⟩
    obtain rfl := List.mem_singleton.mp hu
    rfl
  · intro h
    have hnot := (hnested.mp h).1 root List.mem_cons_self
    cases hnot
  · intro h
    have hnot := (himported.mp h).2
    exact absurd hnot (by decide +kernel)
  · intro h
    have hnot := houter.mp h inner List.mem_cons_self
    cases hnot

end DataClassGen.Source
