import DataClassGen.Proofs.Convert.Types
import DataClassGen.Proofs.Model.Members
import DataClassGen.Proofs.Run.Trees
import DataClassGen.Proofs.Source.Escaping

/-!
# The name of a class, cut in two ways

The class that is declared is told its package, and its canonical name is cut behind that. A
reference has only the canonical name, and is cut in front of the first capital. Neither way loses
anything of the name; and where capitals tell where the package ends (`IsOrdinary`), both give the
same class, so that references to a class are to the class that is declared
(`names_are_cut_alike`).
-/

namespace DataClassGen.Source.ClassName

open TypeElement (IsSimpleName)

/-- Capitals tell where the package ends: no segment of it begins with one, and the first simple
name does. Each of the simple names is one by itself. -/
structure IsOrdinary (c : ClassName) : Prop where
  package : ∀ segment ∈ Text.split '.' c.package, isCapitalized segment = false
  first : c.simpleNames.head?.any isCapitalized = true
  simple : ∀ name ∈ c.simpleNames, IsSimpleName name

variable {c : ClassName}

theorem joinWith_ne_empty {names : List String} (hne : names ≠ [])
    (hsimple : ∀ name ∈ names, IsSimpleName name) : Text.joinWith "." names ≠ "" := by
  obtain ⟨name, rest, rfl⟩ := List.exists_cons_of_ne_nil hne
  have hname : name ≠ "" := (hsimple name List.mem_cons_self).1
  obtain ⟨character, characters, hcharacters⟩ :=
    List.exists_cons_of_ne_nil (mt String.toList_eq_nil_iff.mp hname)
  have hmem : character ∈ (Text.joinWith "." (name :: rest)).toList :=
    Text.mem_joinWith List.mem_cons_self (by rw [hcharacters]; exact List.mem_cons_self)
  intro hempty
  rw [hempty] at hmem
  exact List.not_mem_nil hmem

/-- The segments of a name are those of the package, none for the unnamed one, and behind them the
simple names. -/
theorem exists_segments (c : ClassName) : ∃ packages, c.segments = packages ++ c.simpleNames ∧
    Text.joinWith "." packages = c.package ∧
    ∀ segment ∈ packages, segment ∈ Text.split '.' c.package := by
  by_cases hpackage : c.package.isEmpty = true
  · refine ⟨[], by rw [segments, if_pos hpackage], ?_, fun _ hsegment => nomatch hsegment⟩
    exact (by simpa using hpackage : c.package = "").symm
  · exact ⟨_, by rw [segments, if_neg hpackage], Text.joinWith_split '.' c.package,
      fun _ hsegment => hsegment⟩

namespace IsOrdinary

theorem simpleNames_ne_nil (h : c.IsOrdinary) : c.simpleNames ≠ [] := by
  intro hnil
  have hfirst := h.first
  rw [hnil] at hfirst
  cases hfirst

/-- No segment of the name holds a dot, so the name is cut into its segments. -/
theorem split_canonical (h : c.IsOrdinary) : Text.split '.' c.canonical = c.segments := by
  have hdotless : ∀ segment ∈ c.segments, '.' ∉ segment.toList := by
    obtain ⟨packages, hsegments, -, hpackages⟩ := exists_segments c
    intro segment hsegment
    rw [hsegments] at hsegment
    rcases List.mem_append.mp hsegment with hsegment | hsegment
    · obtain ⟨piece, hpiece, rfl⟩ := List.mem_map.mp (hpackages segment hsegment)
      rw [String.toList_ofList]
      exact Text.not_mem_of_mem_cut hpiece
    · exact (h.simple segment hsegment).2
  rw [← joinWith_segments h.simpleNames_ne_nil]
  exact Text.split_joinWith '.' hdotless
    (List.append_ne_nil_of_right_ne_nil _ h.simpleNames_ne_nil)

/-- A reference is cut in front of the first simple name. -/
theorem ofCanonical_canonical (h : c.IsOrdinary) : ofCanonical c.canonical = c := by
  obtain ⟨packages, hsegments, hjoin, hpackages⟩ := exists_segments c
  have hbefore : packages.findIdx? isCapitalized = none :=
    List.findIdx?_eq_none_iff.mpr fun segment hsegment =>
      h.package segment (hpackages segment hsegment)
  have hbehind : c.simpleNames.findIdx? isCapitalized = some 0 := by
    have hfirst := h.first
    obtain ⟨name, names, hnames⟩ := List.exists_cons_of_ne_nil h.simpleNames_ne_nil
    rw [hnames] at hfirst ⊢
    rw [List.findIdx?_cons, show isCapitalized name = true from hfirst]
    rfl
  have hfound : c.segments.findIdx? isCapitalized = some packages.length := by
    rw [hsegments, List.findIdx?_append, hbefore, hbehind]
    simp
  simp only [ofCanonical, h.split_canonical, hfound]
  rw [hsegments, List.take_left, List.drop_left, hjoin]

/-- The class that is declared is cut behind its package. -/
theorem inPackage_canonical (h : c.IsOrdinary) : inPackage c.package c.canonical = c := by
  have hrelative : relative? c.package c.canonical = some (Text.joinWith "." c.simpleNames) :=
    TypeElement.relative?_nameIn c.package _
  have hempty : (Text.joinWith "." c.simpleNames).isEmpty = false :=
    String.isEmpty_eq_false_iff.mpr (joinWith_ne_empty h.simpleNames_ne_nil h.simple)
  have hsplit : Text.split '.' (Text.joinWith "." c.simpleNames) = c.simpleNames :=
    Text.split_joinWith '.' (fun name hname => (h.simple name hname).2) h.simpleNames_ne_nil
  simp only [inPackage, hrelative, hempty, Bool.false_eq_true, if_false, hsplit]

end IsOrdinary

/-- Cut in either way, a canonical name is found again by putting the package and the simple names
together, unless it begins with a dot. The class that has an ordinary name is found again in either
way, so the class that is declared and the references to it are the same; only the classes that have
built-in counterparts are not referred to themselves. -/
theorem names_are_cut_alike :
    (∀ package name, Text.beginsWith "." name = false →
      (ofCanonical name).canonical = name ∧ (inPackage package name).canonical = name) ∧
    ∀ c : ClassName, c.IsOrdinary →
      ofCanonical c.canonical = c ∧ inPackage c.package c.canonical = c ∧
      (∀ e enumChildren model log log', e.package = c.package → e.qualifiedName = c.canonical →
        (ClassModel.ofElement? e enumChildren).runOn log = (.ok (some model), log') →
          model.cls = c) ∧
      (builtinCounterparts.lookup c.canonical = none → ∀ args types,
        TypeUse.convertAll args = .ok types →
          (TypeUse.declared c.canonical args).convert = .ok (.named c types false)) := by
  refine ⟨fun package name hdot => ⟨canonical_ofCanonical hdot, canonical_inPackage package hdot⟩,
    fun c h => ⟨h.ofCanonical_canonical, h.inPackage_canonical, ?_, ?_⟩⟩
  · intro e enumChildren model log log' hpackage hname hmodel
    rw [(ClassModel.of_ofElement? hmodel).1, hpackage, hname]
    exact h.inPackage_canonical
  · intro hcounterpart args types htypes
    have hclass : convertClass c.canonical = c := by
      rw [convertClass, hcounterpart]
      exact h.ofCanonical_canonical
    rw [TypeUse.convert, htypes, hclass]
    rfl

/-- A class with a name in small letters, in one whose name begins with a capital beyond ASCII. -/
def overviewLine : ClassName := ⟨"shop.sales", ["Übersicht", "line"]⟩

theorem overviewLine_isOrdinary : overviewLine.IsOrdinary where
  package := by decide +kernel
  first := by decide +kernel
  simple := by simp [overviewLine, IsSimpleName]

/-- The declaration of the class. -/
def overviewLineElement : TypeElement :=
  { TypeElement.bareValueClass "shop.sales.Übersicht.line" [] with package := "shop.sales" }

/-- The class that is declared and a reference to it are the same, and even in the package around
its own it would keep its name. -/
theorem overviewLine_is_cut_alike :
    Text.beginsWith "." "shop.sales.Übersicht.line" = false ∧ overviewLine.IsOrdinary ∧
    (inPackage "shop" "shop.sales.Übersicht.line").canonical = "shop.sales.Übersicht.line" ∧
    ofCanonical "shop.sales.Übersicht.line" = overviewLine ∧
    (∃ model log, (ClassModel.ofElement? overviewLineElement []).runOn [] = (.ok (some model), log) ∧
      model.cls = overviewLine) ∧
    overviewLineElement.asType.convert = .ok (.named overviewLine [] false) := by
  have hdot : Text.beginsWith "." "shop.sales.Übersicht.line" = false := by decide +kernel
  obtain ⟨hcut, hclasses⟩ := names_are_cut_alike
  obtain ⟨hreference, -, hmodels, hconverts⟩ := hclasses overviewLine overviewLine_isOrdinary
  obtain ⟨model, d, log, hmodel, -⟩ :=
    ClassModel.exists_of_hasDeclaration overviewLineElement (by decide +kernel)
  exact ⟨hdot, overviewLine_isOrdinary, (hcut _ _ hdot).2, hreference,
    ⟨model, log, hmodel, hmodels overviewLineElement [] model [] log rfl rfl hmodel⟩,
    hconverts (by decide +kernel) [] [] rfl⟩

end DataClassGen.Source.ClassName
