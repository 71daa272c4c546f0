import DataClassGen.Files.Path
import DataClassGen.Proofs.Names

/-!
# The paths of source files

The path of a source file is the directory of the sources, the segments of the package that are not
empty, and the name of the type. Where no slashes are in package and name, the path tells these
segments and the name again, and nothing else (`ofSource_eq_iff`): two types with different packages
have one path if their packages differ by empty segments only.
-/

namespace DataClassGen

namespace Path

/-- The segment is one step: it is not empty and has no slash. -/
def IsStep (segment : String) : Prop := segment ≠ "" ∧ '/' ∉ segment.toList

/-- The path with a slash behind it, if it needs one before a further segment. -/
def opened (path : String) : String :=
  if path.isEmpty || path.toList.getLast? == some '/' then path else path ++ "/"

theorem push_eq {path segment : String} (h : IsStep segment) :
    push path segment = opened path ++ segment := by
  have hrooted : isRooted segment = false := by
    obtain ⟨c, cs, hcs⟩ := List.exists_cons_of_ne_nil (mt String.toList_eq_nil_iff.mp h.1)
    have hc : c ≠ '/' := by
      rintro rfl
      exact h.2 (hcs ▸ List.mem_cons_self)
    simpa [isRooted, Text.beginsWith, hcs, List.isPrefixOf] using hc.symm
  rw [push, opened, hrooted, if_neg Bool.false_ne_true]
  split
  · rfl
  · rfl

theorem opened_push {path segment : String} (h : IsStep segment) :
    opened (push path segment) = opened path ++ segment ++ "/" := by
  have hne : segment.toList ≠ [] := mt String.toList_eq_nil_iff.mp h.1
  have hlast : (opened path ++ segment).toList.getLast? ≠ some '/' := by
    intro hlast
    rw [String.toList_append, List.getLast?_append_of_ne_nil _ hne] at hlast
    exact h.2 (List.mem_of_getLast? hlast)
  have hne' : opened path ++ segment ≠ "" := by
    intro hempty
    rw [← String.toList_eq_nil_iff, String.toList_append] at hempty
    exact hne (List.append_eq_nil_iff.mp hempty).2
  rw [push_eq h]
  generalize opened path ++ segment = pushed at hlast hne' ⊢
  rw [opened, if_neg]
  simp [hne', hlast]

/-- Segments that are pushed one after the other stand with slashes between them. -/
theorem push_foldl {path segment : String} {segments : List String}
    (hsegments : ∀ s ∈ segments, IsStep s) (h : IsStep segment) :
    push (segments.foldl push path) segment =
      opened path ++ Text.joinWith "/" (segments ++ [segment]) := by
  induction segments generalizing path with
  | nil => rw [List.foldl_nil, push_eq h]; rfl
  | cons first rest ih =>
    have hfirst := hsegments first List.mem_cons_self
    rw [List.foldl_cons, ih fun s hs => hsegments s (List.mem_cons_of_mem _ hs), opened_push hfirst,
      List.cons_append]
    obtain ⟨second, others, hothers⟩ := List.exists_cons_of_ne_nil
      (List.append_ne_nil_of_right_ne_nil rest (List.cons_ne_nil segment []))
    rw [hothers, Text.joinWith]
    simp only [String.append_assoc]

/-- The segments of a package that directories are named for. -/
def packageSteps (package : String) : List String :=
  (Text.split '.' package).filter (!·.isEmpty)

theorem ofSource_eq (srcDir package name : String) :
    ofSource srcDir package name =
      push ((packageSteps package).foldl push srcDir) (name ++ ".kt") := rfl

theorem isStep_of_mem_packageSteps {package segment : String} (h : '/' ∉ package.toList)
    (hsegment : segment ∈ packageSteps package) : IsStep segment := by
  obtain ⟨hmem, hne⟩ := List.mem_filter.mp hsegment
  refine ⟨by simpa using hne, fun hslash => h ?_⟩
  exact Text.mem_of_mem_split hmem hslash

/-- The path tells the segments of the package and the name of the type, if no slashes are in
them. -/
theorem ofSource_eq_iff {srcDir package package' name name' : String}
    (hpackage : '/' ∉ package.toList) (hpackage' : '/' ∉ package'.toList)
    (hname : '/' ∉ name.toList) (hname' : '/' ∉ name'.toList) :
    ofSource srcDir package name = ofSource srcDir package' name' ↔
      packageSteps package = packageSteps package' ∧ name = name' := by
  have isStep_file : ∀ {name : String}, '/' ∉ name.toList → IsStep (name ++ ".kt") := by
    intro name hname
    refine ⟨by simp, ?_⟩
    rw [String.toList_append, List.mem_append]
    rintro (h | h)
    · exact hname h
    · simp at h
  constructor
  · intro h
    rw [ofSource_eq, ofSource_eq,
      push_foldl (fun s hs => isStep_of_mem_packageSteps hpackage hs) (isStep_file hname),
      push_foldl (fun s hs => isStep_of_mem_packageSteps hpackage' hs) (isStep_file hname')] at h
    have hjoined := (String.append_right_inj _).mp h
    have hsteps : ∀ {package name : String}, '/' ∉ package.toList → '/' ∉ name.toList →
        Text.split '/' (Text.joinWith "/" (packageSteps package ++ [name ++ ".kt"])) =
          packageSteps package ++ [name ++ ".kt"] := by
      intro package name hpackage hname
      refine Text.split_joinWith '/' (fun s hs => ?_) (by simp)
      rcases List.mem_append.mp hs with hs | hs
      · exact (isStep_of_mem_packageSteps hpackage hs).2
      · rw [List.mem_singleton.mp hs]
        exact (isStep_file hname).2
    have hequal := (hsteps hpackage hname).symm.trans
      ((congrArg (Text.split '/') hjoined).trans (hsteps hpackage' hname'))
    obtain ⟨hpackages, hnames⟩ := List.append_inj' hequal rfl
    exact ⟨hpackages, (String.append_left_inj _).mp (List.cons.inj hnames).1⟩
  · rintro ⟨hsteps, rfl⟩
    rw [ofSource_eq, ofSource_eq, hsteps]

/-- The path of a source file has a directory, as its name is not empty. -/
theorem parent?_ofSource_ne_none (srcDir package name : String) :
    parent? (ofSource srcDir package name) ≠ none := by
  obtain ⟨before, hbefore⟩ : ∃ before, ofSource srcDir package name = before ++ ".kt" := by
    simp only [ofSource_eq, push]
    split
    · exact ⟨name, rfl⟩
    · split
      · exact ⟨_, (String.append_assoc ..).symm⟩
      · exact ⟨_, (String.append_assoc ..).symm⟩
  have hletter : 'k' ∈ (Text.joinWith "/" (segments (ofSource srcDir package name))).toList := by
    have hjoin := Text.joinWith_split '/' (ofSource srcDir package name)
    rw [segments, show "/" = String.ofList ['/'] from rfl, hjoin, hbefore, String.toList_append]
    exact List.mem_append_right _ (by decide)
  -- a segment with a letter in it moves, so not all of them are dropped
  obtain hslash | ⟨segment, hsegment, hin⟩ := Text.mem_of_mem_joinWith hletter
  · exact absurd hslash (by decide)
  have hmoves : moves segment = true := by
    have hempty : segment ≠ "" := fun heq => by simp [heq] at hin
    have hhere : segment ≠ here := fun heq => by simp [heq, here] at hin
    simp [moves, hempty, hhere]
  rw [parent?]
  cases hdropped : (segments (ofSource srcDir package name)).reverse.dropWhile (!moves ·) with
  | cons name before => exact Option.some_ne_none _
  | nil =>
    have := List.dropWhile_eq_nil_iff.mp hdropped segment (List.mem_reverse.mpr hsegment)
    rw [hmoves] at this
    cases this

/-- The segments make up the package if none of them is empty. -/
theorem joinWith_packageSteps {package : String}
    (h : package = "" ∨ "" ∉ Text.split '.' package) :
    Text.joinWith "." (packageSteps package) = package := by
  rcases h with rfl | h
  · decide +kernel
  · have hall : packageSteps package = Text.split '.' package := by
      rw [packageSteps, List.filter_eq_self]
      intro segment hsegment
      have hne : segment ≠ "" := fun heq => h (heq ▸ hsegment)
      simpa using hne
    rw [hall]
    exact Text.joinWith_split '.' package

end Path

end DataClassGen
