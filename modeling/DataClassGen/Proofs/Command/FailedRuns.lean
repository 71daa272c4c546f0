import DataClassGen.Command.Program
import DataClassGen.Element.Encode
import DataClassGen.Files.Tree
import DataClassGen.Json.Printer
import DataClassGen.Proofs.Files.SourcePaths
import DataClassGen.Proofs.Run.States

/-!
# Runs that fail write nothing

The program reads its options and rounds first, generates all files then, and writes them last. So
whatever fails before the first write leaves the files as they are. Behind it, settling cannot fail
any more, as every declaration is composed or skipped once all files are generated, and a write has
a directory to go to and fails in its own way only. What is left is `failed_run_writes_nothing`: a
run that changes files ends well, or with the code of a file that could not be read or written.

The files are the state of the monad that the program runs in. All that is asked of the access to
them is that reading leaves them alone and that a write, if it fails, says so.
-/

namespace DataClassGen

variable {σ α β ε ε' : Type}

/-! ### Steps on files -/

/-- What a step gives, and the files it leaves. -/
def runOnFiles (step : ExceptT ε (StateM σ) α) (files : σ) : Except ε α × σ :=
  StateT.run (ExceptT.run step) files

/-- The step changes no files. -/
def OnlyReads (step : ExceptT ε (StateM σ) α) : Prop := ∀ files, (runOnFiles step files).2 = files

theorem runOnFiles_bind (step : ExceptT ε (StateM σ) α) (next : α → ExceptT ε (StateM σ) β)
    (files : σ) : runOnFiles (step >>= next) files =
      match runOnFiles step files with
      | (.ok a, files') => runOnFiles (next a) files'
      | (.error failure, files') => (.error failure, files') := by
  simp only [runOnFiles, ExceptT.run_bind, StateT.run_bind]
  rcases StateT.run (ExceptT.run step) files with ⟨failure | a, files'⟩ <;> rfl

theorem run_bind_files (step : ExceptT ε (StateM σ) α) (next : Except ε α → StateM σ β)
    (files : σ) : StateT.run (ExceptT.run step >>= next) files =
      StateT.run (next (runOnFiles step files).1) (runOnFiles step files).2 := rfl

namespace OnlyReads

theorem result (result : Except ε α) : OnlyReads (ExceptT.mk (pure result) : ExceptT ε (StateM σ) α) :=
  fun _ => rfl

theorem bind {step : ExceptT ε (StateM σ) α} {next : α → ExceptT ε (StateM σ) β}
    (hstep : OnlyReads step) (hnext : ∀ a, OnlyReads (next a)) : OnlyReads (step >>= next) := by
  intro files
  have hfiles := hstep files
  rw [runOnFiles_bind]
  rcases hrun : runOnFiles step files with ⟨failure | a, files'⟩
  · rwa [hrun] at hfiles
  · rw [hrun] at hfiles
    exact (hnext a files').trans hfiles

theorem adapt {step : ExceptT ε (StateM σ) α} (h : OnlyReads step) (f : ε → ε') :
    OnlyReads (step.adapt f) := h

end OnlyReads

/-- A file could not be read or written. -/
def Failure.IsIo (failure : Failure) : Prop := ∃ reason, failure = .io reason

/-- Reading leaves the files alone, and a write into a directory that fails says that the file could
not be written. -/
structure FileAccess.IsOrderly (access : FileAccess (StateM σ)) : Prop where
  read : ∀ path, OnlyReads (access.read path)
  write : ∀ path contents files, Path.parent? path ≠ none →
    FailsAs Failure.IsIo (runOnFiles (access.write path contents) files).1

/-- The files of a tree are read and written in this way. -/
theorem FileTree.access_isOrderly : FileTree.access.IsOrderly where
  read path := by
    have hget : OnlyReads (getThe FileTree : ExceptT Failure (StateM FileTree) FileTree) :=
      fun _ => rfl
    refine hget.bind fun tree => ?_
    cases tree.read? path with
    | some contents => exact OnlyReads.result (.ok contents)
    | none => exact OnlyReads.result (.error _)
  write path contents tree hparent failure hfails := by
    have hfails : (tree.write path contents).1 = .error failure := hfails
    rw [FileTree.write] at hfails
    split at hfails
    · next hnone => exact absurd hnone hparent
    · split at hfails
      · split at hfails
        · exact ⟨_, (Except.error.inj hfails).symm⟩
        · dsimp only at hfails
          split at hfails
          · cases hfails
          · exact ⟨_, (Except.error.inj hfails).symm⟩
      · exact ⟨_, (Except.error.inj hfails).symm⟩

/-- A result with its failure told otherwise fails just where the result does. -/
theorem eq_error_of_mapError {f : ε → ε'} {x : Except ε α} {failure : ε'}
    (h : x.mapError f = .error failure) : ∃ failure', x = .error failure' ∧ f failure' = failure := by
  cases x with
  | error failure' => exact ⟨failure', rfl, Except.error.inj h⟩
  | ok a => cases h

/-! ### Reading -/

section Reading

variable {access : FileAccess (StateM σ)}

theorem onlyReads_readAs (failure : Failure) (reading : Bytes → Option α) (bytes : Bytes) :
    OnlyReads (readAs failure reading bytes : ExceptT Failure (StateM σ) α) := by
  rw [readAs]
  cases reading bytes with
  | some value => exact OnlyReads.result (.ok value)
  | none => exact OnlyReads.result (.error failure)

theorem onlyReads_loadRound (orderly : access.IsOrderly) (path : String) :
    OnlyReads (loadRound access path) := by
  rw [loadRound]
  exact ((orderly.read path).adapt _).bind fun bytes => (onlyReads_readAs _ _ bytes).adapt _

theorem onlyReads_loadConfig (orderly : access.IsOrderly) (path : String) :
    OnlyReads (loadConfig access path) := by
  rw [loadConfig]
  exact (((orderly.read path).bind fun bytes => onlyReads_readAs _ _ bytes).adapt _).bind
    fun source => (OnlyReads.result (Options.textsOfToml source)).adapt _

theorem onlyReads_collectOptions (orderly : access.IsOrderly)
    (definitions : List (String × String)) (config : Option String) :
    OnlyReads (collectOptions access definitions config) := by
  unfold collectOptions
  cases config with
  | some path => exact (onlyReads_loadConfig orderly path).bind fun _ => (OnlyReads.result _).adapt _
  | none => exact (OnlyReads.result (.ok [])).bind fun _ => (OnlyReads.result _).adapt _

end Reading

/-! ### Taking in -/

/-- What a task of a session gives, the session it leaves, and the files it leaves. -/
def runWithFiles (task : ExceptT ε (StateT Session (StateM σ)) α) (s : Session) (files : σ) :
    (Except ε α × Session) × σ :=
  StateT.run (StateT.run (ExceptT.run task) s) files

theorem runWithFiles_bind (task : ExceptT ε (StateT Session (StateM σ)) α)
    (next : α → ExceptT ε (StateT Session (StateM σ)) β) (s : Session) (files : σ) :
    runWithFiles (task >>= next) s files =
      match runWithFiles task s files with
      | ((.ok a, s'), files') => runWithFiles (next a) s' files'
      | ((.error failure, s'), files') => ((.error failure, s'), files') := by
  simp only [runWithFiles, ExceptT.run_bind, StateT.run_bind]
  rcases StateT.run (StateT.run (ExceptT.run task) s) files with ⟨⟨failure | a, s'⟩, files'⟩ <;> rfl

theorem run_bind_task (task : ExceptT ε (StateT Session (StateM σ)) α) (s : Session)
    (next : Except ε α × Session → StateM σ β) (files : σ) :
    StateT.run (StateT.run (ExceptT.run task) s >>= next) files =
      StateT.run (next (runWithFiles task s files).1) (runWithFiles task s files).2 := rfl

section TakingIn

variable {access : FileAccess (StateM σ)}

/-- The file holds the round. -/
def HoldsRound (access : FileAccess (StateM σ)) (files : σ) (path : String) (round : Round) : Prop :=
  (runOnFiles (loadRound access path) files).1 = .ok round

theorem runWithFiles_takeIn (path : String) (s : Session) (files : σ) :
    runWithFiles (takeIn access path) s files =
      match runOnFiles (loadRound access path) files with
      | (.ok round, files') =>
        ((((Session.process round).runOn s).1.mapError fun failure =>
            { failure, context := some ("Failed to process round: " ++ path) },
          ((Session.process round).runOn s).2), files')
      | (.error fatal, files') => ((.error fatal, s), files') := by
  have hlift : runWithFiles (ExceptT.mk (StateT.lift (loadRound access path)) :
      Task (StateM σ) Round) s files =
        (((runOnFiles (loadRound access path) files).1, s),
          (runOnFiles (loadRound access path) files).2) := rfl
  rw [takeIn, runWithFiles_bind, hlift]
  rcases runOnFiles (loadRound access path) files with ⟨fatal | round, files'⟩ <;> rfl

/-- Taking rounds in changes no files, and succeeds only with rounds that the files hold. -/
theorem takeInAll_onlyReads (orderly : access.IsOrderly) (paths : List String) (s : Session)
    (files : σ) : ∃ result s',
      runWithFiles (takeInAll access paths) s files = ((result, s'), files) ∧
        (result = .ok () → ∃ rounds : List Round,
          (∀ round ∈ rounds, ∃ path ∈ paths, HoldsRound access files path round) ∧
            (Session.processAll rounds).runOn s = (.ok (), s')) := by
  induction paths generalizing s with
  | nil => exact ⟨.ok (), s, rfl, fun _ => ⟨[], fun _ h => (nomatch h), rfl⟩⟩
  | cons path paths ih =>
    have hfiles := onlyReads_loadRound orderly path files
    rw [takeInAll, runWithFiles_bind, runWithFiles_takeIn]
    rcases hload : runOnFiles (loadRound access path) files with ⟨fatal | round, files'⟩
    · obtain rfl : files' = files := by rw [← hfiles, hload]
      exact ⟨_, _, rfl, fun h => nomatch h⟩
    · obtain rfl : files' = files := by rw [← hfiles, hload]
      dsimp only
      rcases hround : (Session.process round).runOn s with ⟨failure | _, s₁⟩
      · exact ⟨.error _, _, rfl, fun h => nomatch h⟩
      · obtain ⟨result, s', hrun, hrounds⟩ := ih s₁
        refine ⟨result, s', hrun, fun hok => ?_⟩
        obtain ⟨rounds, hholds, hprocess⟩ := hrounds hok
        refine ⟨round :: rounds, fun held hheld => ?_,
          Session.Step.runOn_bind_ok.mpr ⟨(), s₁, hround, hprocess⟩⟩
        rcases List.mem_cons.mp hheld with rfl | hheld
        · exact ⟨path, List.mem_cons_self, congrArg Prod.fst hload⟩
        · obtain ⟨path', hpath', hholds'⟩ := hholds held hheld
          exact ⟨path', List.mem_cons_of_mem _ hpath', hholds'⟩

end TakingIn

/-! ### Writing -/

/-- The task, if it changes files, fails only where one could not be written. -/
def FailsInWriting (asWrite : ε → Prop) (task : ExceptT ε (StateT Session (StateM σ)) α)
    (s : Session) (files : σ) : Prop :=
  (runWithFiles task s files).2 = files ∨ FailsAs asWrite (runWithFiles task s files).1.1

namespace Session

variable {access : FileAccess (StateM σ)}

/-- Files that have a directory to go to are written, or one of them could not be. -/
theorem writeAll_failsAs (orderly : access.IsOrderly) {generated : List GeneratedFile}
    (directories : ∀ file ∈ generated, Path.parent? file.path ≠ none) (files : σ) :
    FailsAs Failure.IsIo (runOnFiles (writeAll access generated) files).1 := by
  induction generated generalizing files with
  | nil => exact FailsAs.ok ()
  | cons file rest ih =>
    have hwrite := orderly.write file.path file.contents files (directories file List.mem_cons_self)
    rw [writeAll, runOnFiles_bind]
    rcases hrun : runOnFiles (access.write file.path file.contents) files with
      ⟨failure | _, files'⟩
    · rw [hrun] at hwrite
      intro failure' h
      exact hwrite failure' (congrArg Except.error (Except.error.inj h))
    · exact ih (fun file hfile => directories file (List.mem_cons_of_mem _ hfile)) files'

/-- Generated files have a directory to go to. -/
theorem parent?_ne_none_of_isFileOf {options : Options} {generated : List GeneratedFile}
    {forest : List Outline} (h : List.Forall₂ (IsFileOf options) generated forest) :
    ∀ file ∈ generated, Path.parent? file.path ≠ none := by
  induction h with
  | nil => exact fun _ hfile => nomatch hfile
  | cons hfirst hrest ih =>
    intro file hfile
    rcases List.mem_cons.mp hfile with rfl | hfile
    · obtain ⟨name, declared⟩ := hfirst
      exact Path.parent?_ofSource_ne_none _ _ _
    · exact ih file hfile

/-- Nothing but a write fails behind the first write of a run that is finished. -/
theorem finish_failsInWriting (orderly : access.IsOrderly) {options : Options}
    {rounds : List Round} {s : Session}
    (keeps : ∀ e ∈ rounds.flatMap Round.valueClasses, e.KeepsName)
    (hprocess : (processAll rounds).runOn { options } = (.ok (), s)) (files : σ) :
    FailsInWriting Failure.IsIo (finish access) s files := by
  rcases hgenerate : generate.runOn s with ⟨failure | generated, g⟩
  · left
    have hfirst : runWithFiles (generate.withFiles (m := StateM σ)) s files =
        ((.error failure, g), files) := by
      show ((generate.runOn s), files) = _
      rw [hgenerate]
    rw [finish, runWithFiles_bind, hfirst]
  · right
    intro failure hfails
    obtain ⟨-, -, hordered, hstates, -⟩ := after_generate keeps hprocess hgenerate
    obtain ⟨r, hsettle, -⟩ := runOn_settle hordered hstates
    obtain ⟨forest, -, -, -, -, hforest⟩ := of_generate hprocess hgenerate
    have hwrites := writeAll_failsAs orderly (parent?_ne_none_of_isFileOf hforest) files
    rw [runWithFiles, run_finish access hgenerate hsettle, run_bind_files] at hfails
    rcases hwritten : runOnFiles (writeAll access generated) files with ⟨failure' | _, files'⟩
    · rw [hwritten] at hfails hwrites
      obtain rfl := Except.error.inj hfails
      exact hwrites failure' rfl
    · rw [hwritten] at hfails
      cases hfails

end Session

/-! ### Commands -/

/-- The files that a command takes rounds from. -/
def Command.rounds : Command → List String
  | .generate _ _ rounds => rounds
  | .check rounds => rounds

/-- The code of a run that came to its end, or could not read or write a file. -/
def MayWrite (code : Nat) : Prop := code = 0 ∨ code = 1 ∨ code = 4

theorem mayWrite_codeOf (log : Log) : MayWrite (codeOf log) := by
  rw [codeOf]
  split
  · exact Or.inr (Or.inl rfl)
  · exact Or.inl rfl

theorem mayWrite_outcome {fatal : Fatal} (h : fatal.failure.IsIo) (printed : String) :
    MayWrite (fatal.outcome printed).code := by
  obtain ⟨reason, hreason⟩ := h
  right; right
  show fatal.failure.exitCode = 4
  rw [hreason]
  rfl

section Commands

variable {access : FileAccess (StateM σ)}

/-- No value class in the rounds that the files hold has a name that begins with a dot. -/
def HoldsProperNames (access : FileAccess (StateM σ)) (files : σ) (paths : List String) : Prop :=
  ∀ path ∈ paths, ∀ round, HoldsRound access files path round → ∀ e ∈ round.valueClasses,
    Text.beginsWith "." e.qualifiedName = false

theorem holdsProperNames_of_all {files : σ} {paths : List String}
    (h : paths.all (fun path => ((runOnFiles (loadRound access path) files).1.toOption).all
      fun round => round.valueClasses.all fun e => !Text.beginsWith "." e.qualifiedName) = true) :
    HoldsProperNames access files paths := by
  intro path hpath round hround e he
  have hall := List.all_eq_true.mp h path hpath
  rw [HoldsRound] at hround
  rw [hround] at hall
  simpa using List.all_eq_true.mp hall e he

theorem HoldsProperNames.keepsName {files : σ} {paths : List String}
    (names : HoldsProperNames access files paths) {rounds : List Round}
    (holds : ∀ round ∈ rounds, ∃ path ∈ paths, HoldsRound access files path round) :
    ∀ e ∈ rounds.flatMap Round.valueClasses, e.KeepsName := by
  intro e he
  obtain ⟨round, hround, he⟩ := List.mem_flatMap.mp he
  obtain ⟨path, hpath, hholds⟩ := holds round hround
  exact TypeElement.keepsName_of_not_beginsWith (names path hpath round hholds e he)

theorem writeSources_failsInWriting (orderly : access.IsOrderly) {paths : List String} {files : σ}
    (names : HoldsProperNames access files paths) (options : Options) :
    FailsInWriting (·.failure.IsIo) (writeSources access paths) { options } files := by
  obtain ⟨result, s, htaken, hrounds⟩ := takeInAll_onlyReads orderly paths { options } files
  rw [FailsInWriting, writeSources, runWithFiles_bind, htaken]
  rcases result with fatal | _
  · exact Or.inl rfl
  · obtain ⟨rounds, hholds, hprocess⟩ := hrounds rfl
    rcases Session.finish_failsInWriting orderly (names.keepsName hholds) hprocess files with
      hfiles | hfails
    · exact Or.inl hfiles
    · refine Or.inr fun fatal hfatal => ?_
      obtain ⟨failure, hfailure, rfl⟩ := eq_error_of_mapError hfatal
      exact hfails failure hfailure

/-- Generating source files ends with the files as they were, or with a code of a run that may
write. -/
theorem run_runGenerate (orderly : access.IsOrderly) (format : ReportFormat)
    (definitions : List (String × String)) (config : Option String) {paths : List String} {files : σ}
    (names : HoldsProperNames access files paths) {outcome : Outcome} {files' : σ}
    (h : StateT.run (runGenerate access format definitions config paths) files =
      (outcome, files')) : files' = files ∨ MayWrite outcome.code := by
  have hcollect := onlyReads_collectOptions orderly definitions config files
  rw [runGenerate, run_bind_files] at h
  rcases hcollected : runOnFiles (collectOptions access definitions config) files with
    ⟨fatal | options, files₁⟩
  · rw [hcollected] at h hcollect
    obtain ⟨rfl, rfl⟩ := Prod.mk.inj h
    exact Or.inl hcollect
  · rw [hcollected] at h hcollect
    obtain rfl : files₁ = files := hcollect
    have hwrites := writeSources_failsInWriting orderly names options
    rw [FailsInWriting] at hwrites
    dsimp only at h
    rw [run_bind_task] at h
    rcases hwritten : runWithFiles (writeSources access paths) { options } files₁ with
      ⟨⟨fatal | generated, s⟩, files₂⟩
    · rw [hwritten] at h hwrites
      obtain ⟨rfl, rfl⟩ := Prod.mk.inj h
      rcases hwrites with hfiles | hfails
      · exact Or.inl hfiles
      · exact Or.inr (mayWrite_outcome (hfails fatal rfl) _)
    · rw [hwritten] at h
      obtain ⟨rfl, rfl⟩ := Prod.mk.inj h
      exact Or.inr (mayWrite_codeOf s.log)

/-- Listing what is in rounds writes nothing at all. -/
theorem run_runCheck (orderly : access.IsOrderly) (format : ReportFormat) (paths : List String)
    (files : σ) : (StateT.run (runCheck access format paths) files).2 = files := by
  obtain ⟨result, s, htaken, -⟩ :=
    takeInAll_onlyReads orderly paths { options := { srcDir := "" } } files
  have hsummarized : (runWithFiles (summarize access paths) { options := { srcDir := "" } }
      files).2 = files := by
    rw [summarize, runWithFiles_bind, htaken]
    rcases result with fatal | _ <;> rfl
  rw [runCheck, run_bind_task]
  rcases hrun : runWithFiles (summarize access paths) { options := { srcDir := "" } } files with
    ⟨⟨fatal | found, s'⟩, files'⟩
  · rw [hrun] at hsummarized
    exact hsummarized
  · rw [hrun] at hsummarized
    exact hsummarized

/-- A run that ends with an invalid option or command line, a malformed document or a defect of the
conversion leaves the files as they were: a run that leaves them otherwise came to its end, or could
not write a file. -/
theorem failed_run_writes_nothing (orderly : access.IsOrderly) {arguments : List String} {files : σ}
    (names : ∀ invocation, Invocation.parse arguments = .ok invocation →
      HoldsProperNames access files invocation.command.rounds)
    {outcome : Outcome} {files' : σ}
    (h : StateT.run (runProgram access arguments) files = (outcome, files')) :
    (outcome.code = 2 ∨ outcome.code = 3 ∨ outcome.code = 70 → files' = files) ∧
      (files' ≠ files → outcome.code = 0 ∨ outcome.code = 1 ∨ outcome.code = 4) := by
  have hcases : files' = files ∨ MayWrite outcome.code := by
    rw [runProgram] at h
    cases hparse : Invocation.parse arguments with
    | error stop =>
      rw [hparse] at h
      obtain ⟨rfl, rfl⟩ := Prod.mk.inj h
      exact Or.inl rfl
    | ok invocation =>
      rw [hparse] at h
      have hnames := names invocation hparse
      dsimp only [Invocation.run] at h
      cases hcommand : invocation.command with
      | generate definitions config paths =>
        rw [hcommand] at h hnames
        exact run_runGenerate orderly _ definitions config hnames h
      | check paths =>
        rw [hcommand] at h
        refine Or.inl ?_
        rw [← run_runCheck orderly invocation.reportFormat paths files, h]
  rcases hcases with hfiles | hcode
  · exact ⟨fun _ => hfiles, fun hne => absurd hfiles hne⟩
  · refine ⟨fun hfailed => ?_, fun _ => hcode⟩
    rw [MayWrite] at hcode
    omega

end Commands

/-- A value class with a property of a type that has no counterpart. -/
def wildcardRound : Round := { elements := [
  { TypeElement.bareValueClass "test.W" [] with
    methods := [{ name := "value", modifiers := [.abstract], returnType := .wildcard none none }] }] }

/-- Two files that hold rounds; the first could be generated from. -/
def FileTree.ofRounds : FileTree := { entries := [
  (["plain"], .file (Text.bytesOf
    (Round.toJson { elements := [.bareValueClass "test.A" []] }).compact)),
  (["wildcard"], .file (Text.bytesOf wildcardRound.toJson.compact))] }

/-- A round that cannot be taken in ends a run with the code of a defect, and nothing is written for
the round before. -/
theorem wildcard_round_writes_nothing :
    (∀ invocation, Invocation.parse ["generate", "-AavkSrc=out", "plain", "wildcard"] =
      .ok invocation →
        HoldsProperNames FileTree.access FileTree.ofRounds invocation.command.rounds) ∧
    ∃ outcome, StateT.run (runProgram FileTree.access
        ["generate", "-AavkSrc=out", "plain", "wildcard"]) FileTree.ofRounds =
          (outcome, FileTree.ofRounds) ∧ outcome.code = 70 := by
  have hparse : Invocation.parse ["generate", "-AavkSrc=out", "plain", "wildcard"] =
      .ok { logLevel := none, reportFormat := .text
            command := .generate [("avkSrc", "out")] none ["plain", "wildcard"] } := by
    decide +kernel
  have hnames : ∀ invocation, Invocation.parse ["generate", "-AavkSrc=out", "plain", "wildcard"] =
      .ok invocation →
        HoldsProperNames FileTree.access FileTree.ofRounds invocation.command.rounds := by
    intro invocation h
    obtain rfl := Except.ok.inj (hparse.symm.trans h)
    exact holdsProperNames_of_all (by decide +kernel)
  have hcode : (StateT.run (runProgram FileTree.access
      ["generate", "-AavkSrc=out", "plain", "wildcard"]) FileTree.ofRounds).1.code = 70 := by
    decide +kernel
  have hfiles := (failed_run_writes_nothing FileTree.access_isOrderly hnames rfl).1
    (Or.inr (Or.inr hcode))
  exact ⟨hnames, _, Prod.ext rfl hfiles, hcode⟩

end DataClassGen
