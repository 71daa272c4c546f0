import DataClassGen.Proofs.Command.FailedRuns
import DataClassGen.Proofs.Failing

/-!
# Options that are known

Three options are known. What a run is told by them is a text for each: that of its last definition,
or else that of its entry in the configuration file. Nothing else in the definitions has an effect,
nor the order of definitions of different options.

A configuration file may have an entry that can be no option's text, as a number cannot. All its
entries are turned into texts before any is looked up, so such an entry ends the run, whether its
name is known or not, and whether the option is defined or not. `options_agree_iff` has the exact
condition for two runs that are told the same by the known options to agree.
-/

namespace DataClassGen

namespace Options

/-- The options that are known. -/
def knownKeys : List String := [srcKey, targetsKey, ignoreNestedKey]

/-- The value can be the text of an option. -/
def hasText : Toml.Value → Bool
  | .string _ | .boolean _ | .array _ => true
  | .integer _ | .float _ | .moment _ | .table _ => false

/-- Every entry can be the text of an option. -/
def AllTexts (table : List (String × Toml.Value)) : Prop := ∀ entry ∈ table, hasText entry.2 = true

instance (table : List (String × Toml.Value)) : Decidable (AllTexts table) :=
  inferInstanceAs (Decidable (∀ entry ∈ table, hasText entry.2 = true))

/-- The text that a run goes by for an option. -/
def chosen (definitions : List (String × String)) (table : List (String × Toml.Value))
    (key : String) : Option String :=
  (definitions.reverse.lookup key).or ((table.lookup key).bind fun value =>
    (textOf key value).toOption)

/-- The texts that a run goes by for the known options. -/
def chosenTexts (definitions : List (String × String)) (table : List (String × Toml.Value)) :
    List (String × String) :=
  knownKeys.filterMap fun key => (chosen definitions table key).map fun text => (key, text)

/-- The texts of all entries. -/
def textsOf (table : List (String × Toml.Value)) : Except Failure (List (String × String)) :=
  table.mapM fun (key, value) => do return (key, ← textOf key value)

variable {definitions definitions' : List (String × String)}
  {table table' : List (String × Toml.Value)} {key : String} {value : Toml.Value}

/-! ### Texts of a configuration file -/

theorem textOf_eq_error (h : hasText value = false) (key : String) :
    textOf key value = .error (.invalidOption key value.text) := by
  cases value <;> first | rfl | cases h

theorem exists_textOf_eq_ok (h : hasText value = true) (key : String) :
    ∃ text, textOf key value = .ok text := by
  cases value with
  | boolean b => cases b <;> exact ⟨_, rfl⟩
  | string _ | array _ => exact ⟨_, rfl⟩
  | integer _ | float _ | moment _ | table _ => cases h

theorem textsOf_cons (key : String) (value : Toml.Value) (table : List (String × Toml.Value)) :
    textsOf ((key, value) :: table) = (textOf key value).bind fun text =>
      (textsOf table).map ((key, text) :: ·) := by
  rw [textsOf, List.mapM_cons, ← textsOf]
  dsimp only
  cases textOf key value with
  | error failure => rfl
  | ok text => cases textsOf table <;> rfl

/-- The first entry that cannot be a text is the one that is reported. -/
theorem textsOf_eq_error (h : table.find? (fun entry => !hasText entry.2) = some (key, value)) :
    textsOf table = .error (.invalidOption key value.text) := by
  induction table with
  | nil => cases h
  | cons entry table ih =>
    obtain ⟨key', value'⟩ := entry
    rw [textsOf_cons]
    cases htext : hasText value' with
    | false =>
      obtain ⟨rfl, rfl⟩ : key' = key ∧ value' = value := by simpa [htext] using h
      rw [textOf_eq_error htext]
      rfl
    | true =>
      obtain ⟨text, hok⟩ := exists_textOf_eq_ok htext key'
      rw [hok, ih (by simpa [htext] using h)]
      rfl

theorem exists_textsOf_eq_ok (h : AllTexts table) : ∃ texts, textsOf table = .ok texts ∧
    ∀ key, texts.lookup key =
      (table.lookup key).bind fun value => (textOf key value).toOption := by
  induction table with
  | nil => exact ⟨[], rfl, fun _ => rfl⟩
  | cons entry table ih =>
    obtain ⟨key', value'⟩ := entry
    obtain ⟨htext, hrest⟩ := List.forall_mem_cons.mp h
    obtain ⟨text, hok⟩ : ∃ text, textOf key' value' = .ok text := exists_textOf_eq_ok htext key'
    obtain ⟨texts, htexts, hlookup⟩ := ih hrest
    refine ⟨(key', text) :: texts, by rw [textsOf_cons, hok, htexts]; rfl, fun key => ?_⟩
    by_cases hkey : key = key'
    · subst hkey
      simp [hok, Except.toOption]
    · simp [List.lookup_cons, beq_eq_false_iff_ne.mpr hkey, hlookup]

theorem exists_textsOf_eq_error (h : ¬ AllTexts table) :
    ∃ key value, textsOf table = .error (.invalidOption key (Toml.Value.text value)) := by
  cases hfind : table.find? (fun entry => !hasText entry.2) with
  | some entry => exact ⟨entry.1, entry.2, textsOf_eq_error hfind⟩
  | none =>
    refine absurd (fun entry hentry => ?_) h
    simpa using List.find?_eq_none.mp hfind entry hentry

/-! ### Texts that are looked up -/

theorem lookup_override (texts definitions : List (String × String)) (key : String) :
    (Definition.override texts definitions).lookup key =
      (definitions.reverse.lookup key).or (texts.lookup key) := by
  induction definitions generalizing texts with
  | nil => rfl
  | cons definition definitions ih =>
    obtain ⟨name, text⟩ := definition
    have hstep : Definition.override texts ((name, text) :: definitions) =
        Definition.override (insertByKey name text texts) definitions := rfl
    rw [hstep, ih, List.reverse_cons, List.lookup_append, Option.or_assoc]
    congr 1
    by_cases hkey : key = name
    · subst hkey
      simp [lookup_insertByKey_self]
    · simp [lookup_insertByKey_of_ne hkey, hkey]

/-- Of the texts only those of the known options count. -/
theorem ofTexts_congr {texts texts' : List (String × String)}
    (h : ∀ key ∈ knownKeys, texts.lookup key = texts'.lookup key) :
    ofTexts texts = ofTexts texts' := by
  rw [ofTexts, ofTexts, h srcKey (by decide), h targetsKey (by decide),
    h ignoreNestedKey (by decide)]

theorem lookup_filterMap_map (text? : String → Option String) (keys : List String) (key : String) :
    (keys.filterMap fun key => (text? key).map fun text => (key, text)).lookup key =
      if key ∈ keys then text? key else none := by
  induction keys with
  | nil => rfl
  | cons first keys ih =>
    by_cases heq : key = first
    · subst heq
      cases htext : text? key <;> simp [htext, ih]
    · cases htext : text? first <;>
        simp [htext, ih, heq, List.lookup_cons, beq_eq_false_iff_ne.mpr heq]

theorem lookup_chosenTexts (hkey : key ∈ knownKeys) :
    (chosenTexts definitions table).lookup key = chosen definitions table key := by
  rw [chosenTexts, lookup_filterMap_map, if_pos hkey]

theorem chosenTexts_congr
    (h : ∀ key ∈ knownKeys, chosen definitions table key = chosen definitions' table' key) :
    chosenTexts definitions table = chosenTexts definitions' table' := by
  rw [chosenTexts, chosenTexts]
  refine List.filterMap_congr fun key hkey => ?_
  rw [h key hkey]

/-- The options of a run, if its configuration file can be turned into texts. -/
theorem ofTexts_override {texts : List (String × String)} (h : ∀ key, texts.lookup key =
      (table.lookup key).bind fun value => (textOf key value).toOption) :
    ofTexts (Definition.override texts definitions) = ofTexts (chosenTexts definitions table) := by
  refine ofTexts_congr fun key hkey => ?_
  rw [lookup_override, h, lookup_chosenTexts hkey, chosen]

end Options

open Options

/-! ### Runs -/

section Runs

variable {σ : Type} {access : FileAccess (StateM σ)} {files files' : σ}
  {config config' : Option String}

/-- The entries that a configuration file has; none if there is no file. -/
inductive ConfigHas (access : FileAccess (StateM σ)) (files : σ) :
    Option String → List (String × Toml.Value) → Prop where
  | none : ConfigHas access files none []
  | some {path source : String} {bytes : Bytes} {table : List (String × Toml.Value)}
    (hread : (runOnFiles (access.read path) files).1 = .ok bytes)
    (htext : Text.ofBytes? bytes = some source) (htable : Toml.read? source = some table) :
    ConfigHas access files (some path) table

/-- What becomes of the options of a run. -/
def optionsOf (access : FileAccess (StateM σ)) (files : σ) (definitions : List (String × String))
    (config : Option String) : Except Fatal Options :=
  (runOnFiles (collectOptions access definitions config) files).1

/-- Both give the same options, or both fail, in the same way. -/
inductive SameKind : Except Fatal Options → Except Fatal Options → Prop where
  | ok (options : Options) : SameKind (.ok options) (.ok options)
  | error {fatal fatal' : Fatal} (h : fatal.failure.ctorIdx = fatal'.failure.ctorIdx) :
    SameKind (.error fatal) (.error fatal')

theorem runOnFiles_adapt {ε ε' α : Type} (step : ExceptT ε (StateM σ) α) (f : ε → ε') (files : σ) :
    runOnFiles (step.adapt f) files =
      ((runOnFiles step files).1.mapError f, (runOnFiles step files).2) := rfl

theorem runOnFiles_loadConfig {path source : String} {bytes : Bytes}
    (hread : (runOnFiles (access.read path) files).1 = .ok bytes)
    (htext : Text.ofBytes? bytes = some source) :
    (runOnFiles (loadConfig access path) files).1 = (textsOfToml source).mapError fun failure =>
      { failure, context := some ("Failed to parse config: " ++ path) } := by
  rw [loadConfig, runOnFiles_bind, whileDoing, runOnFiles_adapt, runOnFiles_bind]
  rcases hrun : runOnFiles (access.read path) files with ⟨result, files'⟩
  obtain rfl : result = .ok bytes := by rw [← hread, hrun]
  simp only [readAs, htext]
  rfl

/-- The entries of the file are turned into texts first; the options are made of those and of the
definitions then. -/
theorem optionsOf_eq (definitions : List (String × String))
    (hconfig : ConfigHas access files config table) : ∃ context,
    optionsOf access files definitions config =
      ((textsOf table).mapError fun failure => { failure, context }).bind fun texts =>
        (ofTexts (Definition.override texts definitions)).mapError fun failure => { failure } := by
  cases hconfig with
  | none => exact ⟨none, rfl⟩
  | @some path source bytes table hread htext htable =>
    refine ⟨some ("Failed to parse config: " ++ path), ?_⟩
    have hload := runOnFiles_loadConfig hread htext
    have htexts : textsOfToml source = textsOf table := by rw [textsOfToml, htable]; rfl
    rw [htexts] at hload
    rw [← hload, optionsOf]
    unfold collectOptions
    simp only
    rw [runOnFiles_bind]
    rcases runOnFiles (loadConfig access path) files with ⟨failure | texts, files'⟩ <;> rfl

/-- A run whose file has only texts goes by the known options. -/
theorem optionsOf_of_allTexts (hconfig : ConfigHas access files config table)
    (htable : AllTexts table) : optionsOf access files definitions config =
      (ofTexts (chosenTexts definitions table)).mapError fun failure => { failure } := by
  obtain ⟨context, heq⟩ := optionsOf_eq definitions hconfig
  obtain ⟨texts, hok, hlookup⟩ := exists_textsOf_eq_ok htable
  rw [heq, hok, ← ofTexts_override hlookup]
  rfl

/-- A run whose file has another entry fails because of it, whatever the definitions are. -/
theorem optionsOf_of_not_allTexts (definitions : List (String × String))
    (hconfig : ConfigHas access files config table)
    (htable : ¬ AllTexts table) : ∃ key text context,
      optionsOf access files definitions config = .error ⟨.invalidOption key text, context⟩ := by
  obtain ⟨context, heq⟩ := optionsOf_eq definitions hconfig
  obtain ⟨key, value, herror⟩ := exists_textsOf_eq_error htable
  exact ⟨key, value.text, context, by rw [heq, herror]; rfl⟩

theorem SameKind.refl (result : Except Fatal Options) : SameKind result result := by
  cases result with
  | ok options => exact .ok options
  | error fatal => exact .error rfl

theorem SameKind.symm {result result' : Except Fatal Options} (h : SameKind result result') :
    SameKind result' result := by
  cases h with
  | ok options => exact .ok options
  | error h => exact .error h.symm

theorem SameKind.comm {result result' : Except Fatal Options} :
    SameKind result result' ↔ SameKind result' result := ⟨.symm, .symm⟩

theorem exists_eq_invalidOption {failure : Failure} {key text : String}
    (h : failure.ctorIdx = (Failure.invalidOption key text).ctorIdx) :
    ∃ key text, failure = .invalidOption key text := by
  cases failure <;> first | exact ⟨_, _, rfl⟩ | cases h

/-- What fails because of an entry agrees with what fails because of an option's text. -/
theorem sameKind_invalidOption {result : Except Failure Options} {key text : String}
    {context : Option String} : SameKind (result.mapError fun failure => { failure })
        (.error ⟨.invalidOption key text, context⟩) ↔
      ∃ key text, result = .error (.invalidOption key text) := by
  cases result with
  | ok options => exact iff_of_false (fun h => nomatch h) fun ⟨_, _, h⟩ => nomatch h
  | error failure =>
    constructor
    · intro hsame
      cases hsame with
      | error hkind =>
        have hkind : failure.ctorIdx = (Failure.invalidOption key text).ctorIdx := hkind
        obtain ⟨key', text', rfl⟩ := exists_eq_invalidOption hkind
        exact ⟨key', text', rfl⟩
    · rintro ⟨key', text', h⟩
      obtain rfl := Except.error.inj h
      exact .error rfl

/-- Two runs that are told the same by the known options agree, unless just one of the files has an
entry that cannot be a text, and an option's text would not make the run fail without it. -/
theorem options_agree_iff (hconfig : ConfigHas access files config table)
    (hconfig' : ConfigHas access files' config' table')
    (hchosen : ∀ key ∈ knownKeys,
      chosen definitions table key = chosen definitions' table' key) :
    SameKind (optionsOf access files definitions config)
        (optionsOf access files' definitions' config') ↔
      ((AllTexts table ↔ AllTexts table') ∨
        ∃ key text, ofTexts (chosenTexts definitions table) = .error (.invalidOption key text)) := by
  have hsame := chosenTexts_congr hchosen
  by_cases htable : AllTexts table <;> by_cases htable' : AllTexts table'
  · have heq : optionsOf access files definitions config =
        optionsOf access files' definitions' config' := by
      rw [optionsOf_of_allTexts hconfig htable, optionsOf_of_allTexts hconfig' htable', hsame]
    exact iff_of_true (heq ▸ .refl _) (.inl (iff_of_true htable htable'))
  · obtain ⟨key, text, context, hfails⟩ :=
      optionsOf_of_not_allTexts definitions' hconfig' htable'
    rw [optionsOf_of_allTexts hconfig htable, hfails, sameKind_invalidOption]
    simp [htable, htable']
  · obtain ⟨key, text, context, hfails⟩ := optionsOf_of_not_allTexts definitions hconfig htable
    rw [SameKind.comm, optionsOf_of_allTexts hconfig' htable', hfails, sameKind_invalidOption, hsame]
    simp [htable, htable']
  · obtain ⟨key, text, context, hfails⟩ := optionsOf_of_not_allTexts definitions hconfig htable
    obtain ⟨key', text', context', hfails'⟩ :=
      optionsOf_of_not_allTexts definitions' hconfig' htable'
    rw [hfails, hfails']
    exact iff_of_true (.error rfl) (.inl (iff_of_false htable htable'))

/-- A configuration that has a number under a name that is not known. -/
def numbered : String := "other = 1\n"

/-- The files of a run with that configuration. -/
def numberedFiles : FileTree where
  entries := [(["avk.toml"], .file (Text.bytesOf numbered))]

/-- The entries of that configuration. -/
def numberedTable : List (String × Toml.Value) := (Toml.read? numbered).getD []

/-- Such a number makes a run fail that has its options without it. -/
theorem unknown_number_fails_run :
    optionsOf FileTree.access numberedFiles [("avkSrc", "out")] none = .ok { srcDir := "out" } ∧
    ¬ SameKind (optionsOf FileTree.access numberedFiles [("avkSrc", "out")] none)
      (optionsOf FileTree.access numberedFiles [("avkSrc", "out")] (some "avk.toml")) := by
  have hread : (runOnFiles (FileTree.access.read "avk.toml") numberedFiles).1 =
      .ok (Text.bytesOf numbered) := by decide +kernel
  have htable : Toml.read? numbered = some numberedTable := by
    have hsome : (Toml.read? numbered).isSome = true := by decide +kernel
    obtain ⟨table, htable⟩ := Option.isSome_iff_exists.mp hsome
    rw [numberedTable, htable, Option.getD_some]
  have hconfig : ConfigHas FileTree.access numberedFiles (some "avk.toml") numberedTable :=
    .some hread (by decide +kernel) htable
  have hnumber : ¬ AllTexts numberedTable := by decide +kernel
  have hchosen : ofTexts (chosenTexts [("avkSrc", "out")] []) = .ok { srcDir := "out" } := by
    decide +kernel
  have hknown : ∀ key ∈ knownKeys, chosen [("avkSrc", "out")] [] key =
      chosen [("avkSrc", "out")] numberedTable key := by decide +kernel
  refine ⟨by decide +kernel, fun hagree => ?_⟩
  rcases (options_agree_iff .none hconfig hknown).mp hagree with hiff | ⟨_, _, hfails⟩
  · exact hnumber (hiff.mp fun _ hentry => nomatch hentry)
  · rw [hchosen] at hfails
    cases hfails

end Runs

end DataClassGen
