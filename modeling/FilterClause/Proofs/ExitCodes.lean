import FilterClause.Program
import FilterClause.Proofs.AlikeRequests
import FilterClause.Proofs.LoopText
import FilterClause.Proofs.SettingPrecedence

/-!
# Exit codes

A run of a command ends with exit code 2 when it is misconfigured (`Invocation.IsMisconfigured`): its
explicit file does not load, or a written pair is malformed. Otherwise it ends with exit code 1 when the
command fails (`Command.Fails`), and with exit code 0 when it does not. Only then is anything printed.

What else goes wrong leaves no mark on the exit code and the output: only the settings that a request
takes up matter (`Program.conclude_of_alike`). So surroundings that agree on these cannot be told apart
(`ConfiguredAlike`), though files that are looked for fail to load in one of them, or the logger fails to
be configured.
-/

namespace FilterClause

/-! ## Misconfiguration and failure -/

/-- The explicit file of an invocation does not load, or one of its written pairs is malformed. -/
inductive Invocation.IsMisconfigured (read : Settings.Reader) (i : Invocation) : Prop
  | config {path : String} (hconfig : i.config = some path)
      (hloads : ∀ entries, ¬ Settings.Loads read path entries)
  | pair {o : CompileOptions} {text : String} (hcompile : i.subcommand = .compile o)
      (htext : text ∈ o.pairs) (hmalformed : FieldMap.IsMalformed text)

/-- What a subcommand asks for under given settings. -/
inductive Subcommand.StandsFor (s : Settings) : Subcommand → Command → Prop
  | parse (filter : String) : StandsFor s (.parse filter) (.parse filter)
  | compile {o : CompileOptions} {r : CompileRequest} (h : Settings.Completes r o s) :
      StandsFor s (.compile o) (.compile r)
  | operators : StandsFor s .operators .operators

/-- A command fails: its filter string cannot be parsed, complete paths share no root to loop over a
collection with, or the filters cannot be compiled. -/
inductive Command.Fails (random : NameSupply) : Command → Prop
  | parse {filter : String} {e : Error} (hparse : Filter.parse filter = .error e) :
      Fails random (.parse filter)
  | read {r : CompileRequest} {e : Error} (hparse : Filter.parse r.filter = .error e) :
      Fails random (.compile r)
  | loop {r : CompileRequest} {fs : List Filter} (hparse : Filter.parse r.filter = .ok fs)
      (hqualified : r.qualified = true) (hcollection : r.collection.isSome)
      (hroot : ¬ ∃ root, SharesRoot r.fields fs root) : Fails random (.compile r)
  | compile {r : CompileRequest} {fs : List Filter} {e : Error}
      (hparse : Filter.parse r.filter = .ok fs)
      (hcompile : ((Compiler.new r.fields r.anchor (r.supply random)).compile fs).1 = .error e) :
      Fails random (.compile r)

namespace CompileRequest

variable {r : CompileRequest} {fs : List Filter} {random : NameSupply}

/-- Only complete paths can lack a loop variable, and only where there is a collection. -/
theorem exists_loop?_eq_error_iff : (∃ e, r.loop? fs = .error e) ↔
    r.qualified = true ∧ r.collection.isSome ∧ ¬ ∃ root, SharesRoot r.fields fs root := by
  simp only [loop?, anchor, ← commonRoot_eq_ok_iff]
  cases r.collection with
  | none => simp
  | some collection =>
    cases r.qualified with
    | false => simp
    | true => cases commonRoot r.fields fs <;> simp [Except.map]

theorem fails_iff : (Command.compile r).Fails random ↔ ∃ e, r.compile random = .error e := by
  rw [compile]
  cases hparse : Filter.parse r.filter with
  | error e => exact iff_of_true (.read hparse) ⟨e, rfl⟩
  | ok fs =>
    simp only [compileFilters, statement]
    cases hloop : r.loop? fs with
    | error e =>
      obtain ⟨hqualified, hcollection, hroot⟩ := exists_loop?_eq_error_iff.1 ⟨e, hloop⟩
      exact iff_of_true (.loop hparse hqualified hcollection hroot) ⟨e, rfl⟩
    | ok loop =>
      cases hclause : ((Compiler.new r.fields r.anchor (r.supply random)).compile fs).1 with
      | error e => exact iff_of_true (.compile hparse hclause) ⟨e, rfl⟩
      | ok clause =>
        refine iff_of_false (fun h => ?_) (by simp [Except.map])
        cases h with
        | read hparse' => simp [hparse] at hparse'
        | loop hparse' hqualified hcollection hroot =>
          obtain rfl := Except.ok.inj (hparse.symm.trans hparse')
          obtain ⟨e, he⟩ := exists_loop?_eq_error_iff.2 ⟨hqualified, hcollection, hroot⟩
          simp [hloop] at he
        | compile hparse' hclause' =>
          obtain rfl := Except.ok.inj (hparse.symm.trans hparse')
          simp [hclause] at hclause'

end CompileRequest

theorem Command.fails_iff {c : Command} {random : NameSupply} :
    c.Fails random ↔ ∃ e, c.evaluate random = .error e := by
  cases c with
  | parse filter =>
    rw [evaluate]
    cases hparse : Filter.parse filter with
    | error e => exact iff_of_true (.parse hparse) ⟨e, rfl⟩
    | ok fs =>
      refine iff_of_false (fun h => ?_) (by simp [Except.map])
      cases h with
      | parse hparse' => simp [hparse] at hparse'
  | compile r =>
    rw [CompileRequest.fails_iff, evaluate]
    cases r.compile random <;> simp [Except.map]
  | operators =>
    refine iff_of_false (fun h => ?_) (by simp [evaluate])
    cases h

namespace Subcommand

variable {c : Subcommand} {s : Settings}

/-- Only a malformed pair keeps a subcommand from being completed. -/
theorem exists_command?_eq_error_iff : (∃ e, c.command? s = .error e) ↔
    ∃ o, c = .compile o ∧ ∃ text ∈ o.pairs, FieldMap.IsMalformed text := by
  cases c with
  | parse filter => simp [command?]
  | operators => simp [command?]
  | compile o =>
    have hmalformed : (∃ text ∈ o.pairs, FieldMap.IsMalformed text) ↔
        ¬ ∃ command, (Subcommand.compile o).command? s = .ok command := by
      rw [Settings.exists_command?_compile_eq_ok_iff]
      simp only [FieldMap.isMalformed_iff]
      push Not
      exact Iff.rfl
    simp only [Subcommand.compile.injEq, exists_eq_left', hmalformed]
    cases (Subcommand.compile o).command? s <;> simp

theorem standsFor_of_command? {command : Command} (h : c.command? s = .ok command) :
    c.StandsFor s command := by
  cases c with
  | parse filter =>
    cases h
    exact .parse filter
  | operators =>
    cases h
    exact .operators
  | compile o =>
    obtain ⟨r, rfl, hr⟩ := Settings.completes_of_command? h
    exact .compile hr

end Subcommand

/-! ## Settings that a request takes up -/

/-- The settings agree on what a request to compile takes from them. -/
structure Settings.Alike (s s' : Settings) : Prop where
  document : s.document = s'.document
  vertex : s.vertex = s'.vertex
  collection : s.collection = s'.collection
  fields : s.fields.Alike s'.fields

theorem FieldMap.Alike.fillFrom {m m' : FieldMap} (h : m.Alike m') (fields : FieldMap) :
    (fields.fillFrom m).Alike (fields.fillFrom m') := by
  intro field
  rw [get?_fillFrom, get?_fillFrom, h field]

/-- Options ask for requests that come to the same. -/
theorem CompileOptions.request?_of_alike (o : CompileOptions) {s s' : Settings} (h : s.Alike s') :
    (∃ e, o.request? s = .error e ∧ o.request? s' = .error e) ∨
      ∃ r r', o.request? s = .ok r ∧ o.request? s' = .ok r' ∧ r.Alike r' := by
  rw [request?, request?]
  cases FieldMap.ofPairs? o.pairs with
  | error e => exact .inl ⟨e, rfl, rfl⟩
  | ok fields =>
    refine .inr ⟨_, _, rfl, rfl, ?_⟩
    exact {
      filter := rfl
      fields := h.fields.fillFrom fields
      document := by rw [Settings.documentVariable, Settings.documentVariable, h.document]
      vertex := by rw [h.vertex]
      qualified := rfl
      collection := by rw [h.collection]
      deterministic := rfl }

namespace Program

/-- The ends of a run that has its settings: a pair is malformed, or the command fails or succeeds. Only
in the last case is anything printed. -/
theorem conclude_cases (i : Invocation) (s : Settings) (random : NameSupply) :
    ((∃ e, i.subcommand.command? s = .error e) ∧ (conclude i s random).exitCode = 2 ∧
      (conclude i s random).stdout = "") ∨
    ∃ command, i.subcommand.command? s = .ok command ∧
      ((command.Fails random ∧ (conclude i s random).exitCode = 1 ∧
          (conclude i s random).stdout = "") ∨
        (¬ command.Fails random ∧ (conclude i s random).exitCode = 0)) := by
  rw [conclude]
  cases i.subcommand.command? s with
  | error e => exact .inl ⟨⟨e, rfl⟩, rfl, rfl⟩
  | ok command =>
    refine .inr ⟨command, rfl, ?_⟩
    simp only [Command.fails_iff]
    cases command.evaluate random with
    | error e => exact .inl ⟨⟨e, rfl⟩, rfl, rfl⟩
    | ok result => exact .inr ⟨by simp, rfl⟩

/-- Settings that agree on what a request takes from them lead to the same end. -/
theorem conclude_of_alike (i : Invocation) {s s' : Settings} (h : s.Alike s') (random : NameSupply) :
    (conclude i s random).exitCode = (conclude i s' random).exitCode ∧
      (conclude i s random).stdout = (conclude i s' random).stdout := by
  simp only [conclude]
  cases hsubcommand : i.subcommand with
  | parse filter => exact ⟨rfl, rfl⟩
  | operators => exact ⟨rfl, rfl⟩
  | compile o =>
    rcases o.request?_of_alike h with ⟨e, he, he'⟩ | ⟨r, r', hr, hr', halike⟩
    · simp only [Subcommand.command?, he, he', Except.map]
      exact ⟨trivial, trivial⟩
    · simp only [Subcommand.command?, hr, hr', Except.map, Command.evaluate, halike.compile_eq,
        halike.filter]
      cases r'.compile random with
      | error e => exact ⟨rfl, rfl⟩
      | ok text => exact ⟨rfl, rfl⟩

/-! ## Whole runs -/

/-- The files in which an invocation looks for settings, the explicit one before those that are
searched. -/
def sources (i : Invocation) (env : Settings.Environment) (files : FileTree) : List String :=
  i.config.toList ++ Settings.searchPaths env (pathOf files.workingDirectory)

/-- Two surroundings of an invocation load the explicit file both or neither, and set the same of what a
request takes from settings. They may differ in what is set for the log, in which of the files that are
looked for are there and load, and in all other files. -/
structure ConfiguredAlike (i : Invocation) (env env' : Settings.Environment)
    (files files' : FileTree) : Prop where
  explicit : ∀ path, i.config = some path →
    ((∃ entries, Settings.Loads files.read? path entries) ↔
      ∃ entries, Settings.Loads files'.read? path entries)
  value : ∀ key : Settings.Key, key ≠ .logLevel → key ≠ .logDirectory → ∀ v,
    (env key.variableName = some v ∨ env key.variableName = none ∧
      FirstGives (Settings.Sets files.read? key) (sources i env files) v) ↔
    (env' key.variableName = some v ∨ env' key.variableName = none ∧
      FirstGives (Settings.Sets files'.read? key) (sources i env' files') v)
  field : ∀ field path,
    FirstGives (Settings.Maps files.read? field) (sources i env files) path ↔
      FirstGives (Settings.Maps files'.read? field) (sources i env' files') path

section Run

variable {args : List String} {i : Invocation} {env env' : Settings.Environment}
  {files files' : FileTree} {s s' : Settings} {e : Error}

theorem run_of_load_error (hread : Invocation.read args = .ok i) (random : NameSupply)
    (hload : loadSettings i env files.read? (pathOf files.workingDirectory) = .error e) :
    (run args env files random).exitCode = 2 ∧ (run args env files random).stdout = "" := by
  simp only [run, hread, hload]
  exact ⟨trivial, trivial⟩

theorem run_of_load_ok (hread : Invocation.read args = .ok i) (random : NameSupply)
    (hload : loadSettings i env files.read? (pathOf files.workingDirectory) = .ok s) :
    (run args env files random).exitCode = (conclude i s random).exitCode ∧
      (run args env files random).stdout = (conclude i s random).stdout := by
  simp only [run, hread, hload]
  exact ⟨rfl, rfl⟩

/-- The ends of a run of a command. -/
theorem run_cases (hread : Invocation.read args = .ok i) (env : Settings.Environment)
    (files : FileTree) (random : NameSupply) :
    (i.IsMisconfigured files.read? ∧ (run args env files random).exitCode = 2 ∧
      (run args env files random).stdout = "") ∨
    ¬ i.IsMisconfigured files.read? ∧ ∃ s command,
      s.AreConfigured files.read? (sources i env files) env ∧ i.subcommand.StandsFor s command ∧
      ((command.Fails random ∧ (run args env files random).exitCode = 1 ∧
          (run args env files random).stdout = "") ∨
        (¬ command.Fails random ∧ (run args env files random).exitCode = 0)) := by
  cases hload : loadSettings i env files.read? (pathOf files.workingDirectory) with
  | error e =>
    obtain ⟨path, hconfig, hloads⟩ := Settings.exists_load_eq_error_iff.1 ⟨e, hload⟩
    exact .inl ⟨.config hconfig hloads, run_of_load_error hread random hload⟩
  | ok s =>
    obtain ⟨hexit, hstdout⟩ := run_of_load_ok hread random hload
    rw [hexit, hstdout]
    rcases conclude_cases i s random with ⟨hpair, hend⟩ | ⟨command, hcommand, hend⟩
    · obtain ⟨o, hcompile, text, htext, hmalformed⟩ := Subcommand.exists_command?_eq_error_iff.1 hpair
      exact .inl ⟨.pair hcompile htext hmalformed, hend⟩
    · refine .inr ⟨fun h => ?_, s, command, Settings.areConfigured_of_load hload,
        Subcommand.standsFor_of_command? hcommand, hend⟩
      cases h with
      | config hconfig hloads =>
        obtain ⟨e, he⟩ := Settings.exists_load_eq_error_iff.2 ⟨_, hconfig, hloads⟩
        rw [loadSettings, he] at hload
        cases hload
      | pair hcompile htext hmalformed =>
        obtain ⟨e, he⟩ := Subcommand.exists_command?_eq_error_iff.2
          ⟨_, hcompile, _, htext, hmalformed⟩
        rw [he] at hcommand
        cases hcommand

/-- Settings with the same values agree on them. -/
theorem alike_of_configuredAlike (h : ConfiguredAlike i env env' files files')
    (hs : s.AreConfigured files.read? (sources i env files) env)
    (hs' : s'.AreConfigured files'.read? (sources i env' files') env') : s.Alike s' := by
  have hvalue : ∀ key : Settings.Key, key ≠ .logLevel → key ≠ .logDirectory →
      s.value? key = s'.value? key := by
    intro key hlevel hdirectory
    refine Option.ext fun v => ?_
    rw [hs.value, hs'.value]
    exact h.value key hlevel hdirectory v
  refine ⟨hvalue .document nofun nofun, hvalue .vertex nofun nofun, hvalue .collection nofun nofun,
    fun field => Option.ext fun path => ?_⟩
  rw [hs.field, hs'.field]
  exact h.field field path

/-- Surroundings that set the same cannot be told apart. -/
theorem run_of_configuredAlike (hread : Invocation.read args = .ok i)
    (h : ConfiguredAlike i env env' files files') (random : NameSupply) :
    (run args env' files' random).exitCode = (run args env files random).exitCode ∧
      (run args env' files' random).stdout = (run args env files random).stdout := by
  have herror : (∃ e, loadSettings i env files.read? (pathOf files.workingDirectory) = .error e) ↔
      ∃ e, loadSettings i env' files'.read? (pathOf files'.workingDirectory) = .error e := by
    simp only [loadSettings, Settings.exists_load_eq_error_iff]
    refine exists_congr fun path => and_congr_right fun hconfig => ?_
    rw [← not_exists, ← not_exists, h.explicit path hconfig]
  cases hload : loadSettings i env files.read? (pathOf files.workingDirectory) with
  | error e =>
    obtain ⟨e', hload'⟩ := herror.1 ⟨e, hload⟩
    obtain ⟨hexit, hstdout⟩ := run_of_load_error hread random hload
    obtain ⟨hexit', hstdout'⟩ := run_of_load_error hread random hload'
    exact ⟨hexit'.trans hexit.symm, hstdout'.trans hstdout.symm⟩
  | ok s =>
    cases hload' : loadSettings i env' files'.read? (pathOf files'.workingDirectory) with
    | error e' =>
      obtain ⟨e, he⟩ := herror.2 ⟨e', hload'⟩
      rw [he] at hload
      cases hload
    | ok s' =>
      have halike := alike_of_configuredAlike h (Settings.areConfigured_of_load hload)
        (Settings.areConfigured_of_load hload')
      obtain ⟨hexit, hstdout⟩ := conclude_of_alike i halike random
      obtain ⟨hrun, hprinted⟩ := run_of_load_ok hread random hload
      obtain ⟨hrun', hprinted'⟩ := run_of_load_ok hread random hload'
      exact ⟨by rw [hrun', hrun, hexit], by rw [hprinted', hprinted, hstdout]⟩

/-- Where the files that are looked at load with the same entries or not at all, they set the same. -/
theorem configuredAlike_of_loads (hdirectory : files'.workingDirectory = files.workingDirectory)
    (hloads : ∀ path ∈ sources i env files, ∀ entries,
      Settings.Loads files'.read? path entries ↔ Settings.Loads files.read? path entries) :
    ConfiguredAlike i env env files files' := by
  have hsources : sources i env files' = sources i env files := by rw [sources, hdirectory, sources]
  constructor
  · intro path hconfig
    have hmem : path ∈ sources i env files := by simp [sources, hconfig]
    simp only [hloads path hmem]
  · intro key _ _ v
    rw [hsources, firstGives_congr fun path hpath v => ?_]
    simp only [Settings.Sets, hloads path hpath]
  · intro field path
    rw [hsources, firstGives_congr fun file hfile path => ?_]
    simp only [Settings.Maps, hloads file hfile]

end Run

/-- A run of a command ends with exit code 2 if and only if it is misconfigured, otherwise with 1 if and
only if the command that the settings complete fails, otherwise with 0. Unless the exit code is 0
nothing is printed. Neither exit code nor output show more of the surroundings than the explicit file
loading or not and the values that are set for requests: whether other files load is not seen, nor
anything that has to do with the log. -/
theorem run_exitCode {args : List String} {i : Invocation} (hread : Invocation.read args = .ok i)
    (env : Settings.Environment) (files : FileTree) (random : NameSupply) :
    ((run args env files random).exitCode = 2 ↔ i.IsMisconfigured files.read?) ∧
    (¬ i.IsMisconfigured files.read? → ∃ s command,
      s.AreConfigured files.read? (sources i env files) env ∧ i.subcommand.StandsFor s command ∧
      ((run args env files random).exitCode = 1 ↔ command.Fails random) ∧
      ((run args env files random).exitCode = 0 ↔ ¬ command.Fails random)) ∧
    ((run args env files random).exitCode ≠ 0 → (run args env files random).stdout = "") ∧
    (∀ env' files', ConfiguredAlike i env env' files files' →
      (run args env' files' random).exitCode = (run args env files random).exitCode ∧
        (run args env' files' random).stdout = (run args env files random).stdout) ∧
    ∀ files', files'.workingDirectory = files.workingDirectory →
      (∀ path ∈ sources i env files, ∀ entries,
        Settings.Loads files'.read? path entries ↔ Settings.Loads files.read? path entries) →
      (run args env files' random).exitCode = (run args env files random).exitCode ∧
        (run args env files' random).stdout = (run args env files random).stdout := by
  refine ⟨?_, ?_, ?_, fun env' files' h => run_of_configuredAlike hread h random,
    fun files' hdirectory hloads =>
      run_of_configuredAlike hread (configuredAlike_of_loads hdirectory hloads) random⟩
  all_goals
    rcases run_cases hread env files random with ⟨hmisconfigured, hexit, hstdout⟩ |
      ⟨hconfigured, s, command, hs, hcommand, hend⟩
  · simp [hexit, hmisconfigured]
  · rcases hend with ⟨-, hexit, -⟩ | ⟨-, hexit⟩ <;> simp [hexit, hconfigured]
  · exact fun h => absurd hmisconfigured h
  · refine fun _ => ⟨s, command, hs, hcommand, ?_⟩
    rcases hend with ⟨hfails, hexit, -⟩ | ⟨hfails, hexit⟩ <;> simp [hexit, hfails]
  · exact fun _ => hstdout
  · rcases hend with ⟨-, -, hstdout⟩ | ⟨-, hexit⟩
    · exact fun _ => hstdout
    · exact fun h => absurd hexit h

/-- A directory stands where settings are looked for, and a date is none: the run fails as it does where
nothing stands there. -/
theorem run_exitCode_directory :
    let args := ["compile", "day$<2020-13", "--map", "day=at"]
    let i : Invocation :=
      ⟨none, none, none, .compile ⟨"day$<2020-13", ["day=at"], none, none, false, none, false⟩⟩
    let env : Settings.Environment := fun _ => none
    let random := NameSupply.sequential "n"
    let files : FileTree := ⟨[(["w"], .directory), (["w", "aqlfilter.toml"], .directory)], ["w"]⟩
    let files' : FileTree := ⟨[(["w"], .directory)], ["w"]⟩
    Invocation.read args = .ok i ∧ ¬ i.IsMisconfigured files.read? ∧
      (run args env files random).exitCode = 1 ∧ (run args env files random).stdout = "" ∧
      (∃ s command, i.subcommand.StandsFor s command ∧ command.Fails random) ∧
      (run args env files' random).exitCode = 1 ∧ (run args env files' random).stdout = "" := by
  intro args i env random files files'
  have hread : Invocation.read args = .ok i := by decide +kernel
  have hexit : (run args env files random).exitCode = 1 := by decide +kernel
  obtain ⟨hmisconfigured, hfails, hempty, -, hloads⟩ := run_exitCode hread env files random
  have hconfigured : ¬ i.IsMisconfigured files.read? := fun h => by
    rw [← hmisconfigured, hexit] at h
    cases h
  have hstdout : (run args env files random).stdout = "" := hempty (by rw [hexit]; decide)
  obtain ⟨s, command, -, hcommand, hone, -⟩ := hfails hconfigured
  have hsources : sources i env files = ["/w/aqlfilter.toml"] := by decide +kernel
  -- in neither tree can the one file that is looked at be read
  obtain ⟨hexit', hstdout'⟩ := hloads files' rfl fun path hpath entries => by
    obtain rfl : path = "/w/aqlfilter.toml" := by simpa [hsources] using hpath
    have hdirectory : files.read? "/w/aqlfilter.toml" = .error .isDirectory := by decide +kernel
    have habsent : files'.read? "/w/aqlfilter.toml" = .error .notFound := by decide +kernel
    simp [Settings.Loads, hdirectory, habsent]
  exact ⟨hread, hconfigured, hexit, hstdout, ⟨s, command, hcommand, hone.1 hexit⟩,
    hexit'.trans hexit, hstdout'.trans hstdout⟩

end Program

end FilterClause
