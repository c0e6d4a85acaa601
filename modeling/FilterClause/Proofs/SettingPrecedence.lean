import FilterClause.Command.Line
import FilterClause.Proofs.SettingFiles

/-!
# Which source decides a setting

Settings are looked for in the explicit file and in the files searched, in this order. The first file
that sets something decides it, whatever else the files set and whichever of them do not load; a
variable of the environment comes before all files. The fields of the field map are decided one by one,
by the files alone. Loading fails only for an explicit file that does not load (`load_precedence`).

The argument is made once for whatever merges fill on its own (`IsFilled`): merging files into settings
keeps what is set, and takes the rest from the first file that has it (`get_mergeFound`). Each key and
each field is such a reading.

In a request to compile, written pairs and options come before the settings (`Completes`).
-/

namespace FilterClause.Settings

open FieldMap

/-! ## Merging files -/

/-- A reading of settings that is filled when settings are. -/
structure IsFilled (get : Settings → Option String) : Prop where
  empty : get empty = none
  fillFrom : ∀ s other, get (s.fillFrom other) = (get s).or (get other)

theorem isFilled_value? (key : Key) : IsFilled (·.value? key) :=
  ⟨value?_empty key, fun s other => value?_fillFrom s other key⟩

theorem isFilled_fields (field : String) : IsFilled (·.fields.get? field) :=
  ⟨get?_empty field, fun s other => get?_fillFrom s.fields other.fields field⟩

/-- A file that was looked for fills the settings if it loads and leaves them alone otherwise. -/
theorem mergeFound_cons (read : Reader) (s : Settings) (path : String) (paths : List String) :
    mergeFound read s (path :: paths) =
      mergeFound read ((loaded? read path).elim s s.fillFrom) paths := by
  rw [mergeFound, List.foldl_cons, ← mergeFound]
  congr 1
  cases hfile : ofFile? read path with
  | ok found => simp [ofFound?, loaded?, hfile, Except.toOption]
  | error e =>
    -- an error is passed over whether or not it says that nothing is there
    have hskip : ∀ found, ofFound? read path ≠ some (.ok found) := by
      intro found
      rw [ofFound?, hfile]
      split <;> simp_all
    have hloaded : loaded? read path = none := by rw [loaded?, hfile, Except.toOption]
    rw [hloaded, Option.elim_none]
    split
    · next found hfound => exact absurd hfound (hskip found)
    · rfl
    · rfl

variable {get : Settings → Option String}

theorem get_mergeFound (hget : IsFilled get) (read : Reader) (s : Settings) (paths : List String) :
    get (mergeFound read s paths) =
      (get s).or (paths.findSome? fun path => (loaded? read path).bind get) := by
  induction paths generalizing s with
  | nil => simp [mergeFound]
  | cons path paths ih =>
    rw [mergeFound_cons, ih, List.findSome?_cons]
    cases loaded? read path with
    | none => rfl
    | some found =>
      rw [Option.elim_some, hget.fillFrom, Option.or_assoc, Option.bind_some]
      cases get found <;> rfl

theorem get_ofExplicit? (hget : IsFilled get) {read : Reader} {explicit : Option String} {s : Settings}
    (hs : ofExplicit? read explicit = .ok s) :
    get s = explicit.toList.findSome? fun path => (loaded? read path).bind get := by
  cases explicit with
  | none =>
    cases hs
    exact hget.empty
  | some path =>
    have hloaded : loaded? read path = some s := loaded?_eq_some_iff.2 hs
    simp [hloaded]

/-- The merged settings hold what the first file that has it holds, the explicit one before all. -/
theorem get_mergeFound_ofExplicit? (hget : IsFilled get) {read : Reader} {explicit : Option String}
    {s : Settings} (hs : ofExplicit? read explicit = .ok s) (search : List String) :
    get (mergeFound read s search) =
      (explicit.toList ++ search).findSome? fun path => (loaded? read path).bind get := by
  rw [get_mergeFound hget, get_ofExplicit? hget hs, List.findSome?_append]

theorem load_eq_ok_iff {read : Reader} {explicit : Option String} {search : List String}
    {env : Environment} {s : Settings} :
    load read explicit search env = .ok s ↔
      ∃ first, ofExplicit? read explicit = .ok first ∧
        s = (mergeFound read first search).override env := by
  rw [load]
  cases ofExplicit? read explicit <;> simp [Except.map, eq_comm]

theorem exists_load_eq_error_iff {read : Reader} {explicit : Option String} {search : List String}
    {env : Environment} :
    (∃ e, load read explicit search env = .error e) ↔
      ∃ path, explicit = some path ∧ ∀ entries, ¬ Loads read path entries := by
  cases explicit with
  | none => simp [load, ofExplicit?, Except.map]
  | some path =>
    simp only [load, ofExplicit?, Option.some.injEq, exists_eq_left', ← not_exists,
      ← exists_ofFile?_eq_ok_iff]
    cases ofFile? read path <;> simp [Except.map]

/-! ## Loaded settings -/

/-- The settings that files and an environment configure. -/
structure AreConfigured (s : Settings) (read : Reader) (files : List String) (env : Environment) :
    Prop where
  value : ∀ key v, s.value? key = some v ↔
    env key.variableName = some v ∨ env key.variableName = none ∧ FirstGives (Sets read key) files v
  field : ∀ field path, s.fields.get? field = some path ↔ FirstGives (Maps read field) files path

theorem areConfigured_of_load {read : Reader} {explicit : Option String} {search : List String}
    {env : Environment} {s : Settings} (hs : load read explicit search env = .ok s) :
    s.AreConfigured read (explicit.toList ++ search) env := by
  obtain ⟨first, hfirst, rfl⟩ := load_eq_ok_iff.1 hs
  constructor
  · intro key v
    rw [value?_override, Option.or_eq_some_iff,
      get_mergeFound_ofExplicit? (isFilled_value? key) hfirst,
      firstGives_iff_findSome? (sets_iff read key)]
  · intro field path
    exact get_mergeFound_ofExplicit? (isFilled_fields field) hfirst search ▸
      (firstGives_iff_findSome? (maps_iff read field) _ _).symm

/-! ## Requests to compile -/

/-- A request takes its field map and its variables from written pairs and options, and what these leave
open from settings. -/
structure Completes (r : CompileRequest) (o : CompileOptions) (s : Settings) : Prop where
  filter : r.filter = o.filter
  qualified : r.qualified = o.qualified
  deterministic : r.deterministic = o.deterministic
  field : ∀ field path, r.fields.get? field = some path ↔
    LastGives (fun text => IsPair text field) o.pairs path ∨
      (∀ text ∈ o.pairs, ∀ p, ¬ IsPair text field p) ∧ s.fields.get? field = some path
  document : r.document = (o.document.or (s.value? .document)).getD "doc"
  vertex : r.vertex = o.vertex.or (s.value? .vertex)
  collection : r.collection = o.collection.or (s.value? .collection)

theorem exists_command?_compile_eq_ok_iff {o : CompileOptions} {s : Settings} :
    (∃ command, (Subcommand.compile o).command? s = .ok command) ↔
      ∀ text ∈ o.pairs, ∃ field path, IsPair text field path := by
  rw [← exists_ofPairs?_eq_ok_iff]
  cases hpairs : ofPairs? o.pairs <;>
    simp [Subcommand.command?, CompileOptions.request?, hpairs, Except.map]

theorem completes_of_command? {o : CompileOptions} {s : Settings} {command : Command}
    (h : (Subcommand.compile o).command? s = .ok command) :
    ∃ r, command = .compile r ∧ Completes r o s := by
  cases hpairs : ofPairs? o.pairs with
  | error e => simp [Subcommand.command?, CompileOptions.request?, hpairs, Except.map] at h
  | ok fields =>
    simp only [Subcommand.command?, CompileOptions.request?, hpairs, Except.map, Except.ok.injEq] at h
    refine ⟨_, h.symm, rfl, rfl, rfl, ?_, ?_, rfl, rfl⟩
    · intro field path
      rw [get?_fillFrom, Option.or_eq_some_iff, get?_ofPairs?_eq_some_iff hpairs,
        get?_ofPairs?_eq_none_iff hpairs]
    · cases o.document <;> rfl

/-- Loading fails just for an explicit file that does not load. Otherwise the settings are those of the
environment and, for what it does not set, of the first file that does; and `compile` is completed from
them after its own options, if the written pairs are well formed. -/
theorem load_precedence (read : Reader) (explicit : Option String) (search : List String)
    (env : Environment) :
    ((∃ e, load read explicit search env = .error e) ↔
      ∃ path, explicit = some path ∧ ∀ entries, ¬ Loads read path entries) ∧
    ∀ s, load read explicit search env = .ok s →
      s.AreConfigured read (explicit.toList ++ search) env ∧
      ∀ o : CompileOptions,
        ((∃ command, (Subcommand.compile o).command? s = .ok command) ↔
          ∀ text ∈ o.pairs, ∃ field path, IsPair text field path) ∧
        ∀ command, (Subcommand.compile o).command? s = .ok command →
          ∃ r, command = .compile r ∧ Completes r o s :=
  ⟨exists_load_eq_error_iff, fun _ hs =>
    ⟨areConfigured_of_load hs, fun _ =>
      ⟨exists_command?_compile_eq_ok_iff, fun _ hcommand => completes_of_command? hcommand⟩⟩⟩

/-! Several layers: an explicit file, three files that are passed over, and one more, below an
environment and options. -/

/-- Files in which settings are looked for. -/
def layeredReader : Reader
  | "explicit.toml" => .ok "vert_var = \"v\"\nlog_level = \"\"\n[fields]\nsport = \"sports\"\n"
  | "directory.toml" => .error .isDirectory
  | "broken.toml" => .ok "doc_var = "
  | "last.toml" =>
    .ok ("doc_var = \"d\"\nvert_var = \"w\"\nlog_dir = \"logs\"\n" ++
      "[fields]\nsport = \"games\"\nemail = \"mail\"\n")
  | _ => .error .notFound

/-- The files that are searched. -/
def layeredSearch : List String :=
  ["absent.toml", "directory.toml", "broken.toml", "last.toml"]

/-- An environment that sets a collection, and an empty directory for logs. -/
def layeredEnvironment : Environment
  | "AQLFILTER_COLLECTION" => some "people"
  | "AQLFILTER_LOG_DIR" => some ""
  | _ => none

/-- The settings of all layers. -/
def layeredSettings : Settings :=
  ⟨some "d", some "v", some "people", some "", some "",
    .ofList [("sport", "sports"), ("email", "mail")]⟩

/-- Options with two pairs for one field. -/
def layeredOptions : CompileOptions :=
  ⟨"sport===tennis", ["sport=club", " sport = team=first "], none, some "e", false, none, true⟩

theorem load_precedence_layered :
    load layeredReader (some "explicit.toml") layeredSearch layeredEnvironment = .ok layeredSettings ∧
      layeredSettings.AreConfigured layeredReader ("explicit.toml" :: layeredSearch)
        layeredEnvironment ∧
      ∃ r, (Subcommand.compile layeredOptions).command? layeredSettings = .ok (.compile r) ∧
        Completes r layeredOptions layeredSettings := by
  have hs : load layeredReader (some "explicit.toml") layeredSearch layeredEnvironment =
      .ok layeredSettings := by decide +kernel
  obtain ⟨-, hload⟩ :=
    load_precedence layeredReader (some "explicit.toml") layeredSearch layeredEnvironment
  obtain ⟨hconfigured, hcompile⟩ := hload layeredSettings hs
  obtain ⟨command, hcommand⟩ :
      ∃ command, (Subcommand.compile layeredOptions).command? layeredSettings = .ok command := ⟨_, rfl⟩
  obtain ⟨r, rfl, hr⟩ := (hcompile layeredOptions).2 command hcommand
  exact ⟨hs, hconfigured, r, hcommand, hr⟩

end FilterClause.Settings
