import FilterClause.Settings.Document

/-!
# Sources of settings

Settings come from an explicit file, from files in places where they are looked for, and from the
environment. The explicit file must be there and be well formed. The other files may be missing, and
one that cannot be read or is malformed is passed over with a warning. Files given earlier decide.
-/

namespace FilterClause.Settings

open Log

/-- The text of a file, or why it cannot be read. -/
abbrev Reader := String → Except IoFault String

/-- The settings of a file. -/
def ofFile? (read : Reader) (path : String) : Except Error Settings :=
  match read path with
  | .error fault => .error (.io (some path) fault)
  | .ok text => ofToml? text

/-- The settings of a file that was looked for; nothing is said of a file that is not there. -/
def ofFound? (read : Reader) (path : String) : Option (Except Error Settings) :=
  match ofFile? read path with
  | .error (.io (some p) fault) =>
    if fault.isAbsence then none else some (.error (.io (some p) fault))
  | result => some result

/-- Settings filled from the files that are found, in order. -/
def mergeFound (read : Reader) (s : Settings) (paths : List String) : Settings :=
  paths.foldl (fun s path =>
    match ofFound? read path with
    | some (.ok found) => s.fillFrom found
    | some (.error _) => s
    | none => s) s

/-- The settings of an explicit file, or none where no file is given. -/
def ofExplicit? (read : Reader) : Option String → Except Error Settings
  | none => .ok empty
  | some path => ofFile? read path

/-- The settings from all sources. -/
def load (read : Reader) (explicit : Option String) (search : List String) (env : Environment) :
    Except Error Settings :=
  (ofExplicit? read explicit).map fun s => (mergeFound read s search).override env

/-- What `load` records: the files it passes over. -/
def loadRecords (read : Reader) (explicit : Option String) (search : List String) : List Record :=
  match ofExplicit? read explicit with
  | .error _ => []
  | .ok _ =>
    search.filterMap fun path =>
      match ofFound? read path with
      | some (.error e) => some (.warn ("skipping config " ++ path ++ ": " ++ e.message))
      | some (.ok _) => none
      | none => none

/-! ## Where settings are looked for -/

/-- The name of a settings file in its directory. -/
def fileName : String := "aqlfilter.toml"

/-- A path below a directory. -/
def join (directory name : String) : String :=
  if directory = "" || directory.endsWith "/" then directory ++ name else directory ++ "/" ++ name

/-- The directory `.config` in the home directory, if there is one. Where `HOME` is not set or is empty,
the system may still know a home directory of the user; it is left out. -/
def homeDirectory? (env : Environment) : Option String :=
  match env "HOME" with
  | some home => if home = "" then none else some (join home ".config")
  | none => none

/-- The directory for the settings of a user: `XDG_CONFIG_HOME` where that is an absolute path, else
the one in the home directory. -/
def userDirectory? (env : Environment) : Option String :=
  match env "XDG_CONFIG_HOME" with
  | some directory => if directory.startsWith "/" then some directory else homeDirectory? env
  | none => homeDirectory? env

/-- The files that are looked for: the one that `AQLFILTER_CONFIG` names, the one of the user, and
the one in the working directory. -/
def searchPaths (env : Environment) (workingDirectory : String) : List String :=
  (env "AQLFILTER_CONFIG").toList ++
    ((userDirectory? env).map fun directory => join directory fileName).toList ++
    [join workingDirectory fileName]

end FilterClause.Settings
