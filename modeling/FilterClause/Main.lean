import FilterClause.Program

/-!
# Entry point

Runs the program on the arguments, the environment and the files of the system. All decisions are
made by `FilterClause.Program`; here files are read and written, and streams are printed to.
-/

namespace FilterClause

open Log

/-- The fault that an error of the system stands for. -/
def IoFault.ofSystem (e : IO.Error) : IoFault :=
  match e with
  | .noFileOrDirectory .. => .notFound
  | .alreadyExists .. => .alreadyExists
  | .inappropriateType _ code _ => if code = 21 then .isDirectory else .notDirectory
  | e => .other (toString e)

/-- The text of a file of the system. -/
def readSystemFile (path : String) : IO (Except IoFault String) := do
  try
    let bytes ← IO.FS.readBinFile path
    match String.fromUTF8? bytes with
    | some text => return .ok text
    | none => return .error .invalidText
  catch e => return .error (.ofSystem e)

/-- The variables of the environment that the program looks at. -/
def environmentNames : List String :=
  ["AQLFILTER_CONFIG", "AQLFILTER_DOC_VAR", "AQLFILTER_VERT_VAR", "AQLFILTER_COLLECTION",
    "AQLFILTER_LOG_LEVEL", "AQLFILTER_LOG_DIR", "XDG_CONFIG_HOME", "HOME"]

/-- The environment of the process. -/
def readEnvironment : IO Settings.Environment := do
  let values ← environmentNames.mapM fun name => return (name, ← IO.getEnv name)
  return fun name => (values.lookup name).join

/-- The variables of the environment that a path refers to. -/
def readReferences (path : String) : IO Settings.Environment := do
  let names := (Settings.referenceNames path.toList).map String.ofList
  let values ← names.mapM fun name => return (name, ← IO.getEnv name)
  return fun name => (values.lookup name).join

/-- The path of the directory that holds a file. -/
def parentPath (path : String) : String :=
  (if path.startsWith "/" then "/" else "") ++ "/".intercalate (FileTree.parentNames path)

/-- Writes the records of a run to a log file in a directory, or to the standard error stream. -/
def writeLog (directory : Option String) (text : String) : IO (Except IoFault Unit) := do
  match directory with
  | none => IO.eprint text
  | some directory =>
    let env ← readReferences directory
    let path := Session.logPath env directory
    try
      for parent in [directory, parentPath path] do
        if parent ≠ "" then IO.FS.createDirAll parent
      IO.FS.withFile path .append fun handle => handle.putStr text
    catch e => return .error (.ofSystem e)
  return .ok ()

/-- Carries out an invocation on the system. -/
def performOnSystem (i : Invocation) (s : Settings) : IO UInt32 := do
  let seed ← IO.getRandomBytes 8
  let random := NameSupply.random (seed.foldl (fun word byte => word * 256 + byte.toUInt64) 0)
  let conclusion := Program.conclude i s random
  let log := written (.ofName (i.level s)) conclusion.records
  if let .error fault ← writeLog s.logDirectory log then
    IO.eprint (Program.loggingLine (.io none fault))
  if let some e := conclusion.failure then
    IO.eprint (Program.errorLine e)
  IO.print conclusion.stdout
  return conclusion.exitCode.toUInt32

/-- Runs the program on the system. -/
def runOnSystem (args : List String) : IO UInt32 := do
  match Invocation.read args with
  | .error .help =>
    IO.print Program.helpText
    return 0
  | .error .version =>
    IO.print Program.versionText
    return 0
  | .error .misuse =>
    IO.eprint Program.usageText
    return 2
  | .ok i =>
    let env ← readEnvironment
    let here := toString (← IO.currentDir)
    let paths := i.config.toList ++ Settings.searchPaths env here
    let texts ← paths.mapM fun path => return (path, ← readSystemFile path)
    let read : Settings.Reader := fun path => (texts.lookup path).getD (.error .notFound)
    match Program.loadSettings i env read here with
    | .error e =>
      IO.eprint (Program.errorLine e)
      return 2
    | .ok s => performOnSystem i s

end FilterClause

/-- Runs the program. -/
def main (args : List String) : IO UInt32 :=
  FilterClause.runOnSystem args
