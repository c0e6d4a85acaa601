import FilterClause.Log.Logger
import FilterClause.Settings.Reference
import FilterClause.Settings.Sources

/-!
# Sessions

What a run of the program reads and changes besides its standard output: the file tree, the standard
error stream, and the logger. Records are written as they are made; nothing else writes to a log.

Log files only grow here. That a file of ten mebibytes is rolled over, and how many rolled files are
kept, is left out. So is a logger that is set up from a description in a file of its own; of that only
the error is there (`ConfigFault.unreadable`).
-/

namespace FilterClause

open Log

/-- The state of a run. -/
structure Session where
  files : FileTree
  stderr : String
  logger : Logger

namespace Session

/-- The state in which a run starts. -/
def initial (files : FileTree) : Session := ⟨files, "", .initial⟩

/-- Writes to the standard error stream. -/
def complain (p : Session) (text : String) : Session :=
  { p with stderr := p.stderr ++ text }

/-! ## Configuring the logger -/

/-- The name of the log file in its directory. -/
def logFileName : String := "aqlfilter.log"

/-- The path of the log file in a directory, with its references to the environment replaced. -/
def logPath (env : Settings.Environment) (directory : String) : String :=
  Settings.resolveReferences env (Settings.join directory logFileName)

/-- Opens the log file in a directory; without a directory the log goes to the standard error
stream. The directory is made under its name as it is given, and where references lead elsewhere
also the one that holds the file. -/
def openLog (env : Settings.Environment) (files : FileTree) :
    Option String → Except Error Destination × FileTree
  | none => (.ok .stderr, files)
  | some directory =>
    match files.makeDirectories directory with
    | (.error fault, files) => (.error (.io none fault), files)
    | (.ok _, files) =>
      match files.openWithParents (logPath env directory) with
      | (.error fault, files) => (.error (.io none fault), files)
      | (.ok place, files) => (.ok (.file place), files)

/-- Configures the logger for a directory and a level, which is `info` unless given. The log file is
opened also where another logger is installed and stays. -/
def configureLogging (p : Session) (env : Settings.Environment) (directory level : Option String) :
    Except Error Unit × Session :=
  match openLog env p.files directory with
  | (.error e, files) => (.error e, { p with files })
  | (.ok destination, files) =>
    (.ok (), ⟨files, p.stderr,
      p.logger.configure (Threshold.ofName (level.getD "info")) destination⟩)

/-- Configures the logger for the directory and the level that the environment sets. -/
def configureFromEnvironment (p : Session) (env : Settings.Environment) :
    Except Error Unit × Session :=
  p.configureLogging env (env "AQLFILTER_LOG_DIR") (env "AQLFILTER_LOG_LEVEL")

/-! ## Recording -/

/-- Writes a record to where the logger sends it. -/
def record (p : Session) (r : Record) : Session :=
  match p.logger.destination? r.severity with
  | none => p
  | some .stderr => p.complain r.line
  | some (.file place) => { p with files := p.files.append place r.line }

/-- Writes records one after the other. -/
def recordAll (p : Session) (records : List Record) : Session :=
  records.foldl record p

end Session

end FilterClause
