import FilterClause.Command.Line
import FilterClause.Command.Output
import FilterClause.Session
import FilterClause.Settings.Sources

/-!
# The program

A whole run from the arguments to the exit code, in five stages: the command line is read, settings
are loaded, the logger is configured, the command is completed from the settings, and the command is
carried out. Misuse, settings that cannot be loaded and malformed pairs end the run with exit code
2, a failing command ends it with exit code 1. A logger that cannot be configured is only complained
of.

The standard output is written last and only by a command that succeeds.
-/

namespace FilterClause

open Log

namespace Program

/-! ## Fixed texts

The wording of help and usage is free; when each of them is shown is not.
-/

/-- The line that shows the version. -/
def versionText : String := "aqlfilter 0.1.0\n"

/-- What is shown on a misuse. -/
def usageText : String :=
  "Usage: aqlfilter [OPTIONS] <COMMAND>\n\nFor more information, try '--help'.\n"

/-- What is shown when help is asked for. -/
def helpText : String :=
  "Compile filter strings into AQL FILTER clauses\n\n" ++
  "Usage: aqlfilter [OPTIONS] <COMMAND>\n\n" ++
  "Commands:\n" ++
  "  parse <FILTER>    Parse a filter string and print the filters\n" ++
  "  compile <FILTER>  Compile a filter string into an AQL FILTER clause\n" ++
  "  operators         List the supported filter operators\n" ++
  "  help              Print this message\n\n" ++
  "Options:\n" ++
  "  --config <FILE>      Path to a config file (TOML)\n" ++
  "  --format <FORMAT>    Output format: human (default), plain or json\n" ++
  "  --log-level <LEVEL>  Log level: error|warn|info|debug|trace\n\n" ++
  "Options of compile:\n" ++
  "  --map <FIELD=PATH>         Field mapping; repeatable\n" ++
  "  --doc <VARIABLE>           Document loop variable\n" ++
  "  --vert <VARIABLE>          Vertex loop variable, in place of the document variable\n" ++
  "  --qualified                Take mapped paths as complete\n" ++
  "  --collection <COLLECTION>  Loop over a collection and return what passes\n" ++
  "  --deterministic            Number binding names instead of drawing random ones\n"

/-- The line that reports an error which ends the run. -/
def errorLine (e : Error) : String :=
  "error: " ++ e.message ++ "\n"

/-- The line that reports a logger which could not be configured. -/
def loggingLine (e : Error) : String :=
  "warning: logging disabled: " ++ e.message ++ "\n"

/-! ## Carrying out a command -/

/-- What carrying out a command comes to: its records, its standard output, the error it ended with,
and its exit code. -/
structure Conclusion where
  records : List Record
  stdout : String
  failure : Option Error
  exitCode : Nat

/-- Completes a command from the settings and carries it out. -/
def conclude (i : Invocation) (s : Settings) (random : NameSupply) : Conclusion :=
  match i.subcommand.command? s with
  | .error e => ⟨[], "", some e, 2⟩
  | .ok command =>
    match command.evaluate random with
    | .error e => ⟨command.records random, "", some e, 1⟩
    | .ok result => ⟨command.records random, result.text i.outputFormat, none, 0⟩

/-! ## Whole runs -/

/-- How a run ends. -/
structure Outcome where
  exitCode : Nat
  stdout : String
  session : Session

/-- Reports an error that ends a run. -/
def report (p : Session) : Option Error → Session
  | none => p
  | some e => p.complain (errorLine e)

/-- The settings of an invocation. -/
def loadSettings (i : Invocation) (env : Settings.Environment) (read : Settings.Reader)
    (workingDirectory : String) : Except Error Settings :=
  Settings.load read i.config (Settings.searchPaths env workingDirectory) env

/-- Configures the logger, and complains if that fails. -/
def startLogging (i : Invocation) (s : Settings) (env : Settings.Environment) (p : Session) :
    Session :=
  match p.configureLogging env s.logDirectory (some (i.level s)) with
  | (.ok _, p) => p
  | (.error e, p) => p.complain (loggingLine e)

/-- Carries out an invocation with its settings. -/
def perform (i : Invocation) (s : Settings) (env : Settings.Environment) (random : NameSupply)
    (p : Session) : Outcome :=
  let c := conclude i s random
  ⟨c.exitCode, c.stdout, report ((startLogging i s env p).recordAll c.records) c.failure⟩

/-- The path of a place. -/
def pathOf (place : Place) : String :=
  "/" ++ "/".intercalate place

/-- A run of the program on a file tree. -/
def run (args : List String) (env : Settings.Environment) (files : FileTree)
    (random : NameSupply) : Outcome :=
  let p := Session.initial files
  match Invocation.read args with
  | .error .help => ⟨0, helpText, p⟩
  | .error .version => ⟨0, versionText, p⟩
  | .error .misuse => ⟨2, "", p.complain usageText⟩
  | .ok i =>
    match loadSettings i env files.read? (pathOf files.workingDirectory) with
    | .error e => ⟨2, "", p.complain (errorLine e)⟩
    | .ok s => perform i s env random p

end Program

end FilterClause
