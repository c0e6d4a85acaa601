import FilterClause.Command.Arguments
import FilterClause.Command.Basic
import FilterClause.FieldMap.Pairs
import FilterClause.Settings.Basic

/-!
# Command lines

What the arguments of the program ask for: help, the version, or a command with options that
settings complete. A command line that is none of these is a misuse.
-/

namespace FilterClause

/-! ## Grammars -/

/-- The options before the subcommand. -/
def globalGrammar : ArgumentGrammar where
  options := [("config", .nonempty), ("format", .single), ("log-level", .single)]
  words := 0
  hasSubcommands := true
  hasVersion := true

/-- The subcommand `parse` takes a filter string. -/
def parseGrammar : ArgumentGrammar where
  options := []
  words := 1
  hasSubcommands := false
  hasVersion := false

/-- The subcommand `compile` takes a filter string and options. -/
def compileGrammar : ArgumentGrammar where
  options := [("map", .repeated), ("doc", .single), ("vert", .single), ("qualified", .flag),
    ("collection", .single), ("deterministic", .flag)]
  words := 1
  hasSubcommands := false
  hasVersion := false

/-- The subcommand `operators` takes nothing. -/
def operatorsGrammar : ArgumentGrammar where
  options := []
  words := 0
  hasSubcommands := false
  hasVersion := false

/-! ## Subcommands -/

/-- The options of `compile` as given; what is not given comes from settings. -/
structure CompileOptions where
  filter : String
  pairs : List String
  document : Option String
  vertex : Option String
  qualified : Bool
  collection : Option String
  deterministic : Bool
  deriving DecidableEq, Repr

/-- What is to be done. -/
inductive Subcommand
  | parse (filter : String)
  | compile (options : CompileOptions)
  | operators
  deriving DecidableEq, Repr

/-- The single word that a subcommand takes, with its options. -/
def readWord (g : ArgumentGrammar) (args : List String) : Except Stop (String × Arguments) :=
  match g.read args with
  | .error stop => .error stop
  | .ok (a, _) =>
    match a.words with
    | [word] => if g.accepts a then .ok (word, a) else .error .misuse
    | _ => .error .misuse

/-- The names of the subcommands, which help may be asked for. -/
def subcommandNames : List String := ["parse", "compile", "operators", "help"]

/-- The subcommand that a name and its arguments ask for. -/
def Subcommand.read (name : String) (args : List String) : Except Stop Subcommand :=
  match name with
  | "parse" => (readWord parseGrammar args).map fun (filter, _) => .parse filter
  | "compile" =>
    (readWord compileGrammar args).map fun (filter, a) =>
      .compile {
        filter
        pairs := a.values "map"
        document := a.value? "doc"
        vertex := a.value? "vert"
        qualified := a.isSet "qualified"
        collection := a.value? "collection"
        deterministic := a.isSet "deterministic" }
  | "operators" => (operatorsGrammar.read args).map fun _ => .operators
  | "help" =>
    match args with
    | [] => .error .help
    | [topic] => if topic ∈ subcommandNames then .error .help else .error .misuse
    | _ => .error .misuse
  | _ => .error .misuse

/-! ## Whole command lines -/

/-- A command with the options that stand before it. -/
structure Invocation where
  config : Option String
  format : Option String
  logLevel : Option String
  subcommand : Subcommand
  deriving DecidableEq, Repr

/-- The command that the arguments of the program ask for. The subcommand is read before the option
in front of it is checked, if that has its value as an argument of its own. -/
def Invocation.read (args : List String) : Except Stop Invocation :=
  match globalGrammar.read args with
  | .error stop => .error stop
  | .ok (_, []) => .error .misuse
  | .ok (a, name :: rest) =>
    match Subcommand.read name rest with
    | .error stop => .error stop
    | .ok subcommand =>
      if globalGrammar.accepts a then
        .ok ⟨a.value? "config", a.value? "format", a.value? "log-level", subcommand⟩
      else .error .misuse

/-! ## Completion by settings -/

namespace Invocation

/-- The level of the log where neither an option nor settings give one. -/
def defaultLogLevel : String := "warn"

/-- The level of the log in effect. -/
def level (i : Invocation) (s : Settings) : String :=
  (i.logLevel.or s.logLevel).getD defaultLogLevel

/-- The format of the output in effect. -/
def outputFormat (i : Invocation) : OutputFormat :=
  .ofName i.format

end Invocation

/-- The request that the options of `compile` and settings make together. Written pairs come before
the field map of the settings. -/
def CompileOptions.request? (o : CompileOptions) (s : Settings) : Except Error CompileRequest :=
  (FieldMap.ofPairs? o.pairs).map fun fields => {
    filter := o.filter
    fields := fields.fillFrom s.fields
    document := o.document.getD s.documentVariable
    vertex := o.vertex.or s.vertex
    qualified := o.qualified
    collection := o.collection.or s.collection
    deterministic := o.deterministic }

/-- The command that a subcommand and settings make together. -/
def Subcommand.command? (c : Subcommand) (s : Settings) : Except Error Command :=
  match c with
  | .parse filter => .ok (.parse filter)
  | .compile options => (options.request? s).map .compile
  | .operators => .ok .operators

end FilterClause
