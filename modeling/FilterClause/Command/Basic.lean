import FilterClause.Clause.Loop
import FilterClause.Filter.Parse

/-!
# Commands

What the program can be asked to do: to parse a filter string, to compile one, or to list the
operators. `evaluate` does it without writing anything; every error of a command arises there. How a
result is written is a format of its own.
-/

namespace FilterClause

open Log

/-- A filter string to compile, and how. -/
structure CompileRequest where
  filter : String
  fields : FieldMap
  document : String
  vertex : Option String
  qualified : Bool
  collection : Option String
  deterministic : Bool

/-- Something to do. -/
inductive Command
  | parse (filter : String)
  | compile (request : CompileRequest)
  | operators

/-- What came of a command. -/
inductive Result
  | filters (filters : List Filter)
  | clause (filter text : String)
  | operators (operators : List Operator)
  deriving DecidableEq, Repr

/-- How a command writes its result: for people, as plain lines, or as a JSON document. -/
inductive OutputFormat
  | human
  | plain
  | json
  deriving DecidableEq, Repr

/-- The format that a word names, in any letter case; every other word, and none, means `human`. -/
def OutputFormat.ofName (name : Option String) : OutputFormat :=
  match name.map (String.map Char.toLower) with
  | some "json" => .json
  | some "plain" => .plain
  | _ => .human

namespace CompileRequest

/-- Where the paths of the request start. -/
def anchor (r : CompileRequest) : Anchor :=
  if r.qualified then .qualified else .relative (loopVariable r.document r.vertex)

/-- The names for bindings: numbered ones when the outcome has to be the same each time, otherwise
those of the given supply. -/
def supply (r : CompileRequest) (random : NameSupply) : NameSupply :=
  if r.deterministic then .sequential NameSupply.defaultStem else random

/-- The loop to put around the clause, or none where only a clause is asked for. -/
def loop? (r : CompileRequest) (filters : List Filter) : Except Error (Option Loop) :=
  match r.collection with
  | none => .ok none
  | some collection =>
    match r.anchor with
    | .relative loopVar => .ok (some ⟨loopVar, collection⟩)
    | .qualified => (commonRoot r.fields filters).map fun loopVar => some ⟨loopVar, collection⟩

/-- A clause with a loop around it, if there is one. -/
def wrap (loop : Option Loop) (clause : String) : String :=
  match loop with
  | none => clause
  | some loop => loop.around clause

/-- The clause or query of filters. -/
def compileFilters (r : CompileRequest) (filters : List Filter) (random : NameSupply) :
    Except Error String :=
  match r.loop? filters with
  | .error e => .error e
  | .ok loop => (statement r.fields r.anchor filters (r.supply random)).1.map (wrap loop)

/-- The clause or query of the request. -/
def compile (r : CompileRequest) (random : NameSupply) : Except Error String :=
  match Filter.parse r.filter with
  | .error e => .error e
  | .ok filters => r.compileFilters filters random

/-- What `compileFilters` records, and the request once it is compiled. -/
def filterRecords (r : CompileRequest) (filters : List Filter) (random : NameSupply) :
    List Record :=
  match r.loop? filters with
  | .error _ => []
  | .ok _ =>
    statementRecords r.fields r.anchor filters (r.supply random) ++
      match r.compileFilters filters random with
      | .error _ => []
      | .ok _ => [.info ("compiled filter string " ++ Text.quoted r.filter)]

/-- What `compile` records. -/
def records (r : CompileRequest) (random : NameSupply) : List Record :=
  Filter.parseRecords r.filter ++
    match Filter.parse r.filter with
    | .error _ => []
    | .ok filters => r.filterRecords filters random

end CompileRequest

namespace Command

/-- The result of a command; names that need not be the same each time come from the given
supply. -/
def evaluate (random : NameSupply) : Command → Except Error Result
  | .parse filter => (Filter.parse filter).map .filters
  | .compile request => (request.compile random).map (.clause request.filter)
  | .operators => .ok (.operators Operator.all)

/-- What a command records. -/
def records (random : NameSupply) : Command → List Record
  | .parse filter => Filter.parseRecords filter
  | .compile request => request.records random
  | .operators => []

end Command

end FilterClause
