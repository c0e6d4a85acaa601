import FilterClause.Command.Basic
import FilterClause.Json.Document

/-!
# Output of commands

The lines that show a result in each format, and the sink they are written to. A sink may be
bounded; it refuses a line that would take it beyond its bound.
-/

namespace FilterClause

/-! ## Lines -/

/-- A text with spaces after it, at least `width` characters long. -/
def padRight (width : Nat) (s : String) : String :=
  s ++ String.ofList (List.replicate (width - s.length) ' ')

/-- The line that shows a filter to people. -/
def Filter.describe (f : Filter) : String :=
  "field=" ++ f.field ++ " operator=" ++ f.operator.token ++ " value=" ++ Text.quoted f.value ++
    " logic=" ++ (f.joiner.map Combinator.keyword).getD "-"

/-- The name of a combinator as data shows it. -/
def Combinator.key : Combinator → String
  | .or => "Or"
  | .and => "And"

/-- The members that show a filter as data. -/
def Filter.row (f : Filter) : Json.Row :=
  [("field", some f.field), ("operator", some f.operator.token), ("value", some f.value),
    ("logic", f.joiner.map Combinator.key)]

/-- The line that shows an operator to people. -/
def Operator.describe (op : Operator) : String :=
  padRight 4 op.token ++ " -> " ++ padRight 3 op.symbol ++ " (" ++ op.category.title ++ ")"

/-- The members that show an operator as data. -/
def Operator.row (op : Operator) : Json.Row :=
  [("category", some op.category.key), ("symbol", some op.symbol), ("token", some op.token)]

/-- The lines that show a result; a document counts as one line. -/
def Result.lines : OutputFormat → Result → List String
  | .human, .filters fs => fs.map Filter.describe
  | .plain, .filters fs => fs.map Filter.render
  | .json, .filters fs => [(Json.Document.array (fs.map Filter.row)).text]
  | .human, .clause _ text => [text]
  | .plain, .clause _ text => [text]
  | .json, .clause filter text =>
    [(Json.Document.object [("aql", some text), ("filter", some filter)]).text]
  | .human, .operators ops => ops.map Operator.describe
  | .plain, .operators ops => ops.map Operator.token
  | .json, .operators ops => [(Json.Document.array (ops.map Operator.row)).text]

/-- The text of a result: its lines, each with a line feed after it. -/
def Result.text (format : OutputFormat) (r : Result) : String :=
  String.join ((r.lines format).map (· ++ "\n"))

/-! ## Sinks -/

/-- What was written so far, and how many bytes may be written in all. -/
structure Sink where
  limit : Option Nat
  held : String
  deriving DecidableEq, Repr

namespace Sink

/-- A sink that has room for any text. -/
def unbounded : Sink := ⟨none, ""⟩

/-- A sink that has room for a number of bytes. -/
def bounded (limit : Nat) : Sink := ⟨some limit, ""⟩

/-- A sink has room for a text when both its bytes and those held are within the bound. -/
def hasRoom (s : Sink) (text : String) : Bool :=
  match s.limit with
  | none => true
  | some limit => s.held.utf8ByteSize + text.utf8ByteSize ≤ limit

/-- Writes a text, or nothing of it where there is no room. -/
def write (s : Sink) (text : String) : Except Error Unit × Sink :=
  if s.hasRoom text then (.ok (), { s with held := s.held ++ text })
  else (.error (.io none .full), s)

/-- Writes lines one after the other, up to the first for which there is no room. -/
def writeLines (s : Sink) : List String → Except Error Unit × Sink
  | [] => (.ok (), s)
  | line :: rest =>
    match s.write (line ++ "\n") with
    | (.ok _, s) => s.writeLines rest
    | (.error e, s) => (.error e, s)

end Sink

/-- Carries out a command: evaluates it, and then writes its result. -/
def Command.run (random : NameSupply) (c : Command) (format : OutputFormat) (sink : Sink) :
    Except Error Unit × Sink :=
  match c.evaluate random with
  | .error e => (.error e, sink)
  | .ok result => sink.writeLines (result.lines format)

end FilterClause
