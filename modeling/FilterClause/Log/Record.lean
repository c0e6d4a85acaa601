/-!
# Log records

A record is a message with a severity. A threshold says which severities are written: those at
least as grave as its own, or none.
-/

namespace FilterClause.Log

/-- How grave a record is, from an error down to a trace of single steps. -/
inductive Severity
  | error
  | warn
  | info
  | debug
  | trace
  deriving DecidableEq, Repr

/-- The word that stands for a severity in a log line. -/
def Severity.label : Severity → String
  | .error => "ERROR"
  | .warn => "WARN"
  | .info => "INFO"
  | .debug => "DEBUG"
  | .trace => "TRACE"

/-- The place of a severity, gravest first. -/
def Severity.rank : Severity → Nat
  | .error => 1
  | .warn => 2
  | .info => 3
  | .debug => 4
  | .trace => 5

/-- The least grave severity that is written, or `off` to write nothing. -/
inductive Threshold
  | off
  | upTo (severity : Severity)
  deriving DecidableEq, Repr

namespace Threshold

/-- The place of the last severity that is written. -/
def rank : Threshold → Nat
  | .off => 0
  | .upTo s => s.rank

/-- A severity is written when it is at least as grave as the threshold. -/
def allows (t : Threshold) (s : Severity) : Bool :=
  s.rank ≤ t.rank

/-- The threshold that a word names, in any letter case; every other word means `info`. -/
def ofName (name : String) : Threshold :=
  let name := name.map Char.toLower
  if name = "off" then .off
  else if name = "error" then .upTo .error
  else if name = "warn" then .upTo .warn
  else if name = "debug" then .upTo .debug
  else if name = "trace" then .upTo .trace
  else .upTo .info

end Threshold

/-- A message with its severity. -/
structure Record where
  severity : Severity
  message : String
  deriving DecidableEq, Repr

/-- A record that warns. -/
def Record.warn (message : String) : Record := ⟨.warn, message⟩

/-- A record of what was done. -/
def Record.info (message : String) : Record := ⟨.info, message⟩

/-- A record of how something was done. -/
def Record.debug (message : String) : Record := ⟨.debug, message⟩

/-- A record of a single step. -/
def Record.trace (message : String) : Record := ⟨.trace, message⟩

/-- The line that a log holds for a record: its severity in brackets, then the message. The time in
front of the brackets and the name of the recording module behind them are left out. -/
def Record.line (r : Record) : String :=
  "[" ++ r.severity.label ++ "] " ++ r.message ++ "\n"

/-- The log text of a list of records, as far as a threshold lets them through. -/
def written (t : Threshold) (records : List Record) : String :=
  String.join ((records.filter fun r => t.allows r.severity).map Record.line)

end FilterClause.Log
