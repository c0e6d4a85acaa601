import FilterClause.FileTree
import FilterClause.Log.Record

/-!
# Loggers

A process starts without a logger, and what is recorded then is lost. Configuring sets the maximum
of the process and installs a logger, unless there is one already: the first logger stays. A record
is written when both the maximum and the threshold of the logger let it through, and it is written
to the destination of the logger.
-/

namespace FilterClause.Log

/-- Where a logger writes. -/
inductive Destination
  | stderr
  | file (place : Place)
  deriving DecidableEq, Repr

/-- The part of a process that decides what becomes of records. -/
structure Logger where
  maximum : Threshold
  installed : Option (Threshold × Destination)
  deriving DecidableEq, Repr

namespace Logger

/-- The state in which a process starts. -/
def initial : Logger := ⟨.off, none⟩

/-- Sets the maximum, and installs a logger unless there is one. -/
def configure (l : Logger) (threshold : Threshold) (destination : Destination) : Logger :=
  ⟨threshold, l.installed.or (some (threshold, destination))⟩

/-- The destination that a record is written to, if any. -/
def destination? (l : Logger) (severity : Severity) : Option Destination :=
  match l.installed with
  | none => none
  | some (threshold, destination) =>
    if l.maximum.allows severity && threshold.allows severity then some destination else none

end Logger

end FilterClause.Log
