import FilterClause.Log.Record
import FilterClause.Text.Quoted

/-!
# Errors

Everything that can go wrong, by cause, and the one place that puts each cause into words. The
first three causes are faults of the filter input (`Error.isFilterFault`); the others are faults of
what surrounds it.
-/

namespace FilterClause

open Log

/-- Why a file could not be read or written. -/
inductive IoFault
  | notFound
  | alreadyExists
  | notDirectory
  | isDirectory
  | nameTooLong
  | nulCharacter
  | invalidText
  | full
  | other (text : String)
  deriving DecidableEq, Repr

namespace IoFault

/-- The system's words for a fault. -/
def message : IoFault → String
  | .notFound => "No such file or directory (os error 2)"
  | .alreadyExists => "File exists (os error 17)"
  | .notDirectory => "Not a directory (os error 20)"
  | .isDirectory => "Is a directory (os error 21)"
  | .nameTooLong => "File name too long (os error 36)"
  | .nulCharacter => "file name contained an unexpected NUL byte"
  | .invalidText => "stream did not contain valid UTF-8"
  | .full => "writer full"
  | .other text => text

/-- A path that cannot be reached names nothing, so nothing is there to be read. -/
def isAbsence : IoFault → Bool
  | .notFound | .notDirectory | .nameTooLong | .nulCharacter => true
  | .alreadyExists | .isDirectory | .invalidText | .full | .other _ => false

end IoFault

/-- Why an argument was refused. -/
inductive ArgumentFault
  | namesExhausted (draws : Nat)
  | noCommonRoot (roots : List String)
  | malformedPair (pair : String)
  | other (text : String)
  deriving DecidableEq, Repr

/-- The words for a refused argument. -/
def ArgumentFault.message : ArgumentFault → String
  | .namesExhausted draws => "no unused binding identifier after " ++ toString draws ++ " draws"
  | .noCommonRoot roots =>
    "qualified paths need one common root variable, found [" ++ ", ".intercalate roots ++ "]"
  | .malformedPair pair => "expected field=path, got " ++ Text.quoted pair
  | .other text => text

/-- Why settings could not be taken from a document or a file. -/
inductive ConfigFault
  | malformed (line : Nat)
  | wrongKind (key : String)
  | unreadable (path : String)
  | other (text : String)
  deriving DecidableEq, Repr

/-- The words for refused settings. What a parser shows of a malformed document is left out. -/
def ConfigFault.message : ConfigFault → String
  | .malformed line => "TOML parse error at line " ++ toString line
  | .wrongKind key => "TOML parse error: wrong kind of value for " ++ key
  | .unreadable path => "log config " ++ path
  | .other text => text

/-- What can go wrong. -/
inductive Error
  | unknownOperator (token : String)
  | unmappedFields (fields : List String)
  | invalidDate (value : String)
  | invalidArgument (fault : ArgumentFault)
  | config (fault : ConfigFault)
  | io (path : Option String) (fault : IoFault)
  | json (text : String)
  deriving DecidableEq, Repr

namespace Error

/-- The words for an error. -/
def message : Error → String
  | .unknownOperator token => "filter operator " ++ token ++ " not allowed"
  | .unmappedFields fields => "unmapped filter field(s): " ++ ", ".intercalate fields
  | .invalidDate value => "error in validating date " ++ value
  | .invalidArgument fault => "invalid argument: " ++ fault.message
  | .config fault => "config error: " ++ fault.message
  | .io none fault => "I/O error: " ++ fault.message
  | .io (some path) fault => "I/O error: " ++ path ++ ": " ++ fault.message
  | .json text => "Serde JSON: " ++ text

/-- The errors that a change of the filter input can mend. -/
def isFilterFault : Error → Bool
  | .unknownOperator _ | .unmappedFields _ | .invalidDate _ => true
  | .invalidArgument _ | .config _ | .io _ _ | .json _ => false

/-- What reading or compiling a filter records when it stops at an error. -/
def warnings : Error → List Record
  | .unknownOperator token => [.warn ("rejecting filter operator " ++ token)]
  | .unmappedFields fields => [.warn ("unmapped filter fields: " ++ ", ".intercalate fields)]
  | .invalidDate value => [.warn ("rejecting date value " ++ value)]
  | .invalidArgument (.namesExhausted draws) =>
    [.warn ("identifier generator repeated itself " ++ toString draws ++ " times")]
  | .invalidArgument _ | .config _ | .io _ _ | .json _ => []

end Error

end FilterClause
