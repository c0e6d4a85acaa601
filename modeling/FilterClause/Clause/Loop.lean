import FilterClause.Clause.Statement
import FilterClause.Text.Basic

/-!
# Loops over a collection

A clause becomes a query when a loop over a collection is put around it. The loop variable has to be
the one that the paths of the clause start from: the variable they are relative to, or the root that
all of them share.
-/

namespace FilterClause

/-- The variable that relative paths start from: the vertex variable where there is one, else the
document variable. -/
def loopVariable (document : String) (vertex : Option String) : String :=
  vertex.getD document

/-- The variables that the paths used by filters start from, once each and in ascending order. -/
def usedRoots (fields : FieldMap) (filters : List Filter) : List String :=
  Text.sortedDistinct ((filters.filterMap fun f => fields.get? f.field).map pathRoot)

/-- The variable that all paths used by filters start from; there must be one, and it must have a
name. -/
def commonRoot (fields : FieldMap) (filters : List Filter) : Except Error String :=
  match fields.missing filters with
  | [] =>
    match usedRoots fields filters with
    | [root] => if root = "" then .error (.invalidArgument (.noCommonRoot [root])) else .ok root
    | roots => .error (.invalidArgument (.noCommonRoot roots))
  | missing => .error (.unmappedFields missing)

/-- A variable that runs over a collection. -/
structure Loop where
  loopVar : String
  collection : String
  deriving DecidableEq, Repr

/-- The query that returns the elements of the collection that a clause lets through. -/
def Loop.around (l : Loop) (clause : String) : String :=
  "FOR " ++ l.loopVar ++ " IN " ++ l.collection ++ "\n" ++ Text.indent clause ++
    "\n    RETURN " ++ l.loopVar

end FilterClause
