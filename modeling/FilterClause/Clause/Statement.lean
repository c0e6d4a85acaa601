import FilterClause.Clause.Compiler
import FilterClause.Clause.Grouping

/-!
# Texts of clauses

A clause is written as its bindings, the newest first, then `FILTER` and the grouped expression of
its terms.
-/

namespace FilterClause

open Log

/-- The last line of a clause; without terms it is a bare `FILTER`. -/
def filterLine (terms : List (Term String)) : String :=
  let expression := groupedExpression terms
  if expression = "" then "FILTER" else "FILTER " ++ expression

/-- The text of a clause from the texts of its bindings and terms. -/
def clauseText (bindings : List String) (terms : List (Term String)) : String :=
  "\n".intercalate (bindings ++ [filterLine terms])

/-- The text of a clause. -/
def Clause.text (c : Clause) : String :=
  clauseText (c.bindings.map Binding.text) (c.terms.map (Term.map Condition.text))

/-- The text of the clause of a filter list, with the supply of names as it is afterwards. -/
def statement (fields : FieldMap) (anchor : Anchor) (filters : List Filter) (supply : NameSupply) :
    Except Error String × NameSupply :=
  let (result, compiler) := (Compiler.new fields anchor supply).compile filters
  (result.map Clause.text, compiler.names.supply)

/-- The record of a compiled filter list. -/
def Anchor.compiledRecord (anchor : Anchor) (filters : List Filter) : Record :=
  match anchor with
  | .qualified => .debug ("compiled " ++ toString filters.length ++ " qualified filter(s)")
  | .relative loopVar =>
    .debug ("compiled " ++ toString filters.length ++ " filter(s) relative to " ++ loopVar)

/-- What `statement` records. -/
def statementRecords (fields : FieldMap) (anchor : Anchor) (filters : List Filter)
    (supply : NameSupply) : List Record :=
  (Compiler.new fields anchor supply).records filters ++
    match (statement fields anchor filters supply).1 with
    | .ok _ => [anchor.compiledRecord filters]
    | .error _ => []

end FilterClause
