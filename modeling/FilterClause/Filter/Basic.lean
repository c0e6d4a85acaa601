import FilterClause.Combinator
import FilterClause.Error
import FilterClause.Operator

/-!
# Filters

A filter is one condition of a filter string: a field, an operator, a value, and the combinator
that joins it to the next filter, if it has one.
-/

namespace FilterClause

/-- A condition on a field, with its joiner to the next condition. -/
structure Filter where
  field : String
  operator : Operator
  value : String
  joiner : Option Combinator
  deriving DecidableEq, Repr

namespace Filter

/-- A filter from the parts of a filter string; the token must be that of an operator. -/
def make? (field token value : String) (joiner : Option Combinator) : Except Error Filter :=
  match Operator.ofToken? token with
  | some operator => .ok ⟨field, operator, value, joiner⟩
  | none => .error (.unknownOperator token)

/-- The marker of a joiner, or nothing. -/
def joinerText : Option Combinator → String
  | none => ""
  | some c => c.marker.toString

/-- A filter as a filter string spells it. -/
def render (f : Filter) : String :=
  f.field ++ f.operator.token ++ f.value ++ joinerText f.joiner

end Filter

end FilterClause
