import FilterClause.CalendarDate
import FilterClause.Error
import FilterClause.Operator

/-!
# Right-hand sides

How the value of a filter is written in a clause. A relational comparison has its value bare, the
other plain comparisons have it between single quotes, a date comparison has it inside a call of
`DATE_ISO8601`. A list test takes the value as it is.
-/

namespace FilterClause

/-- A text between single quotes; quotes inside it stay as they are. -/
def quote (value : String) : String :=
  "'" ++ value ++ "'"

/-- The right-hand side of a comparison. -/
inductive Operand
  | bare (value : String)
  | quoted (value : String)
  | date (value : String)
  deriving DecidableEq, Repr

/-- The spelling of a right-hand side. -/
def Operand.text : Operand → String
  | .bare value => value
  | .quoted value => quote value
  | .date value => "DATE_ISO8601(" ++ quote value ++ ")"

/-- The right-hand side of a plain comparison. -/
def Comparison.operand (c : Comparison) (value : String) : Operand :=
  if c.isRelational then .bare value else .quoted value

/-- The right-hand side of a date comparison; the value has to be a date. -/
def dateOperand (value : String) : Except Error Operand :=
  if CalendarDate.isDate value then .ok (.date value) else .error (.invalidDate value)

/-- The text of a filter's value for its operator. -/
def Operator.operandText (op : Operator) (value : String) : Except Error String :=
  match op with
  | .generic c => .ok (c.operand value).text
  | .date _ => (dateOperand value).map Operand.text
  | .array _ => .ok value

end FilterClause
