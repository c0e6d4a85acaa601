import FilterClause.Combinator
import FilterClause.Operand

/-!
# Parts of a clause

A compiled filter list is made of *bindings* and *terms*. A binding names the result of a subquery
that tests a list; its name is bound to a list that is empty or not. A term is a condition with its
joiner to the next term: a comparison of an attribute, or the statement that a bound list is not
empty.
-/

namespace FilterClause

/-- A named subquery that tests the list at a path for a value. -/
structure Binding where
  name : String
  test : Membership
  path : String
  value : String
  deriving DecidableEq, Repr

/-- The `LET` of a binding. A substring test looks for an element that contains the value, in any
letter case; the other tests ask whether the value is in the list. -/
def Binding.text (b : Binding) : String :=
  "LET " ++ b.name ++ " = (\n" ++
    (match b.test with
    | .has => "    FILTER " ++ quote b.value ++ " IN " ++ b.path ++ "[*]\n    RETURN 1\n"
    | .lacks => "    FILTER " ++ quote b.value ++ " NOT IN " ++ b.path ++ "[*]\n    RETURN 1\n"
    | .contains =>
      "    FOR " ++ b.name ++ "_item IN " ++ b.path ++ "[*]\n" ++
        "        FILTER CONTAINS(LOWER(" ++ b.name ++ "_item), LOWER(" ++ quote b.value ++ "))\n" ++
        "        LIMIT 1\n        RETURN 1\n") ++ ")"

/-- A condition of a clause. -/
inductive Condition
  | compare (path symbol : String) (operand : Operand)
  | nonempty (name : String)
  deriving DecidableEq, Repr

/-- The spelling of a condition. -/
def Condition.text : Condition → String
  | .compare path symbol operand => path ++ " " ++ symbol ++ " " ++ operand.text
  | .nonempty name => "LENGTH(" ++ name ++ ") > 0"

/-- A condition with its joiner to the next term. -/
structure Term (α : Type) where
  condition : α
  joiner : Option Combinator
  deriving DecidableEq, Repr

/-- A term with its condition replaced. -/
def Term.map {α β : Type} (f : α → β) (t : Term α) : Term β :=
  ⟨f t.condition, t.joiner⟩

/-- A compiled filter list: its bindings, newest first, and its terms, in filter order. -/
structure Clause where
  bindings : List Binding
  terms : List (Term Condition)
  deriving DecidableEq, Repr

end FilterClause
