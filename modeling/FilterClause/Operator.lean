/-!
# Filter operators

The closed set of operators a filter may use, in three categories: comparisons with a plain value,
comparisons with a date (tokens that begin with `$`) and tests on a list (tokens that begin with
`@`).

An operator has a *token*, its spelling in a filter string, and a *symbol*, its spelling in a
clause. Several tokens share a symbol, but `ofToken?_eq_some_iff` says that a token names one
operator only.
-/

namespace FilterClause

/-- The kinds of operator, by what stands on their right-hand side. -/
inductive Category
  | generic
  | date
  | array
  deriving DecidableEq, Repr

/-- Comparisons of an attribute with a plain value. -/
inductive Comparison
  | eq
  | strictEq
  | ne
  | lt
  | gt
  | le
  | ge
  | like
  | unlike
  deriving DecidableEq, Repr

/-- Comparisons of an attribute with a calendar date. -/
inductive DateComparison
  | eq
  | lt
  | gt
  | le
  | ge
  deriving DecidableEq, Repr

/-- Tests of a list attribute: it has the value, it lacks the value, or one of its elements
contains the value as a substring. -/
inductive Membership
  | has
  | lacks
  | contains
  deriving DecidableEq, Repr

/-- An operator of the filter language. -/
inductive Operator
  | generic (comparison : Comparison)
  | date (comparison : DateComparison)
  | array (test : Membership)
  deriving DecidableEq, Repr

/-! ## Spellings -/

/-- The spelling of a plain comparison in a clause; both equalities have one symbol. -/
def Comparison.symbol : Comparison → String
  | .eq | .strictEq => "=="
  | .ne => "!="
  | .lt => "<"
  | .gt => ">"
  | .le => "<="
  | .ge => ">="
  | .like => "=~"
  | .unlike => "!~"

/-- The comparisons `<`, `>`, `<=` and `>=`, whose plain values stand unquoted. -/
def Comparison.isRelational : Comparison → Bool
  | .lt | .gt | .le | .ge => true
  | .eq | .strictEq | .ne | .like | .unlike => false

/-- The spelling of a date comparison in a clause. -/
def DateComparison.symbol : DateComparison → String
  | .eq => "=="
  | .lt => "<"
  | .gt => ">"
  | .le => "<="
  | .ge => ">="

/-- Every date comparison but equality is relational. -/
def DateComparison.isRelational : DateComparison → Bool
  | .eq => false
  | .lt | .gt | .le | .ge => true

/-- The symbol listed for a list test; the clause itself spells the test out. -/
def Membership.symbol : Membership → String
  | .has => "=="
  | .lacks => "!="
  | .contains => "=~"

namespace Operator

/-- The spelling of an operator in a filter string. -/
def token : Operator → String
  | .generic .eq => "=="
  | .generic .strictEq => "==="
  | .generic .ne => "!="
  | .generic .lt => "<"
  | .generic .gt => ">"
  | .generic .le => "<="
  | .generic .ge => ">="
  | .generic .like => "=~"
  | .generic .unlike => "!~"
  | .date .eq => "$=="
  | .date .lt => "$<"
  | .date .gt => "$>"
  | .date .le => "$<="
  | .date .ge => "$>="
  | .array .has => "@=="
  | .array .lacks => "@!="
  | .array .contains => "@=~"

/-- The spelling of an operator in a clause. -/
def symbol : Operator → String
  | .generic c => c.symbol
  | .date c => c.symbol
  | .array t => t.symbol

/-- The category an operator belongs to. -/
def category : Operator → Category
  | .generic _ => .generic
  | .date _ => .date
  | .array _ => .array

/-- An operator is relational when its symbol is one of `<`, `>`, `<=`, `>=`. -/
def isRelational : Operator → Bool
  | .generic c => c.isRelational
  | .date c => c.isRelational
  | .array _ => false

/-- Every operator, in the order in which they are listed. -/
def all : List Operator :=
  [.generic .eq, .generic .strictEq, .generic .ne, .generic .lt, .generic .gt, .generic .le,
    .generic .ge, .generic .like, .generic .unlike,
    .date .eq, .date .lt, .date .gt, .date .le, .date .ge,
    .array .has, .array .lacks, .array .contains]

/-- The operator with the given token. -/
def ofToken? (token : String) : Option Operator :=
  all.find? fun op => op.token == token

/-! ## The listing is complete, and tokens are unique -/

theorem mem_all (op : Operator) : op ∈ all := by
  rcases op with c | c | t
  · cases c <;> decide
  · cases c <;> decide
  · cases t <;> decide

/-- Symbols are spelled with five characters. -/
theorem notMem_symbol {c : Char} (h : c ∉ ['=', '!', '<', '>', '~']) (op : Operator) :
    c ∉ op.symbol.toList := by
  have hall : op.symbol.toList.all (['=', '!', '<', '>', '~'].contains ·) = true := by
    rcases op with c | c | t
    · cases c <;> decide
    · cases c <;> decide
    · cases t <;> decide
  exact fun hmem => h (List.contains_iff_mem.1 (List.all_eq_true.1 hall c hmem))

@[simp] theorem ofToken?_token (op : Operator) : ofToken? op.token = some op := by
  rcases op with c | c | t
  · cases c <;> decide
  · cases c <;> decide
  · cases t <;> decide

theorem ofToken?_eq_some_iff {token : String} {op : Operator} :
    ofToken? token = some op ↔ op.token = token := by
  constructor
  · intro h
    simpa using List.find?_some h
  · rintro rfl
    exact ofToken?_token op

end Operator

/-- The name of a category as listings show it. -/
def Category.title : Category → String
  | .generic => "Generic"
  | .date => "Date"
  | .array => "Array"

/-- The name of a category as data shows it. -/
def Category.key : Category → String
  | .generic => "generic"
  | .date => "date"
  | .array => "array"

end FilterClause
