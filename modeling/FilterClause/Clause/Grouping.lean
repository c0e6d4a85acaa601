import FilterClause.Clause.Basic

/-!
# Grouping

A clause binds `AND` tighter than `OR`, while a filter list means its `or` joiners to bind tighter.
So every maximal run of terms joined by `or` is put in parentheses, and a term outside such runs
stays bare. A term without a joiner is joined by `and`, and the joiner of the last term has no
effect.

`group` walks over the terms once and keeps in mind whether a parenthesis is open.
-/

namespace FilterClause

/-- A token of a grouped expression. -/
inductive Token (α : Type)
  | term (condition : α)
  | opening
  | closing
  | joiner (combinator : Combinator)
  deriving DecidableEq, Repr

/-- The spelling of a token. -/
def Token.text : Token String → String
  | .term condition => condition
  | .opening => "("
  | .closing => ")"
  | .joiner c => c.keyword

/-- The combinator that joins a term to a next one. -/
def Term.effectiveJoiner {α : Type} (t : Term α) : Combinator :=
  t.joiner.getD .and

/-- The tokens of terms that follow an open parenthesis, or none. -/
def groupFrom {α : Type} (isOpen : Bool) : List (Term α) → List (Token α)
  | [] => []
  | [t] => .term t.condition :: if isOpen then [.closing] else []
  | t :: next :: rest =>
    match t.effectiveJoiner with
    | .or =>
      (if isOpen then [] else [.opening]) ++
        .term t.condition :: .joiner .or :: groupFrom true (next :: rest)
    | .and =>
      .term t.condition :: ((if isOpen then [.closing] else []) ++
        .joiner .and :: groupFrom false (next :: rest))

/-- The tokens of the grouped expression of terms. -/
def group {α : Type} (terms : List (Term α)) : List (Token α) :=
  groupFrom false terms

/-- The spellings of the tokens of the grouped expression of terms. -/
def groupTexts (terms : List (Term String)) : List String :=
  (group terms).map Token.text

/-- The grouped expression of terms, with single spaces between its tokens. -/
def groupedExpression (terms : List (Term String)) : String :=
  " ".intercalate (groupTexts terms)

end FilterClause
