/-!
# Combinators

How a filter is joined to the next one: `,` for or, `;` for and. Each combinator has a *marker*, the
character that stands for it in a filter string, and a *keyword*, its spelling in a clause.
-/

namespace FilterClause

/-- The two ways to join a condition to the next one. -/
inductive Combinator
  | or
  | and
  deriving DecidableEq, Repr

namespace Combinator

/-- The character that follows a filter joined in this way. -/
def marker : Combinator → Char
  | .or => ','
  | .and => ';'

/-- The joining word of a clause. -/
def keyword : Combinator → String
  | .or => "OR"
  | .and => "AND"

/-- The combinator that a character stands for. -/
def ofMarker? (c : Char) : Option Combinator :=
  if c = ',' then some .or else if c = ';' then some .and else none

@[simp] theorem ofMarker?_marker (c : Combinator) : ofMarker? c.marker = some c := by
  cases c <;> rfl

theorem ofMarker?_eq_some_iff {ch : Char} {c : Combinator} :
    ofMarker? ch = some c ↔ ch = c.marker := by
  constructor
  · intro h
    unfold ofMarker? at h
    split at h
    · cases h
      assumption
    · split at h
      · cases h
        assumption
      · cases h
  · rintro rfl
    exact ofMarker?_marker c

end Combinator

end FilterClause
