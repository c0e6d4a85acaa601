import FilterClause.NameSupply

/-!
# Names in use

A clause must not declare a name twice, nor one that its paths start from. `Names` holds the supply
that names are drawn from and the names taken so far; a draw passes over the taken ones, and gives
up after a fixed number of them.
-/

namespace FilterClause

/-- A supply of names with the names that are taken already, the newest first. -/
structure Names where
  supply : NameSupply
  taken : List String

namespace Names

/-- Draws that are made for one name before giving up. -/
def maxDraws : Nat := 64

/-- The first name that is not taken among the next ones of the supply, which is then taken. Every
draw moves the supply on, also one that finds nothing. -/
def draw : Nat → Names → Option String × Names
  | 0, names => (none, names)
  | draws + 1, names =>
    let name := names.supply.head
    if name ∈ names.taken then draw draws { names with supply := names.supply.tail }
    else (some name, ⟨names.supply.tail, name :: names.taken⟩)

/-- A name that was not taken before. -/
def fresh? (names : Names) : Option String × Names :=
  names.draw maxDraws

/-- The names taken since an earlier state, in the order in which they were taken. -/
def takenSince (earlier later : Names) : List String :=
  (later.taken.take (later.taken.length - earlier.taken.length)).reverse

end Names

end FilterClause
