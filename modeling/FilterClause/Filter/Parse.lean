import FilterClause.Filter.Basic
import FilterClause.Filter.Grammar

/-!
# Reading filter strings

`parse` turns the pieces of a filter string into filters. The first piece whose operator is not a
known one is an error. Otherwise the joiners are settled: every filter but the last is joined to the
next one, with `and` where the string has no combinator, and the last one has no joiner.
-/

namespace FilterClause.Filter

open Log

/-- The filter that a piece of a filter string spells. -/
def ofPiece? (p : Piece) : Except Error Filter :=
  make? (String.ofList p.field) (String.ofList p.operator) (String.ofList p.value) p.joiner

/-- The filters that pieces spell, or the error of the first piece that spells none. -/
def ofPieces? : List Piece → Except Error (List Filter)
  | [] => .ok []
  | p :: ps =>
    match ofPiece? p with
    | .error e => .error e
    | .ok f => (ofPieces? ps).map (f :: ·)

/-- Filters with every one but the last joined to the next, and the last one to nothing. -/
def settleJoiners : List Filter → List Filter
  | [] => []
  | [f] => [{ f with joiner := none }]
  | f :: g :: rest =>
    { f with joiner := some (f.joiner.getD .and) } :: settleJoiners (g :: rest)

/-- The filters of a filter string. -/
def parse (s : String) : Except Error (List Filter) :=
  (ofPieces? (pieces s.toList)).map settleJoiners

/-! ## Records -/

/-- Warnings of the joiners that settling adds. -/
def missingJoinerRecords : List Filter → List Record
  | [] => []
  | [_] => []
  | f :: g :: rest =>
    let later := missingJoinerRecords (g :: rest)
    if f.joiner.isNone then
      .warn ("no combinator after " ++ f.render ++ ", joining with AND") :: later
    else later

/-- A warning of the last joiner, which settling drops. -/
def trailingJoinerRecords (fs : List Filter) : List Record :=
  match fs.getLast? with
  | some f =>
    if f.joiner.isSome then [.warn ("discarding trailing combinator on " ++ f.render)] else []
  | none => []

/-- What `parse` records. -/
def parseRecords (s : String) : List Record :=
  match ofPieces? (pieces s.toList) with
  | .error e => e.warnings
  | .ok fs =>
    missingJoinerRecords fs ++ trailingJoinerRecords fs ++
      [.debug ("parsed " ++ toString fs.length ++ " filter(s)")]

end FilterClause.Filter
