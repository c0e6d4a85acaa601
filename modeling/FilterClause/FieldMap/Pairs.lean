import FilterClause.FieldMap
import FilterClause.Text.Basic

/-!
# Field maps from written pairs

A pair is written `field=path`. It is divided at its first `=`, blanks around the two sides do not
count, and neither side may be blank.
-/

namespace FilterClause.FieldMap

/-- The characters before and after the first `=`. -/
def splitPair? (s : String) : Option (String × String) :=
  match s.toList.dropWhile (· ≠ '=') with
  | [] => none
  | _ :: rest => some (String.ofList (s.toList.takeWhile (· ≠ '=')), String.ofList rest)

/-- The field and the path of a written pair. -/
def readPair? (s : String) : Except Error (String × String) :=
  match splitPair? s with
  | none => .error (.invalidArgument (.malformedPair s))
  | some (field, path) =>
    if Text.trim field = "" ∨ Text.trim path = "" then
      .error (.invalidArgument (.malformedPair s))
    else .ok (Text.trim field, Text.trim path)

/-- The fields and paths of written pairs, or the error of the first malformed one. -/
def readPairs? : List String → Except Error (List (String × String))
  | [] => .ok []
  | s :: rest =>
    match readPair? s with
    | .error e => .error e
    | .ok pair => (readPairs? rest).map (pair :: ·)

/-- The field map of written pairs; a later pair replaces an earlier one of the same field. -/
def ofPairs? (pairs : List String) : Except Error FieldMap :=
  (readPairs? pairs).map ofList

end FilterClause.FieldMap
