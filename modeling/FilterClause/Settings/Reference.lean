import FilterClause.Settings.Basic
import FilterClause.Text.Alphanumeric

/-!
# References to the environment

A path may refer to variables of the environment, written `$ENV{NAME}`. A name begins with a
letter, a number or `_`, and goes on with these and `.`.

The references of the path are replaced one after the other, each of them in all places, also in the
values that were put in for earlier ones. A reference to a variable that is not set stays.
-/

namespace FilterClause.Settings

/-- The characters that begin a reference. -/
def referenceOpening : List Char := "$ENV\x7b".toList

/-- The characters that a name begins with. -/
def startsName (c : Char) : Bool :=
  Text.isAlphanumeric c || c = '_'

/-- The characters of a name. -/
def isNameChar (c : Char) : Bool :=
  startsName c || c = '.'

/-- The name of the reference at the head of the characters. -/
def referenceName? (cs : List Char) : Option (List Char) :=
  if referenceOpening.isPrefixOf cs then
    let rest := cs.drop referenceOpening.length
    match rest.takeWhile isNameChar, rest.dropWhile isNameChar with
    | c :: name, '\x7d' :: _ => if startsName c then some (c :: name) else none
    | _, _ => none
  else none

/-- The names that characters refer to, from left to right. -/
def referenceNames : List Char → List (List Char)
  | [] => []
  | c :: rest => (referenceName? (c :: rest)).toList ++ referenceNames rest

/-- Characters with each occurrence of a part replaced; the first `skipped` of them belong to an
occurrence that is replaced already. -/
def replaceFrom (part value : List Char) (skipped : Nat) : List Char → List Char
  | [] => []
  | c :: rest =>
    match skipped with
    | skipped + 1 => replaceFrom part value skipped rest
    | 0 =>
      if part.isPrefixOf (c :: rest) then value ++ replaceFrom part value (part.length - 1) rest
      else c :: replaceFrom part value 0 rest

/-- Characters with the references to one variable replaced by its value, if it is set. -/
def resolveName (env : Environment) (cs name : List Char) : List Char :=
  match env (String.ofList name) with
  | some value => replaceFrom (referenceOpening ++ name ++ ['\x7d']) value.toList 0 cs
  | none => cs

/-- A path with its references replaced. -/
def resolveReferences (env : Environment) (path : String) : String :=
  String.ofList ((referenceNames path.toList).foldl (resolveName env) path.toList)

end FilterClause.Settings
