/-!
# Supplies of names

A supply hands out names one after the other. It is a sequence of names, which may repeat itself,
with the number of names drawn so far; drawing moves on by one name.
-/

namespace FilterClause

/-- A sequence of names and the number of those already drawn. -/
structure NameSupply where
  name : Nat → String
  drawn : Nat := 0

namespace NameSupply

/-- The name that is drawn next. -/
def head (s : NameSupply) : String :=
  s.name s.drawn

/-- The supply after one draw. -/
def tail (s : NameSupply) : NameSupply :=
  { s with drawn := s.drawn + 1 }

/-- The next names, in the order in which they are drawn. -/
def take (s : NameSupply) (count : Nat) : List String :=
  (List.range count).map fun i => s.name (s.drawn + i)

/-- The names `stem0`, `stem1`, `stem2` and so on. -/
def sequential (stem : String) : NameSupply where
  name n := stem ++ toString n

/-- The stem of sequential names where none is asked for. -/
def defaultStem : String := "tmp"

/-- The names of a list, over and over. -/
def cycle (names : List String) : NameSupply where
  name n := names.getD (n % names.length) ""

/-! ## Names of random letters -/

/-- The letters of random names. -/
def letters : List Char :=
  "abcdefghijklmnopqrstuvwxyzABCDEFGHIJKLMNOPQRSTUVWXYZ".toList

/-- The number of letters of a random name. -/
def randomLength : Nat := 10

/-- A well-mixed word for each word: shifts and multiplications that lose nothing. -/
def mix (word : UInt64) : UInt64 :=
  let word := (word ^^^ (word >>> 30)) * 0xBF58476D1CE4E5B9
  let word := (word ^^^ (word >>> 27)) * 0x94D049BB133111EB
  word ^^^ (word >>> 31)

/-- The letter at a place of the random sequence that a seed starts. -/
def randomLetter (seed : UInt64) (place : Nat) : Char :=
  let word := mix (seed + UInt64.ofNat (place + 1) * 0x9E3779B97F4A7C15)
  letters.getD (word.toNat % letters.length) 'a'

/-- Names of ten letters each, cut from the random sequence that a seed starts. -/
def random (seed : UInt64) : NameSupply where
  name n :=
    String.ofList ((List.range randomLength).map fun i => randomLetter seed (n * randomLength + i))

end NameSupply

end FilterClause
