import FilterClause.FieldMap
import FilterClause.Text.Basic

/-!
# Field maps in JSON

A field map may be given as a JSON object whose members are all strings; a later member replaces an
earlier one of the same name. The whole text has to be one such object; what is wrong with a text that
is not is left out.
-/

namespace FilterClause.Json

/-- The blanks that may stand between the tokens of JSON. -/
def isBlank (c : Char) : Bool :=
  c = ' ' || c = '\t' || c = '\n' || c = '\r'

/-- The first half of a pair of escapes that spells a character beyond the first plane. -/
def isLeading (n : Nat) : Bool :=
  0xD800 ≤ n && n < 0xDC00

/-- The second half of such a pair. -/
def isTrailing (n : Nat) : Bool :=
  0xDC00 ≤ n && n < 0xE000

/-- The character that a leading and a trailing half spell together. -/
def joinHalves? (leading trailing : Nat) : Option Char :=
  if isLeading leading && isTrailing trailing then
    Text.scalar? (0x10000 + (leading - 0xD800) * 0x400 + (trailing - 0xDC00))
  else none

/-- The characters of a string and what follows it, from after its opening quote. A backslash
starts an escape, and control characters must be escaped. -/
def takeString? : List Char → Option (List Char × List Char)
  | [] => none
  | '"' :: rest => some ([], rest)
  | '\\' :: 'u' :: a :: b :: c :: d :: rest =>
    match Text.hexNumber? [a, b, c, d] with
    | none => none
    | some n =>
      if isLeading n then
        match rest with
        | '\\' :: 'u' :: e :: f :: g :: h :: rest => do
          let ch ← joinHalves? n (← Text.hexNumber? [e, f, g, h])
          let (cs, after) ← takeString? rest
          return (ch :: cs, after)
        | _ => none
      else do
        let ch ← Text.scalar? n
        let (cs, after) ← takeString? rest
        return (ch :: cs, after)
  | '\\' :: c :: rest => do
    let ch ← match c with
      | '"' => some '"'
      | '\\' => some '\\'
      | '/' => some '/'
      | 'b' => some '\x08'
      | 'f' => some '\x0c'
      | 'n' => some '\n'
      | 'r' => some '\r'
      | 't' => some '\t'
      | _ => none
    let (cs, after) ← takeString? rest
    return (ch :: cs, after)
  | c :: rest =>
    if c = '\\' ∨ c.toNat < 0x20 then none
    else do
      let (cs, after) ← takeString? rest
      return (c :: cs, after)

/-- A quoted string at the head of the characters, and what follows it. -/
def takeText? : List Char → Option (String × List Char)
  | '"' :: rest => (takeString? rest).map fun (cs, after) => (String.ofList cs, after)
  | _ => none

/-- A member at the head of the characters, and what follows it and the blanks after it. -/
def takeMember? (cs : List Char) : Option ((String × String) × List Char) := do
  let (name, rest) ← takeText? cs
  match rest.dropWhile isBlank with
  | ':' :: rest =>
    let (value, rest) ← takeText? (rest.dropWhile isBlank)
    return ((name, value), rest.dropWhile isBlank)
  | _ => none

/-- The members of an object and what follows it, from its first member on. -/
def takeMembers? (cs : List Char) : Option (List (String × String) × List Char) :=
  match takeMember? cs with
  | none => none
  | some (m, '\x7d' :: after) => some ([m], after)
  | some (m, ',' :: rest) =>
    let next := rest.dropWhile isBlank
    if next.length < cs.length then (takeMembers? next).map fun (ms, after) => (m :: ms, after)
    else none
  | some _ => none
termination_by cs.length

/-- The members of an object at the head of the characters, and what follows it. -/
def takeObject? : List Char → Option (List (String × String) × List Char)
  | '\x7b' :: rest =>
    match rest.dropWhile isBlank with
    | '\x7d' :: after => some ([], after)
    | members => takeMembers? members
  | _ => none

end FilterClause.Json

namespace FilterClause.FieldMap

/-- The field map that a JSON text spells. -/
def ofJson? (s : String) : Except Error FieldMap :=
  match Json.takeObject? (s.toList.dropWhile Json.isBlank) with
  | some (members, after) =>
    if after.all Json.isBlank then .ok (ofList members) else .error (.json "trailing characters")
  | none => .error (.json "expected an object of strings")

end FilterClause.FieldMap
