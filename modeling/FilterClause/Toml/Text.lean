import FilterClause.Text.Basic

/-!
# TOML texts and keys

Texts stand between double quotes, with escapes, or between single quotes, without. Tripled quotes
let a text run over several lines: a line end right after the opening quotes does not count, up to
two quotes may stand before the closing ones, and all other line ends are kept as they are. Keys are
bare, or quoted texts of one line, and dotted keys are several of them with dots between.
-/

namespace FilterClause.Toml

/-- The blanks inside a line. -/
def isBlank (c : Char) : Bool :=
  c = ' ' || c = '\t'

/-- The control characters, which may not stand in texts and comments; the tab may. -/
def isControl (c : Char) : Bool :=
  (c.toNat < 0x20 && c ≠ '\t') || c = '\x7f'

/-! ## Texts of one line -/

/-- The character of an escape and what follows it, from after the backslash. -/
def takeEscape? : List Char → Option (Char × List Char)
  | 'x' :: a :: b :: rest => do return (← Text.scalar? (← Text.hexNumber? [a, b]), rest)
  | 'u' :: a :: b :: c :: d :: rest => do
    return (← Text.scalar? (← Text.hexNumber? [a, b, c, d]), rest)
  | 'U' :: a :: b :: c :: d :: e :: f :: g :: h :: rest => do
    return (← Text.scalar? (← Text.hexNumber? [a, b, c, d, e, f, g, h]), rest)
  | 'b' :: rest => some ('\x08', rest)
  | 't' :: rest => some ('\t', rest)
  | 'n' :: rest => some ('\n', rest)
  | 'f' :: rest => some ('\x0c', rest)
  | 'r' :: rest => some ('\r', rest)
  | 'e' :: rest => some ('\x1b', rest)
  | '"' :: rest => some ('"', rest)
  | '\\' :: rest => some ('\\', rest)
  | _ => none

/-- The characters of a text in double quotes and what follows it, from after the opening quote. -/
def takeBasic? (cs : List Char) : Option (List Char × List Char) :=
  match cs with
  | [] => none
  | '"' :: rest => some ([], rest)
  | '\\' :: rest =>
    match takeEscape? rest with
    | none => none
    | some (ch, after) =>
      if after.length < rest.length then
        (takeBasic? after).map fun (text, after) => (ch :: text, after)
      else none
  | c :: rest =>
    if isControl c then none else (takeBasic? rest).map fun (text, after) => (c :: text, after)
termination_by cs.length

/-- The characters of a text in single quotes and what follows it, from after the opening quote. -/
def takeLiteral? : List Char → Option (List Char × List Char)
  | [] => none
  | '\'' :: rest => some ([], rest)
  | c :: rest =>
    if isControl c then none else (takeLiteral? rest).map fun (text, after) => (c :: text, after)

/-! ## Texts of several lines -/

/-- A line end stands at the head of the characters, perhaps after blanks. -/
def leadsToLineEnd (cs : List Char) : Bool :=
  match cs.dropWhile isBlank with
  | '\n' :: _ => true
  | '\r' :: '\n' :: _ => true
  | _ => false

/-- Characters without the blanks and line ends at their head. -/
def dropLineEnds : List Char → List Char
  | '\r' :: '\n' :: rest => dropLineEnds rest
  | c :: rest => if isBlank c || c = '\n' then dropLineEnds rest else c :: rest
  | [] => []

theorem length_dropLineEnds_le (cs : List Char) : (dropLineEnds cs).length ≤ cs.length := by
  fun_induction dropLineEnds cs with
  | case1 rest ih =>
    simp only [List.length_cons]
    omega
  | case2 c rest _ _ ih =>
    simp only [List.length_cons]
    omega
  | case3 => simp
  | case4 => simp

/-- Characters without a line end at their head. -/
def dropFirstLineEnd : List Char → List Char
  | '\n' :: rest => rest
  | '\r' :: '\n' :: rest => rest
  | cs => cs

/-- The characters of a text in three double quotes and what follows it. A backslash before a line
end drops all blanks and line ends up to the next character. -/
def takeLongBasic? (cs : List Char) : Option (List Char × List Char) :=
  match cs with
  | [] => none
  | '"' :: '"' :: '"' :: '"' :: '"' :: rest => some (['"', '"'], rest)
  | '"' :: '"' :: '"' :: '"' :: rest => some (['"'], rest)
  | '"' :: '"' :: '"' :: rest => some ([], rest)
  | '\\' :: rest =>
    if leadsToLineEnd rest then takeLongBasic? (dropLineEnds rest)
    else
      match takeEscape? rest with
      | none => none
      | some (ch, after) =>
        if after.length < rest.length then
          (takeLongBasic? after).map fun (text, after) => (ch :: text, after)
        else none
  | '\r' :: '\n' :: rest =>
    (takeLongBasic? rest).map fun (text, after) => ('\r' :: '\n' :: text, after)
  | c :: rest =>
    if isControl c && c ≠ '\n' then none
    else (takeLongBasic? rest).map fun (text, after) => (c :: text, after)
termination_by cs.length
decreasing_by
  all_goals simp only [List.length_cons]
  · have := length_dropLineEnds_le rest
    omega
  · omega
  · omega
  · omega

/-- The characters of a text in three single quotes and what follows it. -/
def takeLongLiteral? : List Char → Option (List Char × List Char)
  | [] => none
  | '\'' :: '\'' :: '\'' :: '\'' :: '\'' :: rest => some (['\'', '\''], rest)
  | '\'' :: '\'' :: '\'' :: '\'' :: rest => some (['\''], rest)
  | '\'' :: '\'' :: '\'' :: rest => some ([], rest)
  | '\r' :: '\n' :: rest =>
    (takeLongLiteral? rest).map fun (text, after) => ('\r' :: '\n' :: text, after)
  | c :: rest =>
    if isControl c && c ≠ '\n' then none
    else (takeLongLiteral? rest).map fun (text, after) => (c :: text, after)

/-- A quoted text at the head of the characters, and what follows it. -/
def takeText? : List Char → Option (List Char × List Char)
  | '"' :: '"' :: '"' :: rest => takeLongBasic? (dropFirstLineEnd rest)
  | '\'' :: '\'' :: '\'' :: rest => takeLongLiteral? (dropFirstLineEnd rest)
  | '"' :: rest => takeBasic? rest
  | '\'' :: rest => takeLiteral? rest
  | _ => none

/-! ## Keys -/

/-- The characters of bare keys. -/
def isBareKeyChar (c : Char) : Bool :=
  c.isAlphanum || c = '_' || c = '-'

/-- A single key at the head of the characters, and what follows it. -/
def takeKey? (cs : List Char) : Option (List Char × List Char) :=
  match cs with
  | '"' :: rest => takeBasic? rest
  | '\'' :: rest => takeLiteral? rest
  | _ =>
    let key := cs.takeWhile isBareKeyChar
    if key.isEmpty then none else some (key, cs.dropWhile isBareKeyChar)

/-- The parts between dots of a key at the head of the characters, and what follows the key and the
blanks after it. -/
def takeParts? (cs : List Char) : Option (List String × List Char) :=
  match takeKey? cs with
  | none => none
  | some (key, after) =>
    match after.dropWhile isBlank with
    | '.' :: rest =>
      let next := rest.dropWhile isBlank
      if next.length < cs.length then
        (takeParts? next).map fun (keys, after) => (String.ofList key :: keys, after)
      else none
    | after => some ([String.ofList key], after)
termination_by cs.length

/-- A dotted key may have this many parts. -/
def maxParts : Nat := 80

/-- The parts of a key that has not too many of them, and what follows it and the blanks after
it. -/
def takeKeys? (cs : List Char) : Option (List String × List Char) :=
  (takeParts? cs).filter fun (keys, _) => keys.length ≤ maxParts

end FilterClause.Toml
