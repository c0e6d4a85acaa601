import FilterClause.Toml.Node
import FilterClause.Toml.Scalar
import FilterClause.Toml.Text

/-!
# TOML documents

A document is a list of expressions, each on a line of its own: headers, which open a table, and
definitions of keys in the table opened last. The first expression that is malformed, or defines
what is defined already, spoils the document; `read` then gives the number of its line.

Arrays and inline tables may nest only to some depth, which is what makes the readers end.
-/

namespace FilterClause.Toml

/-! ## Blanks, line ends and comments -/

/-- Characters without the blanks, line ends and comments at their head; `inComment` says that a
comment has begun. -/
def dropTrivia? (inComment : Bool) : List Char → Option (List Char)
  | [] => some []
  | '\n' :: rest => dropTrivia? false rest
  | '\r' :: '\n' :: rest => dropTrivia? false rest
  | c :: rest =>
    if inComment then
      if isControl c then none else dropTrivia? true rest
    else if c = '#' then dropTrivia? true rest
    else if isBlank c then dropTrivia? false rest
    else some (c :: rest)

/-- What follows the line end at the head of the characters, perhaps after a comment; the end of the
text ends a line, too. Lines without an expression are passed over. -/
def endLine? (cs : List Char) : Option (List Char) :=
  match cs.dropWhile isBlank with
  | [] => some []
  | '\n' :: rest => dropTrivia? false rest
  | '\r' :: '\n' :: rest => dropTrivia? false rest
  | '#' :: rest => dropTrivia? true rest
  | _ => none

/-! ## Values -/

/-- Arrays and inline tables may be nested this deep. -/
def maxDepth : Nat := 80

mutual

/-- A value at the head of the characters and what follows it. Every step of reading a value uses up
one unit of `fuel`, and `depth` says how deep brackets may still be nested. -/
def takeValue? (fuel depth : Nat) (cs : List Char) : Option (Node × List Char) :=
  match fuel, depth, cs with
  | 0, _, _ => none
  | _, 0, '[' :: _ => none
  | _, 0, '\x7b' :: _ => none
  | fuel + 1, depth + 1, '[' :: rest =>
    (dropItems? fuel depth rest).map fun after => (.other, after)
  | fuel + 1, depth + 1, '\x7b' :: rest =>
    (takeMembers? fuel depth [] rest).map fun (entries, after) => (.table .inline entries, after)
  | _, _, cs =>
    match takeText? cs with
    | some (text, after) => some (.text (String.ofList text), after)
    | none => takeScalar? cs

/-- What follows the items of an array and its closing bracket. A comma may stand after the last
item. -/
def dropItems? (fuel depth : Nat) (cs : List Char) : Option (List Char) :=
  match fuel with
  | 0 => none
  | fuel + 1 => do
    let cs ← dropTrivia? false cs
    match cs with
    | ']' :: after => return after
    | _ =>
      let (_, after) ← takeValue? fuel depth cs
      match ← dropTrivia? false after with
      | ',' :: rest => dropItems? fuel depth rest
      | ']' :: after => return after
      | _ => none

/-- The entries of an inline table, those given and the ones that follow, and what follows its
closing brace. Line ends and comments may stand between all its tokens but inside a key, and a comma
may stand after the last entry. -/
def takeMembers? (fuel depth : Nat) (entries : Entries) (cs : List Char) :
    Option (Entries × List Char) :=
  match fuel with
  | 0 => none
  | fuel + 1 => do
    let cs ← dropTrivia? false cs
    match cs with
    | '\x7d' :: after => return (entries, after)
    | _ =>
      let (keys, rest) ← takeKeys? cs
      match ← dropTrivia? false rest with
      | '=' :: rest =>
        let (node, after) ← takeValue? fuel depth (← dropTrivia? false rest)
        let entries ← entries.define? node keys
        match ← dropTrivia? false after with
        | ',' :: rest => takeMembers? fuel depth entries rest
        | '\x7d' :: after => return (entries, after)
        | _ => none
      | _ => none

end

/-! ## Documents -/

/-- The entries defined so far, and the path of the table that the last header opened. -/
structure State where
  entries : Entries
  path : List String

/-- The state after the expression at the head of the characters, and what follows its line. -/
def State.step? (s : State) (cs : List Char) : Option (State × List Char) :=
  match cs with
  | '[' :: '[' :: rest => do
    match ← takeKeys? (rest.dropWhile isBlank) with
    | (path, ']' :: ']' :: after) =>
      return (⟨← s.entries.pushTable? path, path⟩, ← endLine? after)
    | _ => none
  | '[' :: rest => do
    match ← takeKeys? (rest.dropWhile isBlank) with
    | (path, ']' :: after) => return (⟨← s.entries.openTable? path, path⟩, ← endLine? after)
    | _ => none
  | _ => do
    match ← takeKeys? cs with
    | (keys, '=' :: rest) =>
      let (node, after) ← takeValue? (2 * cs.length) maxDepth (rest.dropWhile isBlank)
      return (⟨← s.entries.defineIn? s.path keys node, s.path⟩, ← endLine? after)
    | _ => none

/-- The entries after all expressions of the characters, or the characters from the first bad
expression on. -/
def State.run (s : State) (cs : List Char) : Except (List Char) Entries :=
  match cs with
  | [] => .ok s.entries
  | c :: rest =>
    match s.step? (c :: rest) with
    | none => .error (c :: rest)
    | some (s, after) =>
      if after.length ≤ rest.length then s.run after else .error (c :: rest)
termination_by cs.length
decreasing_by
  simp only [List.length_cons]
  omega

/-- Characters without a byte order mark at their head. -/
def dropMark : List Char → List Char
  | '\ufeff' :: rest => rest
  | cs => cs

/-- The entries of a document, or the number of the line that spoils it. -/
def read (s : String) : Except Nat Entries :=
  let cs := dropMark s.toList
  let result : Except (List Char) Entries := match dropTrivia? false cs with
    | none => .error cs
    | some cs => State.run ⟨[], []⟩ cs
  match result with
  | .ok entries => .ok entries
  | .error bad => .error (cs.count '\n' - bad.count '\n' + 1)

end FilterClause.Toml
