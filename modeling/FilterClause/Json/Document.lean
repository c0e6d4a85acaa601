import FilterClause.Text.Basic

/-!
# JSON documents

The documents that commands write: an object whose members are texts or null, or an array of such
objects. Members stand in the order given, each on a line of its own, indented by two spaces a
level. Only what JSON cannot hold as it is is escaped.
-/

namespace FilterClause.Json

/-- The members of an object, in order; a member without a text is null. -/
abbrev Row := List (String × Option String)

/-- An object or an array of objects. -/
inductive Document
  | object (row : Row)
  | array (rows : List Row)

/-- The way a character is written inside a JSON string. -/
def escape (c : Char) : List Char :=
  if c = '"' then ['\\', '"']
  else if c = '\\' then ['\\', '\\']
  else if c = '\x08' then ['\\', 'b']
  else if c = '\x0c' then ['\\', 'f']
  else if c = '\n' then ['\\', 'n']
  else if c = '\r' then ['\\', 'r']
  else if c = '\t' then ['\\', 't']
  else if c.toNat < 0x10 then ['\\', 'u', '0', '0', '0'] ++ Text.hexDigits c.toNat
  else if c.toNat < 0x20 then ['\\', 'u', '0', '0'] ++ Text.hexDigits c.toNat
  else [c]

/-- A text as a JSON string. -/
def string (s : String) : String :=
  "\"" ++ String.ofList (s.toList.flatMap escape) ++ "\""

/-- The lines between two brackets, one for each item, at some indentation. -/
def block (opening closing indent : String) (items : List String) : String :=
  match items with
  | [] => opening ++ closing
  | _ =>
    opening ++ "\n" ++ ",\n".intercalate (items.map fun item => indent ++ "  " ++ item) ++
      "\n" ++ indent ++ closing

/-- A member of an object. -/
def member (m : String × Option String) : String :=
  string m.1 ++ ": " ++ (m.2.map string).getD "null"

/-- An object, at some indentation. -/
def object (indent : String) (row : Row) : String :=
  block "\x7b" "\x7d" indent (row.map member)

/-- The text of a document. -/
def Document.text : Document → String
  | .object row => Json.object "" row
  | .array rows => block "[" "]" "" (rows.map (Json.object "  "))

end FilterClause.Json
