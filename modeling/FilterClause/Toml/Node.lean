import FilterClause.Toml.Moment

/-!
# TOML tables

What a document holds, as far as settings need it. Texts, dates and times are kept; any other value
that is complete in itself (a number, a boolean, an array) only counts as being there. Of an array
of tables the newest element is kept, for only that one can still grow.

A table may be opened in several ways, and how it was opened decides how it may be extended:

* a header opens it once, unless longer headers have only passed through it before;
* dotted keys extend the tables that dotted keys opened;
* a table written inline is closed.
-/

namespace FilterClause.Toml

/-- How a table was opened. -/
inductive TableKind
  | header
  | implied
  | dotted
  | inline
  deriving DecidableEq, Repr

/-- What a key stands for. -/
inductive Node
  | text (value : String)
  | moment (moment : Moment)
  | other
  | table (kind : TableKind) (entries : List (String × Node))
  | tables (newest : List (String × Node))

/-- The keys of a table with what they stand for, in order of definition. -/
abbrev Entries := List (String × Node)

/-- Entries in which a key stands for a given node. -/
def Entries.put (key : String) (node : Node) : Entries → Entries
  | [] => [(key, node)]
  | (k, n) :: rest => if k = key then (key, node) :: rest else (k, n) :: Entries.put key node rest

/-- Defines a key, which may be dotted. A key is defined once; a dotted key may pass through tables
that other headers imply, but the table it adds to is its own or that of other dotted keys. -/
def Entries.define? (node : Node) : List String → Entries → Option Entries
  | [], _ => none
  | [key], es =>
    match es.lookup key with
    | none => some (es ++ [(key, node)])
    | some _ => none
  | key :: next :: rest, es =>
    match es.lookup key with
    | none =>
      (Entries.define? node (next :: rest) []).map fun sub => es ++ [(key, .table .dotted sub)]
    | some (.table .dotted sub) =>
      (Entries.define? node (next :: rest) sub).map fun sub => es.put key (.table .dotted sub)
    | some (.table .implied sub) =>
      if rest.isEmpty then none
      else (Entries.define? node (next :: rest) sub).map fun sub => es.put key (.table .implied sub)
    | some (.tables newest) =>
      if rest.isEmpty then none
      else (Entries.define? node (next :: rest) newest).map fun sub => es.put key (.tables sub)
    | some _ => none

/-- Goes down the path of a header and changes the entries that hold its last key. Tables on the way
that are missing are implied; tables written inline cannot be entered. -/
def Entries.descend? (change : String → Entries → Option Entries) :
    List String → Entries → Option Entries
  | [], _ => none
  | [key], es => change key es
  | key :: next :: rest, es =>
    match es.lookup key with
    | none =>
      (Entries.descend? change (next :: rest) []).map fun sub => es ++ [(key, .table .implied sub)]
    | some (.table .inline _) => none
    | some (.table kind sub) =>
      (Entries.descend? change (next :: rest) sub).map fun sub => es.put key (.table kind sub)
    | some (.tables newest) =>
      (Entries.descend? change (next :: rest) newest).map fun sub => es.put key (.tables sub)
    | some _ => none

/-- Opens the table that a header names. -/
def Entries.openTable? (path : List String) (es : Entries) : Option Entries :=
  es.descend? (fun key es =>
    match es.lookup key with
    | none => some (es ++ [(key, .table .header [])])
    | some (.table .implied sub) => some (es.put key (.table .header sub))
    | some _ => none) path

/-- Adds a table to the array of tables that a header names. -/
def Entries.pushTable? (path : List String) (es : Entries) : Option Entries :=
  es.descend? (fun key es =>
    match es.lookup key with
    | none => some (es ++ [(key, .tables [])])
    | some (.tables _) => some (es.put key (.tables []))
    | some _ => none) path

/-- Defines a key in the table that the last header opened; an empty path means the whole
document. -/
def Entries.defineIn? (path keys : List String) (node : Node) (es : Entries) : Option Entries :=
  match path with
  | [] => es.define? node keys
  | _ =>
    es.descend? (fun key es =>
      match es.lookup key with
      | some (.table kind sub) =>
        (Entries.define? node keys sub).map fun sub => es.put key (.table kind sub)
      | some (.tables newest) =>
        (Entries.define? node keys newest).map fun sub => es.put key (.tables sub)
      | _ => none) path

end FilterClause.Toml
