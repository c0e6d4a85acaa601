import FilterClause.Settings.Basic
import FilterClause.Toml.Document

/-!
# Settings in TOML

A settings document may define `doc_var`, `vert_var`, `collection`, `log_level` and `log_dir`, all
of them texts, and a table `fields` of texts. Other keys are passed over. A date or time counts as a
table of one text, its spelling, under a key of its own (`momentKey`).
-/

namespace FilterClause.Settings

open Toml

/-- The text that a key stands for, if it is defined. -/
def text? (entries : Entries) (key : String) : Except Error (Option String) :=
  match entries.lookup key with
  | none => .ok none
  | some (.text value) => .ok (some value)
  | some _ => .error (.config (.wrongKind key))

/-- The pairs of a table that holds only texts. -/
def textPairs? : Entries → Option (List (String × String))
  | [] => some []
  | (key, .text value) :: rest => (textPairs? rest).map ((key, value) :: ·)
  | _ => none

/-- The key under which a date or time, taken as a table, holds its spelling. -/
def momentKey : String := "$__toml_private_datetime"

/-- The table of fields, if it is defined. -/
def fields? (entries : Entries) : Except Error FieldMap :=
  match entries.lookup "fields" with
  | none => .ok .empty
  | some (.table _ sub) =>
    match textPairs? sub with
    | some pairs => .ok (.ofList pairs)
    | none => .error (.config (.wrongKind "fields"))
  | some (.moment moment) => .ok (.ofList [(momentKey, moment.text)])
  | some _ => .error (.config (.wrongKind "fields"))

/-- The settings that a document defines. -/
def ofEntries? (entries : Entries) : Except Error Settings := do
  return {
    document := ← text? entries "doc_var"
    vertex := ← text? entries "vert_var"
    collection := ← text? entries "collection"
    logLevel := ← text? entries "log_level"
    logDirectory := ← text? entries "log_dir"
    fields := ← fields? entries }

/-- The settings that a text spells. -/
def ofToml? (s : String) : Except Error Settings :=
  match Toml.read s with
  | .error line => .error (.config (.malformed line))
  | .ok entries => ofEntries? entries

end FilterClause.Settings
