import FilterClause.FieldMap

/-!
# Settings

Defaults that the program takes from files and from its environment. Each of them may be unset.
Settings are merged by filling what is unset (`fillFrom`), so that among several files the first
one that sets something decides it; the environment overrides them all (`override`).
-/

namespace FilterClause

/-- Defaults for compiling and logging. -/
structure Settings where
  document : Option String
  vertex : Option String
  collection : Option String
  logLevel : Option String
  logDirectory : Option String
  fields : FieldMap
  deriving DecidableEq, Repr

namespace Settings

/-- Settings in which nothing is set. -/
def empty : Settings := ⟨none, none, none, none, none, .empty⟩

instance : Inhabited Settings := ⟨empty⟩

/-- Settings with what is unset filled from other ones, field by field in the field map. -/
def fillFrom (s other : Settings) : Settings where
  document := s.document.or other.document
  vertex := s.vertex.or other.vertex
  collection := s.collection.or other.collection
  logLevel := s.logLevel.or other.logLevel
  logDirectory := s.logDirectory.or other.logDirectory
  fields := s.fields.fillFrom other.fields

/-- The text of a variable of the environment, if it is set. -/
abbrev Environment := String → Option String

/-- Settings with those replaced that the environment sets, even to an empty text. -/
def override (s : Settings) (env : Environment) : Settings where
  document := (env "AQLFILTER_DOC_VAR").or s.document
  vertex := (env "AQLFILTER_VERT_VAR").or s.vertex
  collection := (env "AQLFILTER_COLLECTION").or s.collection
  logLevel := (env "AQLFILTER_LOG_LEVEL").or s.logLevel
  logDirectory := (env "AQLFILTER_LOG_DIR").or s.logDirectory
  fields := s.fields

/-- The document variable where none is set. -/
def defaultDocument : String := "doc"

/-- The document variable in effect. -/
def documentVariable (s : Settings) : String :=
  s.document.getD defaultDocument

end Settings

end FilterClause
