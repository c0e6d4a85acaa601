import FilterClause.Clause.Basic
import FilterClause.Clause.Names
import FilterClause.FieldMap

/-!
# Compiling filters

A compiler turns filter lists into clauses. It first looks up every field; then it goes through the
filters in order and makes each one a term, and a filter that tests a list also a binding, whose
name is drawn from the compiler's supply. It stops at the first filter that cannot be compiled.

Names stay taken over the whole life of a compiler, also those drawn by a run that failed.
-/

namespace FilterClause

/-! ## Attribute paths -/

/-- Where mapped paths start: they are complete as they are, or start from a loop variable. -/
inductive Anchor
  | qualified
  | relative (loopVar : String)
  deriving DecidableEq, Repr

/-- The attribute path for a mapped path. -/
def Anchor.attach : Anchor → String → String
  | .qualified, mapped => mapped
  | .relative loopVar, mapped => loopVar ++ "." ++ mapped

/-- A root ends where an attribute or an index follows. -/
def isRootChar (c : Char) : Bool :=
  c ≠ '.' && c ≠ '['

/-- The variable that a path starts from. -/
def pathRoot (path : String) : String :=
  String.ofList (path.toList.takeWhile isRootChar)

/-- The names that bindings must not have: those that paths start from. -/
def Anchor.reserved (anchor : Anchor) (fields : FieldMap) : List String :=
  match anchor with
  | .qualified => fields.paths.map pathRoot
  | .relative loopVar => [loopVar]

/-- A filter with the attribute path of its field. -/
structure Located where
  filter : Filter
  path : String
  deriving DecidableEq, Repr

/-- Filters with the attribute paths of their fields; all fields have to be mapped. -/
def Anchor.locate (anchor : Anchor) (fields : FieldMap) (filters : List Filter) :
    Except Error (List Located) :=
  match fields.missing filters with
  | [] =>
    .ok (filters.filterMap fun f =>
      (fields.get? f.field).map fun mapped => ⟨f, anchor.attach mapped⟩)
  | missing => .error (.unmappedFields missing)

/-! ## Filters one by one -/

/-- What becomes of one filter. -/
structure Compiled where
  term : Term Condition
  binding : Option Binding
  deriving DecidableEq, Repr

/-- The term, and the binding if there is one, that a located filter becomes. -/
def Located.compile (l : Located) (names : Names) : Except Error Compiled × Names :=
  let value := l.filter.value
  match l.filter.operator with
  | .generic c =>
    (.ok ⟨⟨.compare l.path c.symbol (c.operand value), l.filter.joiner⟩, none⟩, names)
  | .date c =>
    (match dateOperand value with
      | .ok operand => .ok ⟨⟨.compare l.path c.symbol operand, l.filter.joiner⟩, none⟩
      | .error e => .error e,
    names)
  | .array test =>
    match names.fresh? with
    | (some name, names) =>
      (.ok ⟨⟨.nonempty name, l.filter.joiner⟩, some ⟨name, test, l.path, value⟩⟩, names)
    | (none, names) => (.error (.invalidArgument (.namesExhausted Names.maxDraws)), names)

/-- What becomes of a list of located filters, or the error of the first that fails. -/
def compileAll : List Located → Names → Except Error (List Compiled) × Names
  | [], names => (.ok [], names)
  | l :: ls, names =>
    match l.compile names with
    | (.error e, names) => (.error e, names)
    | (.ok c, names) =>
      let (result, names) := compileAll ls names
      (result.map (c :: ·), names)

/-- The clause that compiled filters make together. -/
def Clause.ofCompiled (cs : List Compiled) : Clause where
  bindings := (cs.filterMap Compiled.binding).reverse
  terms := cs.map Compiled.term

/-! ## Compilers -/

/-- A field map with the anchor of its paths, and the names in use. -/
structure Compiler where
  fields : FieldMap
  anchor : Anchor
  names : Names

namespace Compiler

/-- A compiler that has not compiled anything. -/
def new (fields : FieldMap) (anchor : Anchor) (supply : NameSupply) : Compiler :=
  ⟨fields, anchor, ⟨supply, anchor.reserved fields⟩⟩

/-- The clause of a filter list, and the compiler with the names taken for it. -/
def compile (c : Compiler) (filters : List Filter) : Except Error Clause × Compiler :=
  match c.anchor.locate c.fields filters with
  | .error e => (.error e, c)
  | .ok located =>
    let (result, names) := compileAll located c.names
    (result.map Clause.ofCompiled, { c with names })

/-- What `compile` records: the names it took, then the error it stopped at. -/
def records (c : Compiler) (filters : List Filter) : List Log.Record :=
  let (result, later) := c.compile filters
  (c.names.takenSince later.names).map (fun name => .trace ("binding identifier " ++ name)) ++
    match result with
    | .ok _ => []
    | .error e => e.warnings

end Compiler

end FilterClause
