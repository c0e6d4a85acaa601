import FilterClause.Command.Basic
import FilterClause.Proofs.Anchoring
import FilterClause.Proofs.AttributePath

/-!
# Requests that come to the same

Field maps are alike when they give each field the same path, in whichever order they list the fields
(`FieldMap.Alike`). Nothing that is done with a map tells alike ones apart: the same fields are missed
and the same paths found, and the same names are taken, so a compiler makes the same clause or stops
with the same error (`FieldMap.Alike.compile_eq`). So requests with alike maps come to the same
(`CompileRequest.Alike.compile_eq`).
-/

namespace FilterClause

/-! ## Field maps -/

namespace FieldMap

/-- Every field has the same path, or none. -/
def Alike (m m' : FieldMap) : Prop :=
  ∀ field, m.get? field = m'.get? field

/-- In a list in which no field occurs twice, every pair is found by its field. -/
theorem lookup_of_mem {entries : List (String × String)} (hnodup : (entries.map Prod.fst).Nodup)
    {e : String × String} (he : e ∈ entries) : entries.lookup e.1 = some e.2 := by
  induction entries with
  | nil => cases he
  | cons e' rest ih =>
    rw [List.map_cons, List.nodup_cons] at hnodup
    rcases List.mem_cons.1 he with rfl | he
    · exact List.lookup_cons_self
    · have hne : e.1 ≠ e'.1 := fun h => hnodup.1 (h ▸ List.mem_map_of_mem he)
      rw [List.lookup_cons, beq_false_of_ne hne]
      exact ih hnodup.2 he

theorem mem_paths_iff {m : FieldMap} {path : String} :
    path ∈ m.paths ↔ ∃ field, m.get? field = some path := by
  constructor
  · intro h
    obtain ⟨e, he, rfl⟩ := List.mem_map.1 h
    exact ⟨e.1, lookup_of_mem m.nodup he⟩
  · rintro ⟨field, hfield⟩
    exact mem_paths_of_get? hfield

variable {m m' : FieldMap}

theorem Alike.missing_eq (h : m.Alike m') (filters : List Filter) :
    m.missing filters = m'.missing filters := by
  have hcontains : m.contains = m'.contains := by
    funext field
    rw [contains, contains, h field]
  rw [missing, missing, hcontains]

theorem Alike.locate_eq (h : m.Alike m') (anchor : Anchor) (filters : List Filter) :
    anchor.locate m filters = anchor.locate m' filters := by
  simp only [Anchor.locate, h.missing_eq, h _]

theorem Alike.commonRoot_eq (h : m.Alike m') (filters : List Filter) :
    commonRoot m filters = commonRoot m' filters := by
  simp only [commonRoot, h.missing_eq, usedRoots, h _]

/-- The same names are reserved, though in another order. -/
theorem Alike.names_alike (h : m.Alike m') (anchor : Anchor) (supply : NameSupply) :
    Names.Alike ⟨supply, anchor.reserved m⟩ ⟨supply, anchor.reserved m'⟩ := by
  refine ⟨rfl, fun name => ?_⟩
  cases anchor with
  | relative loopVar => exact Iff.rfl
  | qualified => simp only [Anchor.reserved, List.mem_map, mem_paths_iff, h _]

/-- New compilers with alike maps come to the same result. -/
theorem Alike.compile_eq (h : m.Alike m') (anchor : Anchor) (supply : NameSupply)
    (filters : List Filter) :
    ((Compiler.new m anchor supply).compile filters).1 =
      ((Compiler.new m' anchor supply).compile filters).1 := by
  simp only [Compiler.compile, Compiler.new, h.locate_eq]
  cases anchor.locate m' filters with
  | error e => rfl
  | ok located =>
    exact congrArg (Except.map Clause.ofCompiled) ((h.names_alike anchor supply).compileAll located).1

end FieldMap

/-! ## Requests -/

/-- The requests differ at most in the order of their fields. -/
structure CompileRequest.Alike (r r' : CompileRequest) : Prop where
  filter : r.filter = r'.filter
  fields : r.fields.Alike r'.fields
  document : r.document = r'.document
  vertex : r.vertex = r'.vertex
  qualified : r.qualified = r'.qualified
  collection : r.collection = r'.collection
  deterministic : r.deterministic = r'.deterministic

theorem CompileRequest.Alike.compile_eq {r r' : CompileRequest} (h : r.Alike r')
    (random : NameSupply) : r.compile random = r'.compile random := by
  have hanchor : r.anchor = r'.anchor := by
    rw [anchor, anchor, h.document, h.vertex, h.qualified]
  have hsupply : r.supply random = r'.supply random := by rw [supply, supply, h.deterministic]
  have hloop : ∀ filters, r.loop? filters = r'.loop? filters := fun filters => by
    simp only [loop?, hanchor, h.collection, h.fields.commonRoot_eq]
  simp only [compile, compileFilters, statement, h.filter, hanchor, hsupply, hloop,
    h.fields.compile_eq]

end FilterClause
