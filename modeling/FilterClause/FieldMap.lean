import FilterClause.Filter.Basic
import FilterClause.Text.Ordered

/-!
# Field maps

A field map takes the fields of filters to attribute paths. It is a list of pairs in which no field
occurs twice. What an operation does is said by look-up: `get?_insert`, `get?_fillFrom`.
-/

namespace FilterClause

/-- A finite map from fields to attribute paths. -/
structure FieldMap where
  entries : List (String × String)
  nodup : (entries.map Prod.fst).Nodup
  deriving DecidableEq, Repr

namespace FieldMap

/-- The map without fields. -/
def empty : FieldMap := ⟨[], List.nodup_nil⟩

instance : EmptyCollection FieldMap := ⟨empty⟩

instance : Inhabited FieldMap := ⟨empty⟩

/-- The path of a field. -/
def get? (m : FieldMap) (field : String) : Option String :=
  m.entries.lookup field

/-- A map contains the fields that have a path. -/
def contains (m : FieldMap) (field : String) : Bool :=
  (m.get? field).isSome

/-- The number of fields. -/
def size (m : FieldMap) : Nat :=
  m.entries.length

/-- A map is empty when it has no field. -/
def isEmpty (m : FieldMap) : Bool :=
  m.entries.isEmpty

/-- The paths of all fields, one for each. -/
def paths (m : FieldMap) : List String :=
  m.entries.map Prod.snd

/-! ## Adding fields -/

/-- A list of pairs in which the field has the given path. -/
def put (field path : String) : List (String × String) → List (String × String)
  | [] => [(field, path)]
  | (f, p) :: rest => if f = field then (field, path) :: rest else (f, p) :: put field path rest

theorem mem_map_fst_put {field path f : String} {entries : List (String × String)} :
    f ∈ (put field path entries).map Prod.fst ↔ f = field ∨ f ∈ entries.map Prod.fst := by
  induction entries with
  | nil => simp [put]
  | cons e rest ih =>
    unfold put
    split
    · next h =>
      subst h
      simp
    · simp only [List.map_cons, List.mem_cons, ih]
      grind

theorem nodup_put {field path : String} {entries : List (String × String)}
    (h : (entries.map Prod.fst).Nodup) : ((put field path entries).map Prod.fst).Nodup := by
  induction entries with
  | nil => simp [put]
  | cons e rest ih =>
    rw [List.map_cons, List.nodup_cons] at h
    unfold put
    split
    · next he =>
      subst he
      simpa using h
    · next he =>
      rw [List.map_cons, List.nodup_cons, mem_map_fst_put]
      exact ⟨by simp only [he, false_or]; exact h.1, ih h.2⟩

/-- The map in which the field has the given path, whatever it had before. -/
def insert (m : FieldMap) (field path : String) : FieldMap :=
  ⟨put field path m.entries, nodup_put m.nodup⟩

/-- The map of a list of pairs; a later pair replaces an earlier one of the same field. -/
def ofList (pairs : List (String × String)) : FieldMap :=
  pairs.foldl (fun m pair => m.insert pair.1 pair.2) empty

/-- The map with the fields of another one that it lacks. -/
def fillFrom (m other : FieldMap) : FieldMap where
  entries := m.entries ++ other.entries.filter fun e => !m.contains e.1
  nodup := by
    rw [List.map_append, List.nodup_append]
    refine ⟨m.nodup, other.nodup.sublist (List.filter_sublist.map _), ?_⟩
    rintro a ha b hb rfl
    -- a field of both lists would not have passed the filter
    obtain ⟨e, he, rfl⟩ := List.mem_map.1 hb
    have hc := (List.mem_filter.1 he).2
    simp only [contains, get?, Bool.not_eq_eq_eq_not, Bool.not_true, Option.isSome_eq_false_iff,
      Option.isNone_iff_eq_none, List.lookup_eq_none_iff] at hc
    obtain ⟨e', he', hfst⟩ := List.mem_map.1 ha
    have := hc e' he'
    simp [hfst] at this

/-! ## Fields without a path -/

/-- The fields of filters that have no path, once each and in ascending order. -/
def missing (m : FieldMap) (filters : List Filter) : List String :=
  Text.sortedDistinct ((filters.map Filter.field).filter fun f => !m.contains f)

/-! ## Look-up -/

@[simp] theorem get?_empty (field : String) : empty.get? field = none := rfl

private theorem lookup_pair (f k p : String) (rest : List (String × String)) :
    ((k, p) :: rest).lookup f = if f = k then some p else rest.lookup f := by
  by_cases h : f = k
  · simp [h]
  · simp only [List.lookup_cons, beq_false_of_ne h, h, if_false]

theorem lookup_put {field path f : String} {entries : List (String × String)} :
    (put field path entries).lookup f = if f = field then some path else entries.lookup f := by
  induction entries with
  | nil => simp [put]
  | cons e rest ih =>
    obtain ⟨k, p⟩ := e
    by_cases hk : k = field
    · subst hk
      by_cases hf : f = k <;> simp [put, lookup_pair, hf]
    · by_cases hf : f = k
      · simp [put, hk, hf]
      · simp [put, hk, lookup_pair, hf, ih]

theorem get?_insert (m : FieldMap) (field path f : String) :
    (m.insert field path).get? f = if f = field then some path else m.get? f :=
  lookup_put

theorem get?_fillFrom (m other : FieldMap) (f : String) :
    (m.fillFrom other).get? f = (m.get? f).or (other.get? f) := by
  simp only [get?, fillFrom, List.lookup_append]
  cases h : m.entries.lookup f with
  | some p => rfl
  | none =>
    have hm : m.contains f = false := by simp [contains, get?, h]
    simp only [Option.none_or]
    -- a pair of the field itself passes the filter, for the map lacks the field
    induction other.entries with
    | nil => rfl
    | cons e rest ih =>
      obtain ⟨k, p⟩ := e
      by_cases hk : f = k
      · simp [← hk, hm]
      · cases hc : m.contains k <;> simp [hc, lookup_pair, hk, ih]

theorem mem_missing {m : FieldMap} {filters : List Filter} {f : String} :
    f ∈ m.missing filters ↔ (∃ g ∈ filters, g.field = f) ∧ m.get? f = none := by
  simp [missing, Text.mem_sortedDistinct, contains]

theorem missing_eq_nil_iff {m : FieldMap} {filters : List Filter} :
    m.missing filters = [] ↔ ∀ f ∈ filters, (m.get? f.field).isSome := by
  simp only [List.eq_nil_iff_forall_not_mem, mem_missing]
  constructor
  · intro h f hf
    cases hg : m.get? f.field with
    | some p => rfl
    | none => exact absurd ⟨⟨f, hf, rfl⟩, hg⟩ (h _)
  · rintro h f ⟨⟨g, hg, rfl⟩, hn⟩
    have := h g hg
    simp [hn] at this

end FieldMap

end FilterClause
