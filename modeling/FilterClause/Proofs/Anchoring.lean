import FilterClause.Clause.Statement
import Mathlib.Data.List.Basic

/-!
# Relative paths as complete ones

Putting the loop variable in front of every mapped path gives a field map of complete paths, and with
it a qualified compiler does what a relative one does with the map as it was: it gives the same clause
or the same error and draws the same names (`statement_qualified_mapPaths`).

The two compilers do not start alike. The relative one has the loop variable as its only taken name,
the qualified one has the root of every path: the loop variable once for each field, and not at all
when the map has no field. How often a name is taken makes no difference to what is drawn
(`Names.Alike`), and without a field no filter gets as far as drawing one.
-/

namespace FilterClause

/-! ## Field maps with other paths -/

namespace FieldMap

/-- The map in which the path of every field is replaced. -/
def mapPaths (m : FieldMap) (f : String → String) : FieldMap where
  entries := m.entries.map fun e => (e.1, f e.2)
  nodup := by simpa [List.map_map, Function.comp_def] using m.nodup

theorem paths_mapPaths (m : FieldMap) (f : String → String) :
    (m.mapPaths f).paths = m.paths.map f := by
  simp [paths, mapPaths]

theorem get?_mapPaths (m : FieldMap) (f : String → String) (field : String) :
    (m.mapPaths f).get? field = (m.get? field).map f := by
  show (m.entries.map fun e => (e.1, f e.2)).lookup field = (m.entries.lookup field).map f
  induction m.entries with
  | nil => rfl
  | cons e rest ih =>
    rw [List.map_cons, List.lookup_cons, List.lookup_cons, ih]
    cases field == e.1 with
    | true => rfl
    | false => rfl

/-- The same fields are missing. -/
theorem missing_mapPaths (m : FieldMap) (f : String → String) (filters : List Filter) :
    (m.mapPaths f).missing filters = m.missing filters := by
  have hcontains : (m.mapPaths f).contains = m.contains := by
    funext field
    rw [contains, contains, get?_mapPaths, Option.isSome_map]
  rw [missing, missing, hcontains]

end FieldMap

/-! ## Paths that start from a loop variable -/

/-- A variable without dots and brackets is the root of every path it is put in front of. -/
theorem pathRoot_append {loopVar : String} (hroot : ∀ c ∈ loopVar.toList, isRootChar c = true)
    (mapped : String) : pathRoot (loopVar ++ "." ++ mapped) = loopVar := by
  have hchars : (loopVar ++ "." ++ mapped).toList = loopVar.toList ++ '.' :: mapped.toList := by simp
  have hdot : isRootChar '.' = false := rfl
  rw [pathRoot, hchars, List.takeWhile_append_of_pos hroot, List.takeWhile_cons, hdot,
    if_neg Bool.false_ne_true, List.append_nil, String.ofList_toList]

theorem isRootChar_of_notMem {loopVar : String} (hdot : '.' ∉ loopVar.toList)
    (hbracket : '[' ∉ loopVar.toList) : ∀ c ∈ loopVar.toList, isRootChar c = true := by
  intro c hc
  have hne : c ≠ '.' ∧ c ≠ '[' := ⟨fun h => hdot (h ▸ hc), fun h => hbracket (h ▸ hc)⟩
  simp [isRootChar, hne]

/-- Filters get the same paths, and the same fields are missed. -/
theorem locate_mapPaths (fields : FieldMap) (loopVar : String) (filters : List Filter) :
    Anchor.qualified.locate (fields.mapPaths fun path => loopVar ++ "." ++ path) filters =
      (Anchor.relative loopVar).locate fields filters := by
  simp only [Anchor.locate, FieldMap.missing_mapPaths, FieldMap.get?_mapPaths, Option.map_map]
  rfl

/-! ## Names that are taken more than once -/

namespace Names

/-- The next names are the same, and the same names are taken, however often. -/
structure Alike (names names' : Names) : Prop where
  supply : names.supply = names'.supply
  mem_taken : ∀ name, name ∈ names.taken ↔ name ∈ names'.taken

variable {names names' : Names}

theorem Alike.draw (h : names.Alike names') (draws : ℕ) :
    (names.draw draws).1 = (names'.draw draws).1 ∧
      (names.draw draws).2.Alike (names'.draw draws).2 := by
  induction draws generalizing names names' with
  | zero => exact ⟨rfl, h⟩
  | succ draws ih =>
    simp only [Names.draw, h.supply, h.mem_taken]
    by_cases hmem : names'.supply.head ∈ names'.taken
    · rw [if_pos hmem, if_pos hmem]
      exact ih ⟨rfl, h.mem_taken⟩
    · rw [if_neg hmem, if_neg hmem]
      refine ⟨rfl, rfl, fun name => ?_⟩
      rw [List.mem_cons, List.mem_cons, h.mem_taken]

/-- A filter becomes the same, and leaves alike names alike. -/
theorem Alike.compile (h : names.Alike names') (l : Located) :
    (l.compile names).1 = (l.compile names').1 ∧
      (l.compile names).2.Alike (l.compile names').2 := by
  obtain ⟨hdrawn, hlater⟩ := h.draw maxDraws
  cases hop : l.filter.operator with
  | generic c =>
    simp only [Located.compile, hop]
    exact ⟨trivial, h⟩
  | date c =>
    simp only [Located.compile, hop]
    exact ⟨trivial, h⟩
  | array test =>
    simp only [Located.compile, hop, fresh?]
    cases hdraw : names.draw maxDraws with
    | mk drawn later =>
      cases hdraw' : names'.draw maxDraws with
      | mk drawn' later' =>
        rw [hdraw, hdraw'] at hdrawn hlater
        obtain rfl : drawn = drawn' := hdrawn
        cases drawn with
        | none => exact ⟨rfl, hlater⟩
        | some name => exact ⟨rfl, hlater⟩

theorem Alike.compileAll (h : names.Alike names') (ls : List Located) :
    (compileAll ls names).1 = (compileAll ls names').1 ∧
      (compileAll ls names).2.Alike (compileAll ls names').2 := by
  induction ls generalizing names names' with
  | nil => exact ⟨rfl, h⟩
  | cons l ls ih =>
    obtain ⟨hresult, hlater⟩ := h.compile l
    simp only [FilterClause.compileAll]
    cases hc : l.compile names with
    | mk result later =>
      cases hc' : l.compile names' with
      | mk result' later' =>
        rw [hc, hc'] at hresult hlater
        obtain rfl : result = result' := hresult
        cases result with
        | error e => exact ⟨rfl, hlater⟩
        | ok c =>
          obtain ⟨hrest, hfinal⟩ := ih hlater
          exact ⟨congrArg (Except.map (c :: ·)) hrest, hfinal⟩

end Names

/-! ## The two ways to compile -/

/-- Only mapped filters are located. -/
theorem located_eq_nil_of_paths {anchor : Anchor} {fields : FieldMap} {filters : List Filter}
    {located : List Located} (hpaths : fields.paths = [])
    (h : anchor.locate fields filters = .ok located) : located = [] := by
  have hnone : ∀ field, fields.get? field = none := by
    intro field
    rw [FieldMap.get?, List.map_eq_nil_iff.1 hpaths, List.lookup_nil]
  rw [Anchor.locate] at h
  split at h
  · rw [Except.ok.injEq] at h
    rw [← h]
    simp [hnone]
  · cases h

theorem alike_mapPaths {fields : FieldMap} {loopVar : String} (supply : NameSupply)
    (hroot : ∀ c ∈ loopVar.toList, isRootChar c = true) (hpaths : fields.paths ≠ []) :
    Names.Alike
      ⟨supply, Anchor.qualified.reserved (fields.mapPaths fun path => loopVar ++ "." ++ path)⟩
      ⟨supply, (Anchor.relative loopVar).reserved fields⟩ := by
  refine ⟨rfl, fun name => ?_⟩
  simp only [Anchor.reserved, FieldMap.paths_mapPaths, List.map_map, Function.comp_def,
    pathRoot_append hroot, List.map_const', List.mem_replicate, List.mem_singleton]
  simp [hpaths]

/-- Both compilers come to the same result, and leave the supply alike. -/
theorem compile_qualified_mapPaths (fields : FieldMap) {loopVar : String} (filters : List Filter)
    (supply : NameSupply) (hroot : ∀ c ∈ loopVar.toList, isRootChar c = true) :
    let qualified := Compiler.new (fields.mapPaths fun path => loopVar ++ "." ++ path) .qualified supply
    let relative := Compiler.new fields (.relative loopVar) supply
    (qualified.compile filters).1 = (relative.compile filters).1 ∧
      (qualified.compile filters).2.names.supply = (relative.compile filters).2.names.supply := by
  intro qualified relative
  simp only [qualified, relative, Compiler.compile, Compiler.new, locate_mapPaths]
  cases hlocated : (Anchor.relative loopVar).locate fields filters with
  | error e => exact ⟨rfl, rfl⟩
  | ok located =>
    by_cases hpaths : fields.paths = []
    · obtain rfl := located_eq_nil_of_paths hpaths hlocated
      exact ⟨rfl, rfl⟩
    · obtain ⟨hresult, hlater⟩ := (alike_mapPaths supply hroot hpaths).compileAll located
      exact ⟨congrArg (Except.map Clause.ofCompiled) hresult, hlater.supply⟩

/-- With the loop variable in front of every mapped path the qualified statement is the relative one:
it gives the same clause or the same error, and leaves the supply in the same state. -/
theorem statement_qualified_mapPaths (fields : FieldMap) {loopVar : String} (filters : List Filter)
    (supply : NameSupply) (hdot : '.' ∉ loopVar.toList) (hbracket : '[' ∉ loopVar.toList) :
    statement (fields.mapPaths fun path => loopVar ++ "." ++ path) .qualified filters supply =
      statement fields (.relative loopVar) filters supply := by
  obtain ⟨hresult, hsupply⟩ := compile_qualified_mapPaths fields filters supply
    (isRootChar_of_notMem hdot hbracket)
  exact Prod.ext (congrArg (Except.map Clause.text) hresult) hsupply

/-- Beside a loop variable that is a numbered name both modes pass over it, the qualified one though it
has that name twice among its roots. -/
theorem statement_qualified_mapPaths_numbered :
    let fields := FieldMap.ofList [("tag", "tags"), ("mail", "person.mails")]
    let complete := FieldMap.ofList [("tag", "tmp0.tags"), ("mail", "tmp0.person.mails")]
    let filters : List Filter := [⟨"tag", .array .has, "red", some .or⟩,
      ⟨"mail", .array .lacks, "a@b.c", none⟩]
    '.' ∉ "tmp0".toList ∧ '[' ∉ "tmp0".toList ∧
      statement complete .qualified filters (.sequential "tmp") =
        statement fields (.relative "tmp0") filters (.sequential "tmp") ∧
      (statement complete .qualified filters (.sequential "tmp")).1 =
        .ok ("LET tmp2 = (\n    FILTER 'a@b.c' NOT IN tmp0.person.mails[*]\n    RETURN 1\n)\n" ++
          "LET tmp1 = (\n    FILTER 'red' IN tmp0.tags[*]\n    RETURN 1\n)\n" ++
          "FILTER ( LENGTH(tmp1) > 0 OR LENGTH(tmp2) > 0 )") ∧
      (statement complete .qualified filters (.sequential "tmp")).2.drawn = 3 := by
  intro fields complete filters
  have hcomplete : complete = fields.mapPaths fun path => "tmp0" ++ "." ++ path := by decide +kernel
  refine ⟨by decide, by decide, ?_, by decide +kernel, by decide +kernel⟩
  rw [hcomplete]
  exact statement_qualified_mapPaths fields filters _ (by decide) (by decide)

end FilterClause
