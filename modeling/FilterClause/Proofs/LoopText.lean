import FilterClause.Proofs.AttributePath
import FilterClause.Proofs.BoundNames
import FilterClause.Proofs.ClauseText
import FilterClause.Proofs.CommandOutput
import Mathlib.Data.List.Perm.Basic

/-!
# The query around a clause

A request with a collection prints a query that loops over it. The loop variable is chosen before the
clause is compiled and by other code, so the two have to fit: all paths of the clause start from the
loop variable, and no binding has its name (`Clause.LoopsOver`). For relative paths the variable is the
one that is put in front of them. For complete paths it is the root that all paths in use share
(`commonRoot_eq_ok_iff`), and the names of bindings avoid the roots of all paths that there are.

The clause is taken apart into lines to be indented. It is made of its lines, so the query has them
unchanged behind four spaces each (`Loop.lines_around`), between the line of the `FOR` and that of the
`RETURN`.
-/

namespace FilterClause

open FilterClause.Filter

/-! ## Variables that paths start from -/

/-- The path is the variable alone, or goes on from it with an attribute or an index. -/
def StartsFrom (v path : String) : Prop :=
  path = v ∨ ∃ rest, path = v ++ "." ++ rest ∨ path = v ++ "[" ++ rest

/-- A path starts from its root. -/
theorem startsFrom_pathRoot (path : String) : StartsFrom (pathRoot path) path := by
  have hsplit : path.toList = (pathRoot path).toList ++ path.toList.dropWhile isRootChar := by
    rw [pathRoot, String.toList_ofList, List.takeWhile_append_dropWhile]
  cases hrest : path.toList.dropWhile isRootChar with
  | nil =>
    rw [hrest, List.append_nil] at hsplit
    exact .inl (String.toList_inj.1 hsplit)
  | cons c rest =>
    -- the root ends at a dot or a bracket
    have hc : isRootChar c = false := eq_false_of_mem_head?_dropWhile (by rw [hrest]; rfl)
    have hor : c = '.' ∨ c = '[' := by
      by_contra hne
      rw [not_or] at hne
      simp [isRootChar, hne] at hc
    rw [hrest] at hsplit
    refine .inr ⟨String.ofList rest, ?_⟩
    rcases hor with rfl | rfl
    · exact .inl (String.toList_inj.1 (by simpa using hsplit))
    · exact .inr (String.toList_inj.1 (by simpa using hsplit))

/-- All filters have a path, and these paths start from one variable, which has a name. -/
structure SharesRoot (fields : FieldMap) (filters : List Filter) (root : String) : Prop where
  nonempty : filters ≠ []
  named : root ≠ ""
  paths : ∀ f ∈ filters, ∃ mapped, fields.get? f.field = some mapped ∧ pathRoot mapped = root

theorem isSome_of_sharesRoot {fields : FieldMap} {filters : List Filter} {root : String}
    (h : SharesRoot fields filters root) : ∀ f ∈ filters, (fields.get? f.field).isSome := by
  intro f hf
  obtain ⟨mapped, hmapped, -⟩ := h.paths f hf
  rw [hmapped]
  rfl

/-- Where all fields have a path, the filters share a root exactly when it is the only one in use. -/
theorem sharesRoot_iff {fields : FieldMap} {filters : List Filter} {root : String}
    (hmapped : ∀ f ∈ filters, (fields.get? f.field).isSome) :
    SharesRoot fields filters root ↔ usedRoots fields filters = [root] ∧ root ≠ "" := by
  rw [usedRoots, Text.sortedDistinct_eq_singleton_iff, Ne, List.map_eq_nil_iff]
  constructor
  · rintro ⟨hne, hnamed, hpaths⟩
    refine ⟨⟨fun hnil => ?_, fun y hy => ?_⟩, hnamed⟩
    · obtain ⟨f, hf⟩ := List.exists_mem_of_ne_nil filters hne
      obtain ⟨mapped, hget, -⟩ := hpaths f hf
      exact List.not_mem_nil (hnil ▸ List.mem_filterMap.2 ⟨f, hf, hget⟩)
    · obtain ⟨path, hpath, rfl⟩ := List.mem_map.1 hy
      obtain ⟨f, hf, hget⟩ := List.mem_filterMap.1 hpath
      obtain ⟨mapped, hget', hroot⟩ := hpaths f hf
      rw [hget, Option.some.injEq] at hget'
      rw [hget', hroot]
  · rintro ⟨⟨hne, hroots⟩, hnamed⟩
    refine ⟨fun hnil => hne (by rw [hnil, List.filterMap_nil]), hnamed, fun f hf => ?_⟩
    obtain ⟨mapped, hget⟩ := Option.isSome_iff_exists.1 (hmapped f hf)
    exact ⟨mapped, hget, hroots _ (List.mem_map_of_mem (List.mem_filterMap.2 ⟨f, hf, hget⟩))⟩

/-- Where all fields have a path, looking for the common root finds the shared one or reports all that
are in use. -/
theorem commonRoot_cases {fields : FieldMap} {filters : List Filter}
    (hmapped : ∀ f ∈ filters, (fields.get? f.field).isSome) :
    (∃ root, SharesRoot fields filters root ∧ commonRoot fields filters = .ok root) ∨
      (¬ ∃ root, SharesRoot fields filters root) ∧ commonRoot fields filters =
        .error (.invalidArgument (.noCommonRoot (usedRoots fields filters))) := by
  simp only [sharesRoot_iff hmapped, commonRoot, FieldMap.missing_eq_nil_iff.2 hmapped]
  match usedRoots fields filters with
  | [] => exact .inr ⟨by simp, rfl⟩
  | [root] =>
    by_cases hnamed : root = ""
    · exact .inr ⟨by simp [hnamed], by simp only [if_pos hnamed]⟩
    · exact .inl ⟨root, ⟨rfl, hnamed⟩, by simp only [if_neg hnamed]⟩
  | root :: root' :: rest => exact .inr ⟨by simp, rfl⟩

/-- There is a common root exactly when the filters share it. -/
theorem commonRoot_eq_ok_iff {fields : FieldMap} {filters : List Filter} {root : String} :
    commonRoot fields filters = .ok root ↔ SharesRoot fields filters root := by
  by_cases hmapped : ∀ f ∈ filters, (fields.get? f.field).isSome
  · rcases commonRoot_cases hmapped with ⟨shared, hshared, hok⟩ | ⟨hnone, herror⟩
    · rw [hok, Except.ok.injEq]
      constructor
      · rintro rfl
        exact hshared
      · intro h
        have hone := ((sharesRoot_iff hmapped).1 hshared).1
        rw [((sharesRoot_iff hmapped).1 h).1, List.cons.injEq] at hone
        exact hone.1.symm
    · rw [herror]
      exact ⟨fun h => (nomatch h), fun h => absurd ⟨root, h⟩ hnone⟩
  · refine ⟨fun h => absurd ?_ hmapped, fun h => absurd (isSome_of_sharesRoot h) hmapped⟩
    -- a missing field is an error of its own
    rw [commonRoot] at h
    split at h
    · next hmissing => exact FieldMap.missing_eq_nil_iff.1 hmissing
    · cases h

/-! ## Clauses within a loop -/

/-- The path of a comparison. -/
def Condition.path? : Condition → Option String
  | .compare path _ _ => some path
  | .nonempty _ => none

/-- The paths that bindings and comparisons follow. -/
def Clause.paths (c : Clause) : List String :=
  c.bindings.map Binding.path ++ c.terms.filterMap fun t => t.condition.path?

/-- The path of a compiled filter, in its binding or in its comparison. -/
def Compiled.paths (c : Compiled) : List String :=
  (c.binding.map Binding.path).toList ++ c.term.condition.path?.toList

theorem Compiles.paths_eq {anchor : Anchor} {fields : FieldMap} {f : Filter} {c : Compiled}
    (h : Compiles anchor fields f c) :
    ∃ mapped, fields.get? f.field = some mapped ∧ c.paths = [anchor.attach mapped] := by
  obtain ⟨l, ⟨rfl, mapped, hmapped, hl⟩, hbecomes⟩ := h
  refine ⟨mapped, hmapped, ?_⟩
  rw [← hl]
  cases hbecomes with
  | compare hcategory hoperand => rfl
  | test name hop => rfl

/-- The paths of a clause are those of its compiled filters, in another order. -/
theorem Clause.paths_ofCompiled (cs : List Compiled) :
    (Clause.ofCompiled cs).paths.Perm (cs.flatMap Compiled.paths) := by
  have hbindings : ((cs.filterMap Compiled.binding).reverse.map Binding.path).Perm
      (cs.flatMap fun c => (c.binding.map Binding.path).toList) := by
    rw [List.map_reverse, List.map_filterMap, List.filterMap_eq_flatMap_toList]
    exact List.reverse_perm _
  have hterms : ((cs.map Compiled.term).filterMap fun t => t.condition.path?) =
      cs.flatMap fun c => c.term.condition.path?.toList := by
    rw [List.filterMap_map, List.filterMap_eq_flatMap_toList]
    rfl
  rw [paths, Clause.ofCompiled, hterms]
  exact (hbindings.append_right _).trans (List.flatMap_append_perm cs _ _)

/-- A compiled clause follows the path of each filter. -/
theorem paths_of_compiles {anchor : Anchor} {fields : FieldMap} {fs : List Filter}
    {cs : List Compiled} (h : List.Forall₂ (Compiles anchor fields) fs cs) :
    (Clause.ofCompiled cs).paths.Perm
      (fs.filterMap fun f => (fields.get? f.field).map anchor.attach) := by
  have hpaths : cs.flatMap Compiled.paths =
      fs.filterMap fun f => (fields.get? f.field).map anchor.attach := by
    induction h with
    | nil => rfl
    | @cons f c fs cs hfc hrest ih =>
      obtain ⟨mapped, hmapped, hc⟩ := hfc.paths_eq
      rw [List.flatMap_cons, hc, ih, List.filterMap_cons, hmapped]
      rfl
  exact hpaths ▸ Clause.paths_ofCompiled cs

/-- The clause fits in a loop over the variable: its paths start from the variable, and no binding has
its name. -/
structure Clause.LoopsOver (c : Clause) (v : String) : Prop where
  paths : ∀ path ∈ c.paths, StartsFrom v path
  names : ∀ b ∈ c.bindings, b.name ≠ v

/-- The variable that a clause of filters is looped over by: the one in front of relative paths, or the
root that complete paths share. -/
def Anchor.IsLoopVariable (anchor : Anchor) (fields : FieldMap) (filters : List Filter) (v : String) :
    Prop :=
  match anchor with
  | .relative loopVar => v = loopVar
  | .qualified => SharesRoot fields filters v

/-- Paths start from the loop variable, and it is one of the names that no binding may have. -/
theorem Anchor.IsLoopVariable.startsFrom {anchor : Anchor} {fields : FieldMap} {filters : List Filter}
    {v : String} (h : anchor.IsLoopVariable fields filters v) :
    v ∈ anchor.reserved fields ∧ ∀ f ∈ filters, ∀ mapped, fields.get? f.field = some mapped →
      StartsFrom v (anchor.attach mapped) := by
  cases anchor with
  | relative loopVar =>
    obtain rfl : v = loopVar := h
    exact ⟨List.mem_singleton_self v, fun f hf mapped hmapped => .inr ⟨mapped, .inl rfl⟩⟩
  | qualified =>
    have hshares : SharesRoot fields filters v := h
    refine ⟨?_, fun f hf mapped hmapped => ?_⟩
    · obtain ⟨f, hf⟩ := List.exists_mem_of_ne_nil filters hshares.nonempty
      obtain ⟨mapped, hmapped, hroot⟩ := hshares.paths f hf
      exact List.mem_map.2 ⟨mapped, FieldMap.mem_paths_of_get? hmapped, hroot⟩
    · obtain ⟨mapped', hmapped', hroot⟩ := hshares.paths f hf
      rw [hmapped, Option.some.injEq] at hmapped'
      subst hmapped'
      exact hroot ▸ startsFrom_pathRoot mapped

/-- A compiled clause fits in a loop over its loop variable. -/
theorem Clause.LoopsOver.of_compile {fields : FieldMap} {anchor : Anchor} {supply : NameSupply}
    {filters : List Filter} {clause : Clause} {v : String}
    (hcompile : ((Compiler.new fields anchor supply).compile filters).1 = .ok clause)
    (hv : anchor.IsLoopVariable fields filters v) : clause.LoopsOver v := by
  obtain ⟨hreserved, hstarts⟩ := hv.startsFrom
  obtain ⟨-, hnames⟩ := Compiler.compile_bindings (Prod.ext hcompile rfl)
  obtain ⟨cs, hcompiles, -, rfl⟩ := Compiler.compile_ok (Prod.ext hcompile rfl)
  constructor
  · intro path hpath
    obtain ⟨f, hf, hmapped⟩ := List.mem_filterMap.1 ((paths_of_compiles hcompiles).mem_iff.1 hpath)
    obtain ⟨mapped, hget, rfl⟩ := Option.map_eq_some_iff.1 hmapped
    exact hstarts f hf mapped hget
  · rintro b hb rfl
    exact (hnames b.name (List.mem_map_of_mem hb)).1 hreserved

/-! ## The lines of a query -/

/-- The lines of a query: those of the clause behind four spaces each, between the `FOR` and the
`RETURN`. -/
theorem Loop.lines_around {l : Loop} {clause : String} (hloopVar : IsLine l.loopVar)
    (hcollection : IsLine l.collection) (hne : clause ≠ "") (hreturn : '\r' ∉ clause.toList) :
    Text.lines (l.around clause ++ "\n") = ("FOR " ++ l.loopVar ++ " IN " ++ l.collection) ::
      ((Text.lines clause).map ("    " ++ ·) ++ ["    RETURN " ++ l.loopVar]) := by
  have hbody : (Text.lines clause).map ("    " ++ ·) ≠ [] := by
    simpa [Text.lines] using hne
  have haround : l.around clause = "\n".intercalate (("FOR " ++ l.loopVar ++ " IN " ++ l.collection) ::
      ((Text.lines clause).map ("    " ++ ·) ++ ["    RETURN " ++ l.loopVar])) := by
    have hkeyword : "\n    RETURN " = "\n" ++ "    RETURN " := rfl
    rw [← List.singleton_append, String.intercalate_append_of_ne_nil (List.cons_ne_nil _ _)
      (List.append_ne_nil_of_left_ne_nil hbody _), String.intercalate_append_of_ne_nil hbody
      (List.cons_ne_nil _ _), String.intercalate_singleton, String.intercalate_singleton,
      Loop.around, Text.indent, hkeyword]
    simp only [String.append_assoc]
  rw [haround]
  refine lines_intercalate (List.cons_ne_nil _ _) fun line hline => ?_
  rcases List.mem_cons.1 hline with rfl | hline
  · refine ⟨by simp, ?_⟩
    simp only [isLine_append]
    exact ⟨⟨⟨by decide, hloopVar⟩, by decide⟩, hcollection⟩
  · rcases List.mem_append.1 hline with hline | hline
    · obtain ⟨part, hpart, rfl⟩ := List.mem_map.1 hline
      exact ⟨by simp, isLine_append.2 ⟨by decide, isLine_of_mem_lines hreturn hpart⟩⟩
    · obtain rfl := List.mem_singleton.1 hline
      exact ⟨by simp, isLine_append.2 ⟨by decide, hloopVar⟩⟩

/-! ## Requests -/

namespace CompileRequest

variable {r : CompileRequest} {fs : List Filter} {random : NameSupply} {clause : Clause}

/-- A loop runs over the collection of the request, by the loop variable of the filters. -/
theorem loop?_eq_ok_iff {collection : String} (hcollection : r.collection = some collection)
    {loop : Option Loop} : r.loop? fs = .ok loop ↔
      ∃ v, loop = some ⟨v, collection⟩ ∧ r.anchor.IsLoopVariable r.fields fs v := by
  rw [loop?, hcollection]
  cases r.anchor with
  | relative loopVar => simp [Anchor.IsLoopVariable, eq_comm]
  | qualified =>
    simp only [Anchor.IsLoopVariable, ← commonRoot_eq_ok_iff]
    cases commonRoot r.fields fs with
    | error e => simp [Except.map]
    | ok root => simp [Except.map, eq_comm]

/-- The variable of relative paths is the vertex variable or the document variable. -/
theorem loopVariable_of {P : String → Prop} (hdocument : P r.document)
    (hvertex : ∀ v ∈ r.vertex, P v) : P (FilterClause.loopVariable r.document r.vertex) := by
  rw [FilterClause.loopVariable]
  cases hr : r.vertex with
  | none => exact hdocument
  | some v => exact hvertex v hr

/-- The loop variable is the root of a mapped path, or the variable of relative paths. -/
theorem of_isLoopVariable {P : String → Prop} (hpaths : ∀ path ∈ r.fields.paths, P (pathRoot path))
    (hdocument : P r.document) (hvertex : ∀ v ∈ r.vertex, P v) {v : String}
    (hv : r.anchor.IsLoopVariable r.fields fs v) : P v := by
  rw [anchor] at hv
  split at hv
  · obtain ⟨f, hf⟩ := List.exists_mem_of_ne_nil fs hv.nonempty
    obtain ⟨mapped, hmapped, rfl⟩ := hv.paths f hf
    exact hpaths mapped (FieldMap.mem_paths_of_get? hmapped)
  · obtain rfl : v = FilterClause.loopVariable r.document r.vertex := hv
    exact loopVariable_of hdocument hvertex

/-- What the request puts into a query has no line ends in it. -/
structure IsInline (r : CompileRequest) : Prop where
  paths : ∀ path ∈ r.fields.paths, IsLine path
  document : IsLine r.document
  vertex : ∀ v ∈ r.vertex, IsLine v
  collection : ∀ c ∈ r.collection, IsLine c

theorem IsInline.loopVariable (h : r.IsInline) : IsLine (loopVariable r.document r.vertex) :=
  loopVariable_of h.document h.vertex

/-- The loop variable has no line ends either, since a root is part of its path. -/
theorem IsInline.isLoopVariable (h : r.IsInline) {v : String}
    (hv : r.anchor.IsLoopVariable r.fields fs v) : IsLine v := by
  refine of_isLoopVariable (fun path hpath => ?_) h.document h.vertex hv
  have hline := h.paths path hpath
  have hroot : (pathRoot path).toList ⊆ path.toList := by
    rw [pathRoot, String.toList_ofList]
    exact (List.takeWhile_prefix isRootChar).subset
  exact ⟨fun hmem => hline.1 (hroot hmem), fun hmem => hline.2 (hroot hmem)⟩

/-- With numbered names, the clause of a request is laid out in lines. -/
theorem IsInline.isLaidOut (h : r.IsInline) (hdeterministic : r.deterministic = true)
    (hparse : Filter.parse r.filter = .ok fs)
    (hcompile : ((Compiler.new r.fields r.anchor (r.supply random)).compile fs).1 = .ok clause) :
    clause.IsLaidOut := by
  obtain ⟨hread, -⟩ := isRead_of_parse hparse
  obtain ⟨cs, hcompiles, hissues, rfl⟩ := Compiler.compile_ok (Prod.ext hcompile rfl)
  refine isLaidOut_ofCompiled hcompiles (fun f hf mapped hmapped => ?_)
    (fun f hf => Filter.isLine_value (hread f hf)) fun name hname => ?_
  · have hpath := h.paths mapped (FieldMap.mem_paths_of_get? hmapped)
    show IsLine (r.anchor.attach mapped)
    rw [anchor]
    split
    · exact hpath
    · exact isLine_append.2 ⟨isLine_append.2 ⟨h.loopVariable, by decide⟩, hpath⟩
  · obtain ⟨i, hi⟩ := hissues.supplied name hname
    have hidentifier : IsIdentifier ((NameSupply.sequential NameSupply.defaultStem).name i) :=
      isIdentifier_sequential (by decide) i
    have hsupply : (r.supply random).name i = name := hi
    rw [supply, hdeterministic, if_pos rfl] at hsupply
    rw [← hsupply]
    exact ⟨hidentifier.notMem rfl, hidentifier.notMem rfl⟩

/-- The request for the clause alone. -/
def withoutLoop (r : CompileRequest) : CompileRequest :=
  { r with collection := none }

/-- Complete paths that share no variable are refused where a loop is asked for, before any value is
looked at. -/
theorem run_compile_of_not_sharesRoot {collection : String}
    (hcollection : r.collection = some collection) (hqualified : r.qualified = true)
    (hparse : Filter.parse r.filter = .ok fs)
    (hmapped : ∀ f ∈ fs, (r.fields.get? f.field).isSome)
    (hnone : ¬ ∃ root, SharesRoot r.fields fs root) (random : NameSupply) (format : OutputFormat)
    (sink : Sink) : (Command.compile r).run random format sink =
      (.error (.invalidArgument (.noCommonRoot (usedRoots r.fields fs))), sink) := by
  have hanchor : r.anchor = .qualified := by rw [anchor, if_pos hqualified]
  obtain ⟨root, hroot, -⟩ | ⟨-, herror⟩ := commonRoot_cases hmapped
  · exact absurd ⟨root, hroot⟩ hnone
  have hloop : r.loop? fs =
      .error (.invalidArgument (.noCommonRoot (usedRoots r.fields fs))) := by
    rw [loop?, hcollection, hanchor]
    simp only [herror, Except.map]
  refine Command.run_of_evaluate_error ?_ format sink
  simp only [Command.evaluate, compile, hparse, compileFilters, hloop, Except.map]

/-- A query that is printed loops over the variable that the paths of its clause start from, and has
the clause that is printed without a collection as its body. Complete paths must share the variable;
where they do not, nothing is printed, and the request is refused before any value is looked at. -/
theorem run_compile_loop {collection : String} (hcollection : r.collection = some collection)
    (random : NameSupply) (format : OutputFormat) :
    (r.deterministic = true → r.IsInline → format ≠ .json →
      ∀ sink, (Command.compile r).run random format .unbounded = (.ok (), sink) →
        ∃ fs clause v, Filter.parse r.filter = .ok fs ∧
          ((Compiler.new r.fields r.anchor (r.supply random)).compile fs).1 = .ok clause ∧
          r.anchor.IsLoopVariable r.fields fs v ∧
          clause.paths.Perm (fs.filterMap fun f => (r.fields.get? f.field).map r.anchor.attach) ∧
          clause.LoopsOver v ∧
          (Command.compile r.withoutLoop).run random format .unbounded =
            (.ok (), ⟨none, clause.text ++ "\n"⟩) ∧
          Text.lines sink.held = ("FOR " ++ v ++ " IN " ++ collection) ::
            ((Text.lines clause.text).map ("    " ++ ·) ++ ["    RETURN " ++ v]) ∧
          "\n".intercalate (Text.lines clause.text) = clause.text) ∧
      (r.qualified = true → ∀ fs, Filter.parse r.filter = .ok fs →
        (∀ f ∈ fs, (r.fields.get? f.field).isSome) → (¬ ∃ root, SharesRoot r.fields fs root) →
        ∀ sink, (Command.compile r).run random format sink =
          (.error (.invalidArgument (.noCommonRoot (usedRoots r.fields fs))), sink)) := by
  constructor
  · intro hdeterministic hinline hformat sink hrun
    obtain ⟨text, hcompiled, rfl⟩ := Command.exists_compile_of_run hrun
    obtain ⟨fs, loop, clause, hparse, hloop, hclause, rfl⟩ := compile_eq_ok_iff.1 hcompiled
    obtain ⟨v, rfl, hv⟩ := (loop?_eq_ok_iff hcollection).1 hloop
    have halone : r.withoutLoop.compile random = .ok clause.text :=
      compile_eq_ok_iff.2 ⟨fs, none, clause, hparse, rfl, hclause, rfl⟩
    obtain ⟨cs, hcompiles, -, hcs⟩ := Compiler.compile_ok (Prod.ext hclause rfl)
    obtain ⟨hreturn, htext⟩ := (hinline.isLaidOut hdeterministic hparse hclause).intercalate_lines
    refine ⟨fs, clause, v, hparse, hclause, hv, hcs ▸ paths_of_compiles hcompiles,
      .of_compile hclause hv, ?_, ?_, htext⟩
    · rw [Command.run_compile_of_ok halone, Result.text_clause hformat]
    · rw [Result.text_clause hformat]
      exact Loop.lines_around (hinline.isLoopVariable hv) (hinline.collection _ hcollection)
        clause.text_ne_empty hreturn
  · intro hqualified fs hparse hmapped hnone sink
    exact run_compile_of_not_sharesRoot hcollection hqualified hparse hmapped hnone random format sink

/-- Two complete paths with one root are looped over by it. With another root for the second one there
is no loop variable, and its date is not looked at. -/
theorem run_compile_loop_qualified :
    let r : CompileRequest := {
      filter := "tag@==red;day$<2020-12-31"
      fields := FieldMap.ofList [("tag", "doc[0].tags"), ("day", "doc.at")]
      document := "n"
      vertex := none
      qualified := true
      collection := some "users"
      deterministic := true }
    let r' : CompileRequest := { r with
      filter := "tag@==red;day$<2020-13"
      fields := FieldMap.ofList [("tag", "doc[0].tags"), ("day", "at")] }
    let tag : Filter := ⟨"tag", .array .has, "red", some .and⟩
    let fs : List Filter := [tag, ⟨"day", .date .lt, "2020-12-31", none⟩]
    let fs' : List Filter := [tag, ⟨"day", .date .lt, "2020-13", none⟩]
    let clause : Clause := ⟨[⟨"tmp0", .has, "doc[0].tags", "red"⟩],
      [⟨.nonempty "tmp0", some .and⟩, ⟨.compare "doc.at" "<" (.date "2020-12-31"), none⟩]⟩
    let text := "FOR doc IN users\n    LET tmp0 = (\n        FILTER 'red' IN doc[0].tags[*]\n" ++
      "        RETURN 1\n    )\n    FILTER LENGTH(tmp0) > 0 AND doc.at < DATE_ISO8601('2020-12-31')\n" ++
      "    RETURN doc\n"
    (Filter.parse r.filter = .ok fs ∧ r.IsInline ∧
      (Command.compile r).run (.random 0) .human .unbounded = (.ok (), ⟨none, text⟩) ∧
      clause.LoopsOver "doc" ∧ Text.lines text = ("FOR " ++ "doc" ++ " IN " ++ "users") ::
        ((Text.lines clause.text).map ("    " ++ ·) ++ ["    RETURN " ++ "doc"])) ∧
    (Filter.parse r'.filter = .ok fs' ∧ r'.IsInline ∧ (¬ ∃ root, SharesRoot r'.fields fs' root) ∧
      (Command.compile r').run (.random 0) .human .unbounded =
        (.error (.invalidArgument (.noCommonRoot ["at", "doc"])), .unbounded)) := by
  intro r r' tag fs fs' clause text
  have hformat : OutputFormat.human ≠ .json := by decide
  constructor
  · have hinline : r.IsInline := ⟨by decide +kernel, by decide, by decide, by decide⟩
    have hparse : Filter.parse r.filter = .ok fs := by decide +kernel
    have hrun : (Command.compile r).run (.random 0) .human .unbounded = (.ok (), ⟨none, text⟩) := by
      decide +kernel
    have hcompile : ((Compiler.new r.fields r.anchor (r.supply (.random 0))).compile fs).1 =
        .ok clause := by decide +kernel
    have hprinted := (run_compile_loop rfl (.random 0) .human).1 rfl hinline hformat _ hrun
    obtain ⟨gs, clause', v, hgs, hclause', hv, -, hloops, -, hlines, -⟩ := hprinted
    obtain rfl : gs = fs := Except.ok.inj (hgs.symm.trans hparse)
    obtain rfl : clause' = clause := Except.ok.inj (hclause'.symm.trans hcompile)
    -- the root of the first path is that of all of them
    obtain ⟨mapped, hmapped, hroot⟩ := hv.paths tag List.mem_cons_self
    have htag : r.fields.get? tag.field = some "doc[0].tags" := by decide +kernel
    obtain rfl : mapped = "doc[0].tags" := Option.some.inj (hmapped.symm.trans htag)
    have hdoc : pathRoot "doc[0].tags" = "doc" := by decide
    obtain rfl : v = "doc" := hroot.symm.trans hdoc
    exact ⟨hparse, hinline, hrun, hloops, hlines⟩
  · have hinline : r'.IsInline := ⟨by decide +kernel, by decide, by decide, by decide⟩
    have hparse : Filter.parse r'.filter = .ok fs' := by decide +kernel
    have hused : usedRoots r'.fields fs' = ["at", "doc"] := by decide +kernel
    have hnone : ¬ ∃ root, SharesRoot r'.fields fs' root := by
      rintro ⟨root, hshares⟩
      have hone := ((sharesRoot_iff (isSome_of_sharesRoot hshares)).1 hshares).1
      rw [hused] at hone
      cases hone
    have hrefused := (run_compile_loop rfl (.random 0) .human).2 rfl fs' hparse
      (by decide +kernel) hnone .unbounded
    rw [hused] at hrefused
    exact ⟨hparse, hinline, hnone, hrefused⟩

end CompileRequest

end FilterClause
