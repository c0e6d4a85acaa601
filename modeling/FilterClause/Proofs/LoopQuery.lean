import FilterClause.Proofs.Grammar
import FilterClause.Proofs.LoopText
import FilterClause.Proofs.Soundness

/-!
# Queries that are printed

The shape of a whole query: a `FOR` over a collection, bindings, a `FILTER` with a boolean expression,
and a `RETURN` of the loop variable (`Query.LoopQuery`). An expression has at least one term, so a bare
`FILTER` is no query (`Query.LoopQuery.text_ne_bare`).

What a request with a collection prints is a query exactly when its filter string has a filter
(`run_compile_query`). Complete paths need a common root, so without a filter they are refused; relative
paths are not, and the `FILTER` stands there bare.
-/

namespace FilterClause

open FilterClause.Filter

namespace Query

/-! ## The shape of queries -/

/-- The value that a test looks for. -/
def Test.value : Test → String
  | .isIn value _ => value
  | .notIn value _ => value
  | .hasPart _ value => value

/-- The test of a subquery. -/
def Subquery.test : Subquery → Test
  | .filter test => test
  | .search _ _ test => test

/-- A condition among bindings of the given names: a path is compared with a value, written as the
operator has it, or a named result is not empty. -/
inductive IsCondition (names : List String) : String → Prop
  | compare {op : Operator} {path value operand : String} (hpath : IsDottedPath path)
      (hvalue : IsValue value.toList) (hoperand : op.Renders value operand) :
      IsCondition names (path ++ " " ++ op.symbol ++ " " ++ operand)
  | nonempty {name : String} (hname : name ∈ names) : IsCondition names ("LENGTH(" ++ name ++ ") > 0")

/-- A query that runs a variable over a collection and returns what passes a filter. -/
structure LoopQuery where
  loopVar : String
  collection : String
  lets : List Let
  words : List String
  deriving DecidableEq, Repr

namespace LoopQuery

/-- The spelling of a query. -/
def text (q : LoopQuery) : String :=
  "FOR " ++ q.loopVar ++ " IN " ++ q.collection ++ "\n" ++
    String.join (q.lets.map fun l => Text.indent l.text ++ "\n") ++
    "    FILTER " ++ " ".intercalate q.words ++ "\n    RETURN " ++ q.loopVar

theorem text_eq (q : LoopQuery) : q.text = "FOR " ++ q.loopVar ++ " IN " ++ q.collection ++ "\n" ++
    String.join (q.lets.map fun l => Text.indent l.text ++ "\n") ++
    "    FILTER " ++ " ".intercalate q.words ++ "\n    RETURN " ++ q.loopVar := rfl

/-- Names are identifiers, paths are dotted, values are words with gaps between them, and the words of
the filter spell a boolean expression of conditions. -/
structure WellFormed (q : LoopQuery) : Prop where
  loopVar : IsIdentifier q.loopVar
  lets : ∀ l ∈ q.lets, l.WellFormed ∧ IsValue l.subquery.test.value.toList
  expression : ∃ e, Reads .expression (q.words.map Token.ofText) e ∧
    ∀ c ∈ e.terms, IsCondition (q.lets.map Let.name) c

/-- The query around a clause. -/
def ofClause (loop : Loop) (clause : Clause) : LoopQuery where
  loopVar := loop.loopVar
  collection := loop.collection
  lets := clause.bindings.map Binding.toLet
  words := groupTexts (clause.terms.map (Term.map Condition.text))

/-- A bare `FILTER` is not the spelling of a query. -/
theorem text_ne_bare {q : LoopQuery} (loop : Loop) (hq : q.WellFormed)
    (hloopVar : IsIdentifier loop.loopVar) (hcollection : q.collection = loop.collection) :
    q.text ≠ loop.around "FILTER" := by
  intro h
  have hindent : Text.indent "FILTER" = "    FILTER" := by decide
  rw [text_eq, Loop.around, hindent, hcollection] at h
  have hchars := congrArg String.toList h
  simp only [String.toList_append, List.append_assoc] at hchars
  -- both loop over one variable, so what is left is too short for an expression
  obtain ⟨hsame, -⟩ := eq_of_append_eq (hq.loopVar.notMem (c := ' ') rfl) (hloopVar.notMem rfl)
    rfl rfl (List.append_cancel_left hchars)
  have hlength := congrArg String.length h
  rw [String.toList_inj.1 hsame] at hlength
  simp only [String.length_append] at hlength
  have hkeyword : "    FILTER ".length = "    FILTER".length + 1 := by decide
  omega

end LoopQuery

end Query

open Query

/-! ## The query around a clause -/

theorem Binding.getLast?_text (b : Binding) : b.text.toList.getLast? = some ')' := by
  rw [Binding.text, String.toList_append, List.getLast?_append]
  rfl

/-- A clause with terms makes a query. -/
theorem Query.LoopQuery.text_ofClause {loop : Loop} {clause : Clause} (h : clause.IsLaidOut)
    (hne : clause.terms ≠ []) : (ofClause loop clause).text = loop.around clause.text := by
  have hends : ∀ part ∈ clause.bindings.map Binding.text,
      ∃ c ∈ part.toList.getLast?, c ≠ '\n' ∧ c ≠ '\r' := by
    intro part hpart
    obtain ⟨b, hb, rfl⟩ := List.mem_map.1 hpart
    exact ⟨')', b.getLast?_text, by decide⟩
  have hlast : "    " ++ clause.lastLine =
      "    FILTER " ++ groupedExpression (clause.terms.map (Term.map Condition.text)) := by
    have hkeyword : "    FILTER " = "    " ++ "FILTER " := rfl
    rw [Clause.lastLine, filterLine, if_neg (groupedExpression_ne_empty hne), hkeyword,
      String.append_assoc]
  have hlets : (clause.bindings.map Binding.toLet).map (fun l => Text.indent l.text ++ "\n") =
      (clause.bindings.map Binding.text).map fun part => Text.indent part ++ "\n" := by
    simp only [List.map_map, Function.comp_def, Binding.text_toLet]
  rw [Loop.around, Clause.text_eq, indent_intercalate_append hends
    (fun hempty => clause.toList_lastLine_ne_nil (String.toList_eq_nil_iff.2 hempty)) h.lastLine.1,
    hlast, ← hlets, text_eq, ofClause, groupedExpression]
  simp only [String.append_assoc]

theorem Binding.value_toLet (b : Binding) : b.toLet.subquery.test.value = b.value := by
  obtain ⟨name, test, path, value⟩ := b
  cases test with
  | has | lacks | contains => rfl

/-- A value that was read is one of the grammar. -/
theorem Filter.isValue_value {f : Filter} (h : f.toPiece.IsRead) : IsValue f.value.toList := by
  have hvalue := isValue_takeValue h.starts
  rw [h.value] at hvalue
  exact hvalue

/-- What becomes of a filter fits in a query: its condition, and the binding that the condition names. -/
theorem Compiles.isCondition {anchor : Anchor} {fields : FieldMap} {f : Filter} {c : Compiled}
    {names : List String} (h : Compiles anchor fields f c)
    (hpath : ∀ mapped, fields.get? f.field = some mapped → IsDottedPath (anchor.attach mapped))
    (hvalue : IsValue f.value.toList)
    (hnames : ∀ b ∈ c.binding, IsIdentifier b.name ∧ b.name ∈ names) :
    IsCondition names c.term.condition.text ∧
      ∀ b ∈ c.binding, b.toLet.WellFormed ∧ IsValue b.toLet.subquery.test.value.toList := by
  obtain ⟨l, ⟨rfl, mapped, hmapped, hl⟩, hbecomes⟩ := h
  have hdotted : IsDottedPath l.path := hl ▸ hpath mapped hmapped
  cases hbecomes with
  | compare hcategory hoperand =>
    exact ⟨.compare hdotted hvalue (Operator.renders_of_operandText hoperand hcategory),
      fun b hb => (nomatch hb)⟩
  | test name hop =>
    obtain ⟨hidentifier, hmem⟩ := hnames _ rfl
    refine ⟨.nonempty hmem, fun b hb => ?_⟩
    obtain rfl := Option.some.inj hb
    rw [Binding.value_toLet]
    exact ⟨Binding.wellFormed_toLet hidentifier hdotted, hvalue⟩

/-- A condition contains a blank, so it is not a reserved word. -/
theorem Query.IsCondition.notMem_reservedWords {names : List String} {text : String}
    (h : IsCondition names text) : text ∉ reservedWords := by
  apply FilterClause.notMem_reservedWords
  cases h with
  | compare hpath hvalue hoperand => simp
  | nonempty hname => simp

/-- Conditions that are grouped spell an expression of them. -/
theorem reads_groupTexts {names : List String} {terms : List (Term String)} (hne : terms ≠ [])
    (h : ∀ t ∈ terms, IsCondition names t.condition) :
    ∃ e, Reads .expression ((groupTexts terms).map Token.ofText) e ∧
      ∀ c ∈ e.terms, IsCondition names c := by
  obtain ⟨e, he, -⟩ := reads_group hne
  rw [map_ofText_groupTexts fun t ht => (h t ht).notMem_reservedWords]
  refine ⟨e, he, fun c hc => ?_⟩
  obtain ⟨t, ht, rfl⟩ := term_mem_group.1 (he.mem_terms.1 hc)
  exact h t ht

/-- The clause of filters, with a loop around it, is a well-formed query. -/
theorem Query.LoopQuery.wellFormed_ofClause {anchor : Anchor} {fields : FieldMap} {fs : List Filter}
    {cs : List Compiled} {loop : Loop} (h : List.Forall₂ (Compiles anchor fields) fs cs) (hne : fs ≠ [])
    (hloopVar : IsIdentifier loop.loopVar)
    (hpaths : ∀ f ∈ fs, ∀ mapped, fields.get? f.field = some mapped → IsDottedPath (anchor.attach mapped))
    (hvalues : ∀ f ∈ fs, IsValue f.value.toList)
    (hnames : ∀ name ∈ bindingNames cs, IsIdentifier name) :
    (ofClause loop (Clause.ofCompiled cs)).WellFormed := by
  have hletNames : ((Clause.ofCompiled cs).bindings.map Binding.toLet).map Let.name =
      (bindingNames cs).reverse := by
    rw [List.map_map]
    exact map_name_bindings_ofCompiled cs
  have hall : ∀ c ∈ cs, IsCondition (bindingNames cs).reverse c.term.condition.text ∧
      ∀ b ∈ c.binding, b.toLet.WellFormed ∧ IsValue b.toLet.subquery.test.value.toList := by
    intro c hc
    obtain ⟨f, hf, hfc⟩ := exists_mem_of_forall₂ h hc
    refine hfc.isCondition (hpaths f hf) (hvalues f hf) fun b hb => ?_
    have hname : b.name ∈ bindingNames cs :=
      List.mem_map_of_mem (List.mem_filterMap.2 ⟨c, hc, hb⟩)
    exact ⟨hnames b.name hname, List.mem_reverse.2 hname⟩
  constructor
  · exact hloopVar
  · intro l hl
    obtain ⟨b, hb, rfl⟩ := List.mem_map.1 hl
    obtain ⟨c, hc, hcb⟩ := mem_bindings_ofCompiled.1 hb
    exact (hall c hc).2 b hcb
  · have hterms : (Clause.ofCompiled cs).terms.map (Term.map Condition.text) ≠ [] := by
      intro hnil
      rw [Clause.ofCompiled, List.map_eq_nil_iff, List.map_eq_nil_iff] at hnil
      rw [hnil, List.forall₂_nil_right_iff] at h
      exact hne h
    refine reads_groupTexts hterms fun t ht => ?_
    rw [ofClause, hletNames]
    obtain ⟨t', ht', rfl⟩ := List.mem_map.1 ht
    obtain ⟨c, hc, rfl⟩ := List.mem_map.1 ht'
    exact (hall c hc).1

/-! ## Requests -/

namespace CompileRequest

variable {r : CompileRequest} {fs : List Filter} {random : NameSupply}

theorem isIdentifier_supply (h : ∀ i, IsIdentifier (random.name i)) (i : ℕ) :
    IsIdentifier ((r.supply random).name i) := by
  rw [supply]
  split
  · exact isIdentifier_sequential (by decide) i
  · exact h i

/-- The mapped paths are dotted, and the variables are identifiers. -/
structure IsNamed (r : CompileRequest) : Prop where
  paths : ∀ path ∈ r.fields.paths, IsDottedPath path
  document : IsIdentifier r.document
  vertex : ∀ v ∈ r.vertex, IsIdentifier v

theorem IsNamed.isDottedPath (h : r.IsNamed) {field mapped : String}
    (hmapped : r.fields.get? field = some mapped) : IsDottedPath (r.anchor.attach mapped) := by
  refine (h.paths mapped (FieldMap.mem_paths_of_get? hmapped)).attach fun loopVar hloop => ?_
  rw [anchor] at hloop
  split at hloop
  · cases hloop
  · cases hloop
    exact loopVariable_of h.document h.vertex

theorem IsNamed.isLoopVariable (h : r.IsNamed) {v : String}
    (hv : r.anchor.IsLoopVariable r.fields fs v) : IsIdentifier v :=
  of_isLoopVariable (fun path hpath => isIdentifier_pathRoot (h.paths path hpath)) h.document
    h.vertex hv

/-- What a request with a collection prints is a well-formed query exactly when the filter string has a
filter, which it must have where paths are complete. -/
theorem run_compile_query {collection : String} {format : OutputFormat} {sink : Sink}
    (hcollection : r.collection = some collection) (hnamed : r.IsNamed)
    (hrandom : ∀ i, IsIdentifier (random.name i))
    (hrun : (Command.compile r).run random format .unbounded = (.ok (), sink)) :
    ∃ fs text, Filter.parse r.filter = .ok fs ∧
      sink = ⟨none, (Result.clause r.filter text).text format⟩ ∧
      ((∃ q : LoopQuery, q.WellFormed ∧ q.collection = collection ∧ q.text = text) ↔ fs ≠ []) ∧
      (r.qualified = true → fs ≠ []) := by
  obtain ⟨text, hcompiled, rfl⟩ := Command.exists_compile_of_run hrun
  obtain ⟨fs, loop, clause, hparse, hloop, hclause, rfl⟩ := compile_eq_ok_iff.1 hcompiled
  obtain ⟨v, rfl, hv⟩ := (loop?_eq_ok_iff hcollection).1 hloop
  obtain ⟨hread, -⟩ := isRead_of_parse hparse
  obtain ⟨cs, hcompiles, hissues, rfl⟩ := Compiler.compile_ok (Prod.ext hclause rfl)
  have hloopVar : IsIdentifier v := hnamed.isLoopVariable hv
  have hpaths : ∀ f ∈ fs, ∀ mapped, r.fields.get? f.field = some mapped →
      IsDottedPath (r.anchor.attach mapped) := fun f _ mapped hmapped => hnamed.isDottedPath hmapped
  have hnames : ∀ name ∈ bindingNames cs, IsIdentifier name := by
    intro name hname
    obtain ⟨i, hi⟩ := hissues.supplied name hname
    exact hi ▸ isIdentifier_supply hrandom i
  have hlaid : (Clause.ofCompiled cs).IsLaidOut := by
    refine isLaidOut_ofCompiled hcompiles (fun f hf mapped hmapped => ?_)
      (fun f hf => Filter.isLine_value (hread f hf)) fun name hname => ?_
    · have hdotted := hpaths f hf mapped hmapped
      exact ⟨hdotted.notMem rfl (by decide), hdotted.notMem rfl (by decide)⟩
    · exact ⟨(hnames name hname).notMem rfl, (hnames name hname).notMem rfl⟩
  have hterms : (Clause.ofCompiled cs).terms = [] ↔ fs = [] := by
    rw [Clause.ofCompiled, List.map_eq_nil_iff]
    constructor
    · rintro rfl
      exact List.forall₂_nil_right_iff.1 hcompiles
    · rintro rfl
      exact List.forall₂_nil_left_iff.1 hcompiles
  refine ⟨fs, _, hparse, rfl, ⟨?_, fun hne => ?_⟩, fun hqualified => ?_⟩
  · rintro ⟨q, hq, hqcollection, htext⟩ rfl
    -- without filters the clause is the bare keyword
    obtain rfl := List.forall₂_nil_left_iff.1 hcompiles
    exact LoopQuery.text_ne_bare ⟨v, collection⟩ hq hloopVar hqcollection htext
  · exact ⟨.ofClause ⟨v, collection⟩ (Clause.ofCompiled cs),
      LoopQuery.wellFormed_ofClause hcompiles hne hloopVar hpaths
        (fun f hf => Filter.isValue_value (hread f hf)) hnames, rfl,
      LoopQuery.text_ofClause hlaid (mt hterms.1 hne)⟩
  · rw [anchor, if_pos hqualified] at hv
    exact SharesRoot.nonempty hv

/-- A list test or a comparison, relative to the vertex variable. -/
theorem run_compile_query_two :
    let r : CompileRequest := {
      filter := "tag@==red,age>30"
      fields := FieldMap.ofList [("tag", "tags"), ("age", "person.age")]
      document := "doc"
      vertex := some "v"
      qualified := false
      collection := some "users"
      deterministic := true }
    let text := "FOR v IN users\n    LET tmp0 = (\n        FILTER 'red' IN v.tags[*]\n" ++
      "        RETURN 1\n    )\n    FILTER ( LENGTH(tmp0) > 0 OR v.person.age > 30 )\n    RETURN v"
    r.IsNamed ∧ (∀ i, IsIdentifier ((NameSupply.random 7).name i)) ∧
      (Command.compile r).run (.random 7) .plain .unbounded = (.ok (), ⟨none, text ++ "\n"⟩) ∧
      ∃ q : LoopQuery, q.WellFormed ∧ q.collection = "users" ∧ q.text = text := by
  intro r text
  have hnamed : r.IsNamed := ⟨by decide +kernel, by decide, by decide⟩
  have hrandom := isIdentifier_random 7
  have hrun : (Command.compile r).run (.random 7) .plain .unbounded =
      (.ok (), ⟨none, text ++ "\n"⟩) := by decide +kernel
  obtain ⟨fs, text', hparse, hsink, hiff, -⟩ := run_compile_query rfl hnamed hrandom hrun
  have hplain : OutputFormat.plain ≠ .json := by decide
  have htext : text = text' := by
    have hheld : text ++ "\n" = (Result.clause r.filter text').text .plain := congrArg Sink.held hsink
    rw [Result.text_clause hplain] at hheld
    exact (String.append_left_inj "\n").1 hheld
  have hne : fs ≠ [] := by
    rintro rfl
    have hnone : Filter.parse r.filter ≠ .ok [] := by decide +kernel
    exact hnone hparse
  exact ⟨hnamed, hrandom, hrun, htext ▸ hiff.2 hne⟩

/-- Without a filter the query has a bare `FILTER`. -/
theorem run_compile_query_bare :
    ¬ ∀ (r : CompileRequest) (collection : String) (random : NameSupply) (format : OutputFormat)
      (text : String), r.collection = some collection → r.IsNamed →
      (∀ i, IsIdentifier (random.name i)) →
      (Command.compile r).run random format .unbounded =
        (.ok (), ⟨none, (Result.clause r.filter text).text format⟩) →
      ∃ q : LoopQuery, q.WellFormed ∧ q.collection = collection ∧ q.text = text := by
  intro h
  obtain ⟨q, hq, hcollection, htext⟩ := h ⟨"", FieldMap.empty, "doc", none, false, some "users", true⟩
    "users" (.random 0) .plain "FOR doc IN users\n    FILTER\n    RETURN doc" rfl
    ⟨by decide, by decide, by decide⟩ (isIdentifier_random 0) (by decide +kernel)
  have hloopVar : IsIdentifier "doc" := by decide
  exact LoopQuery.text_ne_bare ⟨"doc", "users"⟩ hq hloopVar hcollection
    (htext.trans (by decide +kernel))

end CompileRequest

end FilterClause
