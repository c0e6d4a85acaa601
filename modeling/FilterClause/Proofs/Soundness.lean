import FilterClause.Proofs.Compiling
import FilterClause.Proofs.Grouping
import FilterClause.Proofs.Query
import Mathlib.Data.List.Nodup

/-!
# A clause says what its filters mean

A filter means something on its own: a comparison of the value at its path, or a test of the list
there (`Filter.passes`). A filter list means the conjunction over its runs of the disjunction of
their filters (`Anchor.accepts`). A clause says the same (`compile_passes_iff`): its bindings run, and
its filter expression has that value in the scope they leave.

The bindings run from the newest to the oldest, which is not the order of the filters. It makes no
difference, because no binding can change what another one sees (`runs_bindings`): names are new,
and paths start from variables that were there before.
-/

namespace FilterClause

open Query

variable {V : Type}

/-! ## The meaning of filters -/

/-- The outcome of a list test: membership, its negation, or containment in any letter case. -/
def Membership.passes [DecidableEq V] (I : Interpretation V) (v : V) (value : String) : Membership → Bool
  | .has => I.text value ∈ I.elements v
  | .lacks => I.text value ∉ I.elements v
  | .contains => (I.elements v).any fun e => I.contains (I.lower e) (I.lower (I.text value))

/-- The outcome of a filter for the value at its path. -/
def Filter.passes [DecidableEq V] (I : Interpretation V) (v : V) (f : Filter) : Bool :=
  match f.operator with
  | .array test => test.passes I v f.value
  | op =>
    match op.operandText f.value with
    | .ok operand => I.compares v op.symbol operand
    | .error _ => false

/-- The value that a path leads to from the values of its variable. -/
def Query.Interpretation.valueOf (I : Interpretation V) (assign : String → V) (path : String) : V :=
  I.follow (assign (pathRoot path)) (steps path).tail

/-- The outcome of a filter whose field is mapped. -/
def Anchor.outcome [DecidableEq V] (I : Interpretation V) (anchor : Anchor) (fields : FieldMap)
    (assign : String → V) (f : Filter) : Bool :=
  match fields.get? f.field with
  | some mapped => f.passes I (I.valueOf assign (anchor.attach mapped))
  | none => false

/-- A filter with its joiner to the next one. -/
def Filter.toTerm (f : Filter) : Term Filter :=
  ⟨f, f.joiner⟩

/-- What a filter list means: of every run some filter passes. -/
def Anchor.accepts [DecidableEq V] (I : Interpretation V) (anchor : Anchor) (fields : FieldMap)
    (assign : String → V) (filters : List Filter) : Bool :=
  (orRuns (filters.map Filter.toTerm)).all fun run =>
    run.any fun t => anchor.outcome I fields assign t.condition

/-! ## Bindings as queries -/

/-- The variable that a substring test runs over a list. -/
def Binding.itemName (b : Binding) : String :=
  b.name ++ "_item"

/-- The query that a binding spells. -/
def Binding.toLet (b : Binding) : Let where
  name := b.name
  subquery :=
    match b.test with
    | .has => .filter (.isIn b.value b.path)
    | .lacks => .filter (.notIn b.value b.path)
    | .contains => .search b.itemName b.path (.hasPart b.itemName b.value)

theorem Binding.text_toLet (b : Binding) : b.toLet.text = b.text := by
  obtain ⟨name, test, path, value⟩ := b
  rw [← String.toList_inj, Let.toList_text]
  cases test with
  | has =>
    show _ = ("LET " ++ name ++ " = (\n" ++
      ("    FILTER " ++ quote value ++ " IN " ++ path ++ "[*]\n    RETURN 1\n") ++ ")").toList
    simp only [Binding.toLet, Subquery.toList_filter, Test.toList_isIn]
    simp [quote]
  | lacks =>
    show _ = ("LET " ++ name ++ " = (\n" ++
      ("    FILTER " ++ quote value ++ " NOT IN " ++ path ++ "[*]\n    RETURN 1\n") ++ ")").toList
    simp only [Binding.toLet, Subquery.toList_filter, Test.toList_notIn]
    simp [quote]
  | contains =>
    show _ = ("LET " ++ name ++ " = (\n" ++
      ("    FOR " ++ name ++ "_item IN " ++ path ++ "[*]\n" ++
        "        FILTER CONTAINS(LOWER(" ++ name ++ "_item), LOWER(" ++ quote value ++ "))\n" ++
        "        LIMIT 1\n        RETURN 1\n") ++ ")").toList
    simp only [Binding.toLet, Subquery.toList_search, Test.toList_hasPart]
    simp [quote, Binding.itemName]

/-- At most one hit is kept, and there is one if some element passes. -/
theorem take_one_hits {α : Type} (passes : α → Bool) (elements : List α) :
    (((elements.map passes).filter id).map fun _ => 1).take 1 =
      if elements.any passes then [1] else [] := by
  induction elements with
  | nil => rfl
  | cons e elements ih =>
    cases he : passes e with
    | false => simpa [he] using ih
    | true => simp [he]

/-- The list that the query of a binding returns, for the value at the binding's path. -/
def Binding.ones [DecidableEq V] (I : Interpretation V) (v : V) (b : Binding) : List Nat :=
  if b.test.passes I v b.value then [1] else []

/-- The query of a binding returns a one exactly if the test of its list passes. -/
theorem Binding.results_toLet [DecidableEq V] {I : Interpretation V} {env : Env V} {b : Binding} {v : V}
    (hpath : env.valueAt I b.path = some v) (hitem : env b.itemName = none) :
    b.toLet.subquery.results I env = some (b.ones I v) := by
  obtain ⟨name, test, path, value⟩ := b
  cases test with
  | has | lacks =>
    simp only [Binding.toLet, Subquery.results, Test.holds, hpath, Option.map_some]
    simp [Binding.ones, Membership.passes]
  | contains =>
    -- the item name is bound to each element in turn, so the test sees the element
    have hholds : (fun e => (Test.hasPart (name ++ "_item") value).holds I
        (env.bind (name ++ "_item") (.value e))) = fun e =>
          pure (I.contains (I.lower e) (I.lower (I.text value))) := by
      funext e
      simp [Test.holds, Env.bind, pure]
    simp only [Binding.itemName] at hitem
    simp only [Binding.toLet, Binding.itemName, Subquery.results, hitem, hpath, hholds,
      List.mapM_pure]
    exact congrArg some (take_one_hits _ _)

/-! ## Running the bindings -/

/-- The bindings can be run in a scope: names are new, paths start from variables of the scope, and
the item names collide with nothing. -/
structure Runnable (env : Env V) (assign : String → V) (bs : List Binding) : Prop where
  nodup : (bs.map Binding.name).Nodup
  new : ∀ b ∈ bs, env b.name = none
  newItem : ∀ b ∈ bs, env b.itemName = none ∧ ∀ b' ∈ bs, b.itemName ≠ b'.name
  identifier : ∀ b ∈ bs, IsIdentifier b.name
  dotted : ∀ b ∈ bs, IsDottedPath b.path
  root : ∀ b ∈ bs, env (pathRoot b.path) = some (.value (assign (pathRoot b.path)))

/-- A path that starts from a variable of the scope leads to its value. -/
theorem valueAt_of_root {I : Interpretation V} {env : Env V} {assign : String → V} {path : String}
    (hpath : IsDottedPath path) (hroot : env (pathRoot path) = some (.value (assign (pathRoot path)))) :
    env.valueAt I path = some (I.valueOf assign path) := by
  obtain ⟨attributes, hsteps⟩ := steps_eq_cons hpath
  simp [Env.valueAt, Interpretation.valueOf, hsteps, hroot]

theorem IsIdentifier.itemName {b : Binding} (h : IsIdentifier b.name) :
    IsIdentifier b.itemName :=
  h.append (List.all_eq_true.1 (by decide))

theorem Binding.wellFormed_toLet {b : Binding} (hname : IsIdentifier b.name)
    (hpath : IsDottedPath b.path) : b.toLet.WellFormed := by
  refine ⟨hname, ?_⟩
  obtain ⟨name, test, path, value⟩ := b
  cases test with
  | has | lacks => exact hpath
  | contains => exact ⟨IsIdentifier.itemName hname, hpath, IsIdentifier.itemName hname⟩

/-- After one binding has run, the others can still be run. -/
theorem Runnable.tail {env : Env V} {assign : String → V} {b : Binding} {bs : List Binding}
    (h : Runnable env assign (b :: bs)) (result : Bound V) :
    Runnable (env.bind b.name result) assign bs := by
  have hother : ∀ {name : String}, name ≠ b.name → env.bind b.name result name = env name :=
    fun hne => Function.update_of_ne hne _ _
  have hnames := List.nodup_cons.1 h.nodup
  refine ⟨hnames.2, ?_, ?_, ?_, ?_, ?_⟩
  · intro b' hb'
    have hne : b'.name ≠ b.name := fun heq => hnames.1 (heq ▸ List.mem_map_of_mem hb')
    rw [hother hne, h.new b' (List.mem_cons_of_mem b hb')]
  · intro b' hb'
    obtain ⟨hnone, hitem⟩ := h.newItem b' (List.mem_cons_of_mem b hb')
    rw [hother (hitem b List.mem_cons_self)]
    exact ⟨hnone, fun b'' hb'' => hitem b'' (List.mem_cons_of_mem b hb'')⟩
  · exact fun b' hb' => h.identifier b' (List.mem_cons_of_mem b hb')
  · exact fun b' hb' => h.dotted b' (List.mem_cons_of_mem b hb')
  · intro b' hb'
    have hroot := h.root b' (List.mem_cons_of_mem b hb')
    -- the root holds a value already, and the bound name is new
    have hne : pathRoot b'.path ≠ b.name := by
      intro heq
      rw [heq, h.new b List.mem_cons_self] at hroot
      cases hroot
    rw [hother hne, hroot]

/-- Bindings that can be run do run, in whatever order they stand; afterwards every name is bound to
the outcome of its own test, and nothing else has changed. -/
theorem runs_bindings [DecidableEq V] {I : Interpretation V} {env : Env V} {assign : String → V}
    {bs : List Binding} (h : Runnable env assign bs) :
    ∃ env', Runs I (bs.map Binding.text) env env' ∧
      (∀ b ∈ bs, env' b.name = some (.results (b.ones I (I.valueOf assign b.path)))) ∧
      ∀ name, name ∉ bs.map Binding.name → env' name = env name := by
  -- what one binding leaves is a scope in which the others can run
  induction bs generalizing env with
  | nil => exact ⟨env, .nil env, by simp, fun _ _ => rfl⟩
  | cons b bs ih =>
    set ones := b.ones I (I.valueOf assign b.path) with hones
    obtain ⟨env', hrun, hbound, hother⟩ := ih (h.tail (.results ones))
    have hpath := valueAt_of_root (I := I) (h.dotted b List.mem_cons_self)
      (h.root b List.mem_cons_self)
    have hresults := Binding.results_toLet hpath (h.newItem b List.mem_cons_self).1
    have hform := Binding.wellFormed_toLet (h.identifier b List.mem_cons_self)
      (h.dotted b List.mem_cons_self)
    have hname := (List.nodup_cons.1 h.nodup).1
    refine ⟨env', .cons b.toLet hform b.text_toLet (h.new b List.mem_cons_self) hresults hrun,
      ?_, ?_⟩
    · intro b' hb'
      rcases List.mem_cons.1 hb' with rfl | hb'
      · rw [hother _ hname, Env.bind, Function.update_self]
      · exact hbound b' hb'
    · intro name hmem
      rw [List.map_cons, List.mem_cons, not_or] at hmem
      rw [hother name hmem.2, Env.bind, Function.update_of_ne hmem.1]

/-! ## The conditions of a clause -/

/-- What a located filter becomes says what the filter means, in a scope where its path leads to a
value and the name of its binding, if it has one, is bound to the outcome of the test. -/
theorem Becomes.holds [DecidableEq V] {I : Interpretation V} {env : Env V} {l : Located}
    {c : Compiled} {v : V} (h : Becomes l c) (hpath : IsDottedPath l.path)
    (hvalue : env.valueAt I l.path = some v)
    (hbinding : ∀ b ∈ c.binding, IsIdentifier b.name ∧ env b.name = some (.results (b.ones I v))) :
    Holds I env c.term.condition.text (l.filter.passes I v) := by
  cases h with
  | @compare operand hcategory hoperand =>
    have hpasses : l.filter.passes I v =
        I.compares v l.filter.operator.symbol operand.text := by
      cases hop : l.filter.operator with
      | generic c | date c =>
        rw [hop] at hoperand
        simp only [Filter.passes, hop, hoperand]
      | array t => simp [hop, Operator.category] at hcategory
    rw [hpasses]
    exact .compare hpath (Operator.notMem_symbol (by decide) _) rfl hvalue
  | @test test name hop =>
    obtain ⟨hname, hresult⟩ := hbinding _ rfl
    have hholds := Holds.nonempty (I := I) hname rfl hresult
    have hones : decide (0 < (Binding.ones I v ⟨name, test, l.path, l.filter.value⟩).length) =
        l.filter.passes I v := by
      simp only [Binding.ones, Filter.passes, hop]
      by_cases hpasses : test.passes I v l.filter.value = true <;> simp [hpasses]
    rw [hones] at hholds
    exact hholds

/-- A condition contains a blank, so it is not a reserved word. -/
theorem Query.Holds.notMem_reservedWords {I : Interpretation V} {env : Env V} {text : String} {b : Bool}
    (h : Holds I env text b) : text ∉ reservedWords := by
  apply FilterClause.notMem_reservedWords
  cases h with
  | compare hpath hsymbol htext hvalue => simp [← htext]
  | nonempty hname htext hresults => simp [← htext]

/-- Runs whose terms are replaced by their values have the value that the values of the terms give. -/
theorem all_orRuns_map {α : Type} (f : α → Bool) (terms : List (Term α)) :
    ((orRuns (terms.map (Term.map f))).all fun run => run.any Term.condition) =
      (orRuns terms).all fun run => run.any fun t => f t.condition := by
  rw [orRuns_map, List.all_map]
  congr 1
  funext run
  exact List.any_map

/-! ## The clause as a whole -/

section

variable {anchor : Anchor} {fields : FieldMap} {filters : List Filter} {cs : List Compiled}
  {names : Names}

/-- The bindings of a compiled clause can be run where only the roots of its paths are declared. -/
theorem runnable_bindings (hcompiles : List.Forall₂ (Compiles anchor fields) filters cs)
    (hissues : names.Issues (bindingNames cs)) (htaken : names.taken = anchor.reserved fields)
    (hpaths : ∀ f ∈ filters, ∀ mapped, fields.get? f.field = some mapped → IsDottedPath mapped)
    (hloop : ∀ loopVar, anchor = .relative loopVar → IsIdentifier loopVar)
    (hsupply : ∀ i, IsIdentifier (names.supply.name i))
    (hitems : ∀ b ∈ (Clause.ofCompiled cs).bindings, b.itemName ∉ anchor.reserved fields ∧
      ∀ b' ∈ (Clause.ofCompiled cs).bindings, b.itemName ≠ b'.name) (assign : String → V) :
    Runnable (Env.ofRoots (anchor.reserved fields) assign) assign
      (Clause.ofCompiled cs).bindings := by
  have hname : ∀ b ∈ (Clause.ofCompiled cs).bindings, b.name ∈ bindingNames cs := by
    intro b hb
    rw [← List.mem_reverse, ← map_name_bindings_ofCompiled]
    exact List.mem_map_of_mem hb
  have hpath : ∀ b ∈ (Clause.ofCompiled cs).bindings,
      IsDottedPath b.path ∧ pathRoot b.path ∈ anchor.reserved fields := by
    intro b hb
    obtain ⟨c, hc, hcb⟩ := mem_bindings_ofCompiled.1 hb
    obtain ⟨f, hf, hfc⟩ := exists_mem_of_forall₂ hcompiles hc
    obtain ⟨mapped, hmapped, hbpath⟩ := hfc.path_binding hcb
    have hdotted := hpaths f hf mapped hmapped
    rw [hbpath]
    exact ⟨hdotted.attach hloop, pathRoot_attach_mem_reserved hmapped hdotted hloop⟩
  refine ⟨?_, ?_, ?_, ?_, fun b hb => (hpath b hb).1, ?_⟩
  · rw [map_name_bindings_ofCompiled]
    exact List.nodup_reverse.2 hissues.nodup
  · intro b hb
    have hnew : b.name ∉ anchor.reserved fields := htaken ▸ hissues.notMem b.name (hname b hb)
    rw [Env.ofRoots, if_neg hnew]
  · intro b hb
    obtain ⟨hreserved, hnames⟩ := hitems b hb
    exact ⟨by rw [Env.ofRoots, if_neg hreserved], hnames⟩
  · intro b hb
    obtain ⟨i, hi⟩ := hissues.supplied b.name (hname b hb)
    exact hi ▸ hsupply i
  · intro b hb
    rw [Env.ofRoots, if_pos (hpath b hb).2]

/-- In a scope that the bindings leave, every condition says what its filter means. -/
theorem Compiles.holds [DecidableEq V] {I : Interpretation V} {assign : String → V} {env : Env V}
    {f : Filter} {c : Compiled} (h : Compiles anchor fields f c)
    (hpath : ∀ mapped, fields.get? f.field = some mapped → IsDottedPath mapped)
    (hloop : ∀ loopVar, anchor = .relative loopVar → IsIdentifier loopVar)
    (hroots : ∀ root ∈ anchor.reserved fields, env root = some (.value (assign root)))
    (hbinding : ∀ b ∈ c.binding, IsIdentifier b.name ∧
      env b.name = some (.results (b.ones I (I.valueOf assign b.path)))) :
    Holds I env c.term.condition.text (anchor.outcome I fields assign f) := by
  obtain ⟨l, ⟨rfl, mapped, hmapped, hl⟩, hbecomes⟩ := h
  have hdotted := hpath mapped hmapped
  have hroot := hroots _ (pathRoot_attach_mem_reserved hmapped hdotted hloop)
  have hvalue := valueAt_of_root (I := I) (hdotted.attach hloop) hroot
  rw [← hl] at hvalue
  have hbound : ∀ b ∈ c.binding, IsIdentifier b.name ∧
      env b.name = some (.results (b.ones I (I.valueOf assign l.path))) := by
    intro b hb
    have hbpath : b.path = l.path := by
      cases hbecomes with
      | compare hcategory hoperand => cases hb
      | test name hop =>
        rw [Option.mem_some_iff] at hb
        rw [← hb]
    exact hbpath ▸ hbinding b hb
  have hholds := hbecomes.holds (hl ▸ hdotted.attach hloop) hvalue hbound
  rw [hl] at hholds
  simp only [Anchor.outcome, hmapped]
  exact hholds

/-- Terms whose conditions say what their filters mean have the joiners and the values of the filters. -/
theorem map_terms_eq {f : Filter → Bool} {g : String → Bool}
    (h : List.Forall₂ (fun f' c => c.term.joiner = f'.joiner ∧ g c.term.condition.text = f f')
      filters cs) :
    ((cs.map Compiled.term).map (Term.map Condition.text)).map (Term.map g) =
      (filters.map Filter.toTerm).map (Term.map f) := by
  induction h with
  | nil => rfl
  | cons hhead htail ih =>
    simp only [List.map_cons, ih, Term.map, Filter.toTerm, hhead.1, hhead.2]

end

/-- In a scope every text has an outcome, which is what it says if it is a condition. -/
theorem exists_outcome (I : Interpretation V) (env : Env V) :
    ∃ outcome : String → Bool, ∀ {text : String} {b : Bool}, Holds I env text b →
      outcome text = b := by
  classical
  refine ⟨fun text => decide (Holds I env text true), fun {text b} hb => ?_⟩
  cases b with
  | true => exact decide_eq_true hb
  | false => exact decide_eq_false fun htrue => Bool.noConfusion (htrue.unique hb)

/-- Terms that are conditions pass with the value that their grouping gives to their outcomes. -/
theorem passes_of_holds [DecidableEq V] {I : Interpretation V} {env env' : Env V}
    {bindings : List String} {terms : List (Term String)} {outcome : String → Bool}
    (hrun : Runs I bindings env env') (hne : terms ≠ [])
    (hterms : ∀ t ∈ terms, Holds I env' t.condition (outcome t.condition)) :
    Passes I env bindings (groupTexts terms)
      ((orRuns terms).all fun run => run.any fun t => outcome t.condition) := by
  obtain ⟨e, he, hvalue⟩ := reads_group hne
  refine ⟨env', e, outcome, hrun, ?_, ?_, hvalue outcome⟩
  · rw [map_ofText_groupTexts fun t ht => (hterms t ht).notMem_reservedWords]
    exact he
  · intro c hc
    obtain ⟨t, ht, rfl⟩ := term_mem_group.1 (he.mem_terms.1 hc)
    exact hterms t ht

/-- A compiled clause says what its filters mean: its bindings run, and for every value of the
variables that its paths start from, its filter expression has the value of the filter list. -/
theorem compile_passes_iff [DecidableEq V] (I : Interpretation V) {fields : FieldMap}
    {anchor : Anchor} {supply : NameSupply} {filters : List Filter} {clause : Clause}
    {after : Compiler}
    (hcompile : (Compiler.new fields anchor supply).compile filters = (.ok clause, after))
    (hne : filters ≠ [])
    (hpaths : ∀ f ∈ filters, ∀ mapped, fields.get? f.field = some mapped → IsDottedPath mapped)
    (hloop : ∀ loopVar, anchor = .relative loopVar → IsIdentifier loopVar)
    (hsupply : ∀ i, IsIdentifier (supply.name i))
    (hitems : ∀ b ∈ clause.bindings, b.itemName ∉ anchor.reserved fields ∧
      ∀ b' ∈ clause.bindings, b.itemName ≠ b'.name) (assign : String → V) (b : Bool) :
    Passes I (Env.ofRoots (anchor.reserved fields) assign) (clause.bindings.map Binding.text)
        (groupTexts (clause.terms.map (Term.map Condition.text))) b ↔
      b = anchor.accepts I fields assign filters := by
  obtain ⟨cs, (hcompiles : List.Forall₂ (Compiles anchor fields) filters cs), hissues, rfl⟩ :=
    Compiler.compile_ok hcompile
  have hrunnable := runnable_bindings hcompiles hissues rfl hpaths hloop hsupply hitems assign
  obtain ⟨env, hrun, hbound, hother⟩ := runs_bindings (I := I) hrunnable
  -- the bindings leave the roots of the paths alone
  have hroots : ∀ root ∈ anchor.reserved fields, env root = some (.value (assign root)) := by
    intro root hroot
    rw [hother root ?_, Env.ofRoots, if_pos hroot]
    intro hmem
    obtain ⟨b, hb, rfl⟩ := List.mem_map.1 hmem
    have hnew := hrunnable.new b hb
    rw [Env.ofRoots, if_pos hroot] at hnew
    cases hnew
  have hholds : List.Forall₂ (fun f c => c.term.joiner = f.joiner ∧
      Holds I env c.term.condition.text (anchor.outcome I fields assign f)) filters cs := by
    refine forall₂_of_mem hcompiles fun f hf c hc hfc => ?_
    refine ⟨hfc.joiner_eq, hfc.holds (hpaths f hf) hloop hroots fun b hb => ?_⟩
    have hmem : b ∈ (Clause.ofCompiled cs).bindings := mem_bindings_ofCompiled.2 ⟨c, hc, hb⟩
    exact ⟨hrunnable.identifier b hmem, hbound b hmem⟩
  -- conditions are valued by what they say, which is what their filters mean
  obtain ⟨outcome, houtcome⟩ := exists_outcome I env
  set terms := (cs.map Compiled.term).map (Term.map Condition.text) with hterms
  have hmap : terms.map (Term.map outcome) =
      (filters.map Filter.toTerm).map (Term.map (anchor.outcome I fields assign)) :=
    map_terms_eq (hholds.imp fun f c h => ⟨h.1, houtcome h.2⟩)
  have htermsne : terms ≠ [] := by
    intro hnil
    rw [hnil, List.map_nil, eq_comm, List.map_eq_nil_iff, List.map_eq_nil_iff] at hmap
    exact hne hmap
  have hconditions : ∀ t ∈ terms, Holds I env t.condition (outcome t.condition) := by
    intro t ht
    rw [hterms, List.map_map] at ht
    obtain ⟨c, hc, rfl⟩ := List.mem_map.1 ht
    obtain ⟨f, hf, hfc⟩ := exists_mem_of_forall₂ hholds hc
    exact (houtcome hfc.2).symm ▸ hfc.2
  have hpasses := passes_of_holds hrun htermsne hconditions
  rw [← all_orRuns_map, hmap, all_orRuns_map] at hpasses
  exact ⟨fun h => h.unique hpasses, fun h => h ▸ hpasses⟩

/-- Values that are lists of words: an attribute of such a list has what follows its name and a
colon. -/
def Query.Interpretation.words : Interpretation (List String) where
  get v a := v.filterMap fun w =>
    (w.toList.dropPrefix? (a ++ ":").toList).map String.ofList
  elements v := v.map ([·])
  text t := [t]
  lower v := v
  contains v w := v = w
  compares v _ operand := v = [operand]

/-- With the tags red and new a document passes, whatever age it has: one tag contains red, so the
first run holds, and none of them is old. -/
theorem compile_passes_iff_tags :
    let fields := FieldMap.ofList [("tag", "tags"), ("age", "person.age")]
    let filters : List Filter := [⟨"tag", .array .contains, "red", some .or⟩,
      ⟨"age", .generic .gt, "30", some .and⟩, ⟨"tag", .array .lacks, "old", none⟩]
    let compiler := Compiler.new fields (.relative "doc") (NameSupply.sequential "tmp")
    let clause : Clause := ⟨[⟨"tmp1", .lacks, "doc.tags", "old"⟩,
        ⟨"tmp0", .contains, "doc.tags", "red"⟩],
      [⟨.nonempty "tmp0", some .or⟩, ⟨.compare "doc.person.age" ">" (.bare "30"), some .and⟩,
        ⟨.nonempty "tmp1", none⟩]⟩
    (compiler.compile filters).1 = .ok clause ∧ ∀ b,
      Passes .words (Env.ofRoots ["doc"] fun _ => ["tags:red", "tags:new"])
        (clause.bindings.map Binding.text)
        (groupTexts (clause.terms.map (Term.map Condition.text))) b ↔ b = true := by
  intro fields filters compiler clause
  have hcompile : compiler.compile filters = (.ok clause, (compiler.compile filters).2) :=
    Prod.ext (by decide +kernel) rfl
  have hsupply : ∀ i, IsIdentifier ((NameSupply.sequential "tmp").name i) :=
    isIdentifier_sequential (by decide)
  have hiff := compile_passes_iff .words hcompile (by decide) (by decide +kernel)
    (fun loopVar h => by cases h; decide) hsupply (by decide +kernel)
    (fun _ => ["tags:red", "tags:new"])
  have haccepts : Anchor.accepts .words (.relative "doc") fields
      (fun _ => ["tags:red", "tags:new"]) filters = true := by decide +kernel
  refine ⟨congrArg Prod.fst hcompile, fun b => ?_⟩
  rw [← haccepts]
  exact hiff b

end FilterClause
