import FilterClause.Proofs.Compiling

/-!
# The shape of a clause

A clause has one term for each filter, in order, and one binding for each list test, the newest first:
the binding of the `i`-th of `m` list tests stands at place `m - i` (`Clause.IsShaped`). Its text has the
value of the filter as one quoted literal (`Binding.text_eq_letText`).

Only names are left open by a filter list and its paths. They make a template (`Anchor.template`), which
the names that the compiler issues fill in the order in which they are drawn (`compileAll_eq_fillAll`).
So two clauses of one filter list differ by a renaming, whichever supplies their names come from
(`compile_template`).
-/

namespace FilterClause

/-! ## Templates -/

/-- A condition in which the name of a list test is left open. -/
inductive Slot
  | compare (path symbol : String) (operand : Operand)
  | test (test : Membership) (path value : String)
  deriving DecidableEq, Repr

/-- The term of a located filter, without a name. -/
def Located.slot (l : Located) : Term Slot where
  condition :=
    match l.filter.operator with
    | .generic c => .compare l.path c.symbol (c.operand l.filter.value)
    | .date c => .compare l.path c.symbol (.date l.filter.value)
    | .array test => .test test l.path l.filter.value
  joiner := l.filter.joiner

/-- The terms of a filter list, without names. -/
def Anchor.template (anchor : Anchor) (fields : FieldMap) (filters : List Filter) :
    List (Term Slot) :=
  filters.filterMap fun f =>
    (fields.get? f.field).map fun mapped => Located.slot ⟨f, anchor.attach mapped⟩

/-- The list tests of a template under names that are given in order, and its comparisons as they
are. -/
def fillAll : List (Term Slot) → List String → List Compiled
  | [], _ => []
  | ⟨.compare path symbol operand, joiner⟩ :: slots, names =>
    ⟨⟨.compare path symbol operand, joiner⟩, none⟩ :: fillAll slots names
  | ⟨.test test path value, joiner⟩ :: slots, name :: names =>
    ⟨⟨.nonempty name, joiner⟩, some ⟨name, test, path, value⟩⟩ :: fillAll slots names
  | ⟨.test _ _ _, _⟩ :: _, [] => []

/-- The clause that names make of a template. -/
def Clause.ofTemplate (template : List (Term Slot)) (names : List String) : Clause :=
  .ofCompiled (fillAll template names)

/-! ## Renamings -/

/-- A condition with its name replaced. -/
def Condition.rename (σ : String → String) : Condition → Condition
  | .compare path symbol operand => .compare path symbol operand
  | .nonempty name => .nonempty (σ name)

/-- A binding with its name replaced. -/
def Binding.rename (σ : String → String) (b : Binding) : Binding :=
  { b with name := σ b.name }

/-- A clause with the names of its bindings replaced. -/
def Clause.rename (σ : String → String) (c : Clause) : Clause where
  bindings := c.bindings.map (Binding.rename σ)
  terms := c.terms.map (Term.map (Condition.rename σ))

/-- Other names in a template are a renaming of the clause. -/
theorem fillAll_map (σ : String → String) (slots : List (Term Slot)) (names : List String) :
    fillAll slots (names.map σ) = (fillAll slots names).map fun c =>
      ⟨c.term.map (Condition.rename σ), c.binding.map (Binding.rename σ)⟩ := by
  fun_induction fillAll slots names with
  | case1 => rfl
  | case2 path symbol operand joiner slots names ih =>
    rw [fillAll, ih]
    rfl
  | case3 test path value joiner slots name names ih =>
    rw [List.map_cons, fillAll, ih]
    rfl
  | case4 => rfl

theorem Clause.ofTemplate_map (σ : String → String) (template : List (Term Slot))
    (names : List String) :
    Clause.ofTemplate template (names.map σ) = (Clause.ofTemplate template names).rename σ := by
  simp only [ofTemplate, ofCompiled, rename, fillAll_map, List.filterMap_map, List.map_map,
    List.map_reverse, List.map_filterMap]
  rfl

/-- Distinct names can be replaced by any others, each by its own. -/
theorem exists_map_eq_of_nodup {names names' : List String} (hnodup : names.Nodup)
    (hlength : names'.length = names.length) : ∃ σ : String → String, names.map σ = names' := by
  refine ⟨fun name => names'.getD (names.idxOf name) "", ?_⟩
  refine List.ext_getElem (by rw [List.length_map, hlength]) fun i hi hi' => ?_
  rw [List.getElem_map, hnodup.idxOf_getElem, List.getD_eq_getElem?_getD,
    List.getElem?_eq_getElem hi', Option.getD_some]

/-! ## Compiling fills the template -/

/-- A date is written as it is given. -/
theorem eq_date_of_dateOperand {value : String} {operand : Operand}
    (h : dateOperand value = .ok operand) : operand = .date value := by
  rw [dateOperand] at h
  split at h
  · exact (Except.ok.inj h).symm
  · cases h

/-- A compiled filter is its term with the name that was drawn for it, if any. -/
theorem Located.fillAll_slot {l : Located} {names later : Names} {c : Compiled}
    (h : l.compile names = (.ok c, later)) (slots : List (Term Slot)) (more : List String) :
    fillAll (l.slot :: slots) (c.names ++ more) = c :: fillAll slots more := by
  cases hop : l.filter.operator with
  | generic comparison =>
    simp only [Located.compile, hop, Prod.mk.injEq, Except.ok.injEq] at h
    rw [← h.1]
    simp only [Located.slot, hop]
    rfl
  | date comparison =>
    cases hdate : dateOperand l.filter.value with
    | error e => simp [Located.compile, hop, hdate] at h
    | ok operand =>
      obtain rfl := eq_date_of_dateOperand hdate
      simp only [Located.compile, hop, hdate, Prod.mk.injEq, Except.ok.injEq] at h
      rw [← h.1]
      simp only [Located.slot, hop]
      rfl
  | array test =>
    cases hfresh : names.fresh? with
    | mk drawn later' =>
      cases drawn with
      | none => simp [Located.compile, hop, hfresh] at h
      | some name =>
        simp only [Located.compile, hop, hfresh, Prod.mk.injEq, Except.ok.injEq] at h
        rw [← h.1]
        simp only [Located.slot, hop]
        rfl

/-- Compiled filters are their template with the names of their bindings. -/
theorem compileAll_eq_fillAll {ls : List Located} {names later : Names} {cs : List Compiled}
    (h : compileAll ls names = (.ok cs, later)) :
    cs = fillAll (ls.map Located.slot) (bindingNames cs) := by
  induction ls generalizing names cs with
  | nil =>
    simp only [compileAll, Prod.mk.injEq, Except.ok.injEq] at h
    rw [← h.1]
    rfl
  | cons l ls ih =>
    obtain ⟨c, cs', after, hc, hrest, rfl⟩ := exists_of_compileAll_cons h
    rw [bindingNames_cons, List.map_cons, Located.fillAll_slot hc, ← ih hrest]

theorem Names.takenSince_eq {earlier later : Names} {issued : List String}
    (h : later.taken = issued.reverse ++ earlier.taken) : earlier.takenSince later = issued := by
  rw [Names.takenSince, h, List.length_append, Nat.add_sub_cancel, List.take_left,
    List.reverse_reverse]

/-- Located filters are those of the template. -/
theorem map_slot_of_locate {anchor : Anchor} {fields : FieldMap} {filters : List Filter}
    {located : List Located} (h : anchor.locate fields filters = .ok located) :
    located.map Located.slot = anchor.template fields filters := by
  rw [Anchor.locate] at h
  split at h
  · rw [Except.ok.injEq] at h
    rw [← h, Anchor.template, List.map_filterMap]
    simp only [Option.map_map]
    rfl
  · cases h

/-! ## The places of terms and bindings -/

/-- A filter that tests a list. -/
def Filter.isListTest (f : Filter) : Bool :=
  f.operator.category = .array

/-- The number of list tests among filters. -/
def listTests (filters : List Filter) : ℕ :=
  filters.countP Filter.isListTest

/-- The lines of the subquery that tests the list at a path for a literal. -/
def Membership.subqueryLines (name path literal : String) : Membership → List String
  | .has => ["FILTER " ++ literal ++ " IN " ++ path ++ "[*]", "RETURN 1"]
  | .lacks => ["FILTER " ++ literal ++ " NOT IN " ++ path ++ "[*]", "RETURN 1"]
  | .contains =>
    ["FOR " ++ name ++ "_item IN " ++ path ++ "[*]",
      "    FILTER CONTAINS(LOWER(" ++ name ++ "_item), LOWER(" ++ literal ++ "))", "    LIMIT 1",
      "    RETURN 1"]

/-- The `LET` of a list test, from its name, its path and its literal alone. -/
def Membership.letText (name path literal : String) (test : Membership) : String :=
  "\n".intercalate (["LET " ++ name ++ " = ("] ++
    (test.subqueryLines name path literal).map ("    " ++ ·) ++ [")"])

/-- The value of a binding is spelled as one literal, whatever it holds. -/
theorem Binding.text_eq_letText (b : Binding) :
    b.text = b.test.letText b.name b.path (quote b.value) := by
  obtain ⟨name, test, path, value⟩ := b
  rw [← String.toList_inj]
  cases test with
  | has => simp [Binding.text, Membership.letText, Membership.subqueryLines]
  | lacks => simp [Binding.text, Membership.letText, Membership.subqueryLines]
  | contains => simp [Binding.text, Membership.letText, Membership.subqueryLines]

/-- The clause has a term for each filter, in order and with its joiner. Those of comparisons are
spelled with their paths, symbols and rendered values. A list test that `i` others come before gets the
name number `i`, its term says that the list of this name is not empty, and its binding stands at place
`m - (i + 1)` of the `m` bindings, spelled with the name, the test, the path and the quoted value. -/
structure Clause.IsShaped (anchor : Anchor) (fields : FieldMap) (filters : List Filter)
    (names : List String) (clause : Clause) : Prop where
  length_terms : clause.terms.length = filters.length
  length_bindings : clause.bindings.length = listTests filters
  length_names : names.length = listTests filters
  compare : ∀ (k : ℕ) f, filters[k]? = some f → f.isListTest = false → ∃ mapped rendered,
    fields.get? f.field = some mapped ∧ f.operator.operandText f.value = .ok rendered ∧
      (clause.terms.map (Term.map Condition.text))[k]? =
        some ⟨anchor.attach mapped ++ " " ++ f.operator.symbol ++ " " ++ rendered, f.joiner⟩
  test : ∀ (k : ℕ) f test, filters[k]? = some f → f.operator = .array test → ∃ mapped name,
    fields.get? f.field = some mapped ∧ names[listTests (filters.take k)]? = some name ∧
      (clause.terms.map (Term.map Condition.text))[k]? =
        some ⟨"LENGTH(" ++ name ++ ") > 0", f.joiner⟩ ∧
      clause.bindings[listTests filters - (listTests (filters.take k) + 1)]? =
        some ⟨name, test, anchor.attach mapped, f.value⟩ ∧
      (clause.bindings.map Binding.text)[listTests filters - (listTests (filters.take k) + 1)]? =
        some (test.letText name (anchor.attach mapped) (quote f.value))

/-- What a list keeps of a member stands behind what it keeps of those before. -/
theorem getElem?_filterMap_countP {α β : Type} {g : α → Option β} {l : List α} {k : ℕ} {a : α} {b : β}
    (hk : l[k]? = some a) (hb : g a = some b) :
    (l.filterMap g)[(l.take k).countP fun x => (g x).isSome]? = some b := by
  induction l generalizing k with
  | nil => cases hk
  | cons x l ih =>
    cases k with
    | zero =>
      rw [List.getElem?_cons_zero, Option.some.injEq] at hk
      rw [List.filterMap_cons, hk, hb]
      rfl
    | succ k =>
      have hrest := ih hk
      cases hx : g x with
      | none => simpa [hx] using hrest
      | some y => simpa [hx] using hrest

/-- Lists whose members agree pointwise on a property have it equally often. -/
theorem countP_eq_of_forall₂ {α β : Type} {p : α → Bool} {q : β → Bool} {as : List α} {bs : List β}
    (h : List.Forall₂ (fun a b => p a = q b) as bs) : as.countP p = bs.countP q := by
  have hmap := congrArg (List.countP id) (map_eq_of_forall₂ h)
  rwa [List.countP_map, List.countP_map] at hmap

section Compiled

variable {anchor : Anchor} {fields : FieldMap} {filters : List Filter} {cs : List Compiled}

/-- Filters that test a list get a binding, and no others. -/
theorem Compiles.isSome_binding {f : Filter} {c : Compiled} (h : Compiles anchor fields f c) :
    f.isListTest = c.binding.isSome := by
  obtain ⟨l, ⟨rfl, -⟩, hbecomes⟩ := h
  cases hbecomes with
  | compare hcategory _ => exact decide_eq_false hcategory
  | test name hop =>
    rw [Filter.isListTest, hop]
    rfl

theorem listTests_eq_countP (h : List.Forall₂ (Compiles anchor fields) filters cs) :
    listTests filters = cs.countP fun c => c.binding.isSome :=
  countP_eq_of_forall₂ (h.imp fun _ _ hfc => hfc.isSome_binding)

theorem length_filterMap_binding (h : List.Forall₂ (Compiles anchor fields) filters cs) :
    (cs.filterMap Compiled.binding).length = listTests filters := by
  rw [listTests_eq_countP h, List.length_filterMap_eq_countP]

/-- What becomes of a filter stands at its place. -/
theorem exists_compiled_of_getElem? (h : List.Forall₂ (Compiles anchor fields) filters cs) {k : ℕ}
    {f : Filter} (hf : filters[k]? = some f) :
    ∃ c, cs[k]? = some c ∧ Compiles anchor fields f c := by
  obtain ⟨hk, rfl⟩ := List.getElem?_eq_some_iff.1 hf
  have hk' : k < cs.length := h.length_eq ▸ hk
  exact ⟨cs[k], List.getElem?_eq_getElem hk', h.get hk hk'⟩

/-- A clause made of what becomes of filters has its terms and bindings at the places of the filters. -/
theorem isShaped_ofCompiled (h : List.Forall₂ (Compiles anchor fields) filters cs) :
    (Clause.ofCompiled cs).IsShaped anchor fields filters (bindingNames cs) where
  length_terms := by
    rw [Clause.ofCompiled, List.length_map, h.length_eq]
  length_bindings := by
    rw [Clause.ofCompiled, List.length_reverse, length_filterMap_binding h]
  length_names := by
    rw [bindingNames, List.length_map, length_filterMap_binding h]
  compare k f hf hlist := by
    obtain ⟨c, hc, l, ⟨rfl, mapped, hmapped, hpath⟩, hbecomes⟩ := exists_compiled_of_getElem? h hf
    cases hbecomes with
    | @compare operand _ hoperand =>
      refine ⟨mapped, operand.text, hmapped, hoperand, ?_⟩
      rw [← hpath, List.getElem?_map, Clause.ofCompiled, List.getElem?_map, hc]
      rfl
    | test name hop =>
      rw [Filter.isListTest, hop] at hlist
      cases hlist
  test k f test hf hop := by
    obtain ⟨c, hc, hcompiles⟩ := exists_compiled_of_getElem? h hf
    have htake : List.Forall₂ (Compiles anchor fields) (filters.take k) (cs.take k) :=
      List.forall₂_take k h
    obtain ⟨l, ⟨rfl, mapped, hmapped, hpath⟩, hbecomes⟩ := hcompiles
    cases hbecomes with
    | compare hcategory _ =>
      rw [hop] at hcategory
      exact absurd rfl hcategory
    | test name hop' =>
      obtain rfl := Operator.array.inj (hop.symm.trans hop')
      have hbinding := getElem?_filterMap_countP (g := Compiled.binding) hc rfl
      rw [← listTests_eq_countP htake] at hbinding
      have hlt := (List.getElem?_eq_some_iff.1 hbinding).1
      -- counted from the other end, the binding stands behind those of later list tests
      have hplace : (Clause.ofCompiled cs).bindings[listTests filters -
          (listTests (filters.take k) + 1)]? = some ⟨name, test, l.path, l.filter.value⟩ := by
        rw [Clause.ofCompiled, ← length_filterMap_binding h, List.getElem?_reverse (by omega),
          ← hbinding]
        congr 1
        omega
      refine ⟨mapped, name, hmapped, ?_, ?_, hpath ▸ hplace, ?_⟩
      · rw [bindingNames, List.getElem?_map, hbinding]
        rfl
      · rw [List.getElem?_map, Clause.ofCompiled, List.getElem?_map, hc]
        rfl
      · rw [List.getElem?_map, hplace, Option.map_some, Binding.text_eq_letText, hpath]

end Compiled

/-! ## Compiling with any supply of names -/

/-- The names that a new compiler issues for a filter list, in the order in which it draws them. -/
def issuedNames (fields : FieldMap) (anchor : Anchor) (supply : NameSupply)
    (filters : List Filter) : List String :=
  let c := Compiler.new fields anchor supply
  c.names.takenSince (c.compile filters).2.names

section Compile

variable {anchor : Anchor} {fields : FieldMap} {supply : NameSupply} {filters : List Filter}
  {clause : Clause} {after : Compiler}

/-- A new compiler that succeeds makes the clause of what becomes of the filters, and issues the names
of the bindings. -/
theorem exists_compiled_of_new
    (h : (Compiler.new fields anchor supply).compile filters = (.ok clause, after)) :
    ∃ cs, List.Forall₂ (Compiles anchor fields) filters cs ∧ clause = Clause.ofCompiled cs ∧
      issuedNames fields anchor supply filters = bindingNames cs ∧ (bindingNames cs).Nodup ∧
      cs = fillAll (anchor.template fields filters) (bindingNames cs) ∧
      ∃ count, after.names.supply = ⟨supply.name, supply.drawn + count⟩ ∧
        (bindingNames cs).Sublist (supply.take count) := by
  obtain ⟨located, cs, hlocated, hall, rfl⟩ := Compiler.exists_of_compile h
  obtain ⟨hbecomes, hissues⟩ := compileAll_ok hall
  obtain ⟨htaken, hdrawn⟩ := compileAll_issued hall
  have hfill := compileAll_eq_fillAll hall
  have htemplate : located.map Located.slot = anchor.template fields filters :=
    map_slot_of_locate hlocated
  refine ⟨cs, forall₂_comp (Anchor.locate_ok hlocated) hbecomes, rfl, ?_, hissues.nodup,
    htemplate ▸ hfill, hdrawn⟩
  rw [issuedNames, h]
  exact Names.takenSince_eq htaken

/-- A clause is the template of its filter list under the names that were issued for it, whichever
supply these come from: they are distinct and issued in the order of the supply, and each stands in the
term and in the binding of its own list test. With another supply the clause is the same up to its
names. -/
theorem compile_template
    (h : (Compiler.new fields anchor supply).compile filters = (.ok clause, after)) :
    (issuedNames fields anchor supply filters).Nodup ∧
      (∃ count, after.names.supply = ⟨supply.name, supply.drawn + count⟩ ∧
        (issuedNames fields anchor supply filters).Sublist (supply.take count)) ∧
      clause = Clause.ofTemplate (anchor.template fields filters)
        (issuedNames fields anchor supply filters) ∧
      clause.IsShaped anchor fields filters (issuedNames fields anchor supply filters) ∧
      ∀ supply' clause' after',
        (Compiler.new fields anchor supply').compile filters = (.ok clause', after') →
        (issuedNames fields anchor supply' filters).Nodup ∧ ∃ σ : String → String,
          issuedNames fields anchor supply' filters =
            (issuedNames fields anchor supply filters).map σ ∧ clause' = clause.rename σ := by
  obtain ⟨cs, hcs, rfl, hnames, hnodup, hfill, hdrawn⟩ := exists_compiled_of_new h
  have hshape := isShaped_ofCompiled hcs
  rw [hnames]
  refine ⟨hnodup, hdrawn, congrArg Clause.ofCompiled hfill, hshape, ?_⟩
  intro supply' clause' after' h'
  obtain ⟨cs', hcs', rfl, hnames', hnodup', hfill', -⟩ := exists_compiled_of_new h'
  rw [hnames']
  -- both have a name for each list test, so the names of one can be put for those of the other
  have hlength : (bindingNames cs').length = (bindingNames cs).length :=
    (isShaped_ofCompiled hcs').length_names.trans hshape.length_names.symm
  obtain ⟨σ, hσ⟩ := exists_map_eq_of_nodup hnodup hlength
  refine ⟨hnodup', σ, hσ.symm, ?_⟩
  calc Clause.ofCompiled cs'
      = Clause.ofTemplate (anchor.template fields filters) ((bindingNames cs).map σ) := by
        rw [hσ]
        exact congrArg Clause.ofCompiled hfill'
    _ = (Clause.ofTemplate (anchor.template fields filters) (bindingNames cs)).rename σ :=
        Clause.ofTemplate_map σ _ _
    _ = (Clause.ofCompiled cs).rename σ :=
        congrArg (Clause.rename σ ∘ Clause.ofCompiled) hfill.symm

end Compile

/-- Three list tests around a comparison, once with numbered names that pass over the loop variable and
once with a supply that repeats itself. -/
theorem compile_template_three :
    let fields := FieldMap.ofList [("tag", "tags"), ("age", "age")]
    let anchor : Anchor := .relative "tmp0"
    let filters : List Filter := [⟨"tag", .array .has, "red", some .or⟩,
      ⟨"age", .date .ge, "2020-02", some .and⟩, ⟨"tag", .array .lacks, "blue", none⟩,
      ⟨"tag", .array .contains, "een", some .or⟩]
    let supply := NameSupply.sequential "tmp"
    let supply' := NameSupply.cycle ["x", "x", "y", "tmp0", "z"]
    let clause : Clause := ⟨[⟨"tmp3", .contains, "tmp0.tags", "een"⟩,
      ⟨"tmp2", .lacks, "tmp0.tags", "blue"⟩, ⟨"tmp1", .has, "tmp0.tags", "red"⟩],
      [⟨.nonempty "tmp1", some .or⟩, ⟨.compare "tmp0.age" ">=" (.date "2020-02"), some .and⟩,
        ⟨.nonempty "tmp2", none⟩, ⟨.nonempty "tmp3", some .or⟩]⟩
    ((Compiler.new fields anchor supply).compile filters).1 = .ok clause ∧
      issuedNames fields anchor supply filters = ["tmp1", "tmp2", "tmp3"] ∧
      clause.IsShaped anchor fields filters ["tmp1", "tmp2", "tmp3"] ∧
      issuedNames fields anchor supply' filters = ["x", "y", "z"] ∧
      ∃ σ : String → String, ["x", "y", "z"] = ["tmp1", "tmp2", "tmp3"].map σ ∧
        ((Compiler.new fields anchor supply').compile filters).1 = .ok (clause.rename σ) := by
  intro fields anchor filters supply supply' clause
  have hok : ((Compiler.new fields anchor supply).compile filters).1 = .ok clause := by
    decide +kernel
  have hissued : issuedNames fields anchor supply filters = ["tmp1", "tmp2", "tmp3"] := by
    decide +kernel
  have hissued' : issuedNames fields anchor supply' filters = ["x", "y", "z"] := by
    decide +kernel
  obtain ⟨clause', hok'⟩ : ∃ clause',
      ((Compiler.new fields anchor supply').compile filters).1 = .ok clause' :=
    ⟨⟨[⟨"z", .contains, "tmp0.tags", "een"⟩, ⟨"y", .lacks, "tmp0.tags", "blue"⟩,
      ⟨"x", .has, "tmp0.tags", "red"⟩], [⟨.nonempty "x", some .or⟩,
        ⟨.compare "tmp0.age" ">=" (.date "2020-02"), some .and⟩, ⟨.nonempty "y", none⟩,
        ⟨.nonempty "z", some .or⟩]⟩, by decide +kernel⟩
  obtain ⟨-, -, -, hshape, hother⟩ := compile_template (Prod.ext hok rfl)
  obtain ⟨-, σ, hσ, hclause⟩ := hother supply' clause' _ (Prod.ext hok' rfl)
  rw [hissued] at hshape hσ
  rw [hissued'] at hσ
  exact ⟨hok, hissued, hshape, hissued', σ, hσ, hclause ▸ hok'⟩

end FilterClause
