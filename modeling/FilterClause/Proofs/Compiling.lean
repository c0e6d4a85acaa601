import FilterClause.Clause.Compiler
import Mathlib.Data.List.Forall2

/-!
# What compiling does

A compiled filter list has one term for each filter, in order, and one binding for each list test
(`Compiler.compile_ok`): `Locates` says which path a filter gets, `Becomes` what a located filter is
turned into, `Compiles` joins the two, and `Names.Issues` that the names of the bindings are names of
the supply, differ from each other and were not taken before. They are taken afterwards, and drawn in
the order of the filters (`compileAll_issued`).
-/

namespace FilterClause

/-! ## Names -/

namespace Names

/-- The texts are distinct names of the supply that are not taken. -/
structure Issues (names : Names) (issued : List String) : Prop where
  nodup : issued.Nodup
  notMem : ∀ name ∈ issued, name ∉ names.taken
  supplied : ∀ name ∈ issued, ∃ i, names.supply.name i = name

theorem Issues.nil (names : Names) : names.Issues [] where
  nodup := List.nodup_nil
  notMem := by simp
  supplied := by simp

/-- A draw that finds a name finds the first of the next names that is not taken, and moves on behind
it. -/
theorem exists_of_draw_eq_some {draws : ℕ} {names later : Names} {name : String}
    (h : names.draw draws = (some name, later)) : ∃ i < draws,
      (∀ j < i, names.supply.name (names.supply.drawn + j) ∈ names.taken) ∧
      name = names.supply.name (names.supply.drawn + i) ∧ name ∉ names.taken ∧
      later = ⟨⟨names.supply.name, names.supply.drawn + (i + 1)⟩, name :: names.taken⟩ := by
  induction draws generalizing names with
  | zero => simp [draw] at h
  | succ draws ih =>
    simp only [draw] at h
    split at h
    · next hmem =>
      obtain ⟨i, hi, htaken, hname, hnew, hlater⟩ := ih h
      refine ⟨i + 1, Nat.succ_lt_succ hi, fun j hj => ?_, ?_, hnew, ?_⟩
      · cases j with
        | zero => exact hmem
        | succ j =>
          have hj' := htaken j (Nat.lt_of_succ_lt_succ hj)
          rwa [NameSupply.tail, Nat.add_right_comm] at hj'
      · rw [hname, NameSupply.tail, Nat.add_right_comm, Nat.add_assoc]
      · rw [hlater, NameSupply.tail, Nat.add_right_comm, Nat.add_assoc]
    · next hnew =>
      simp only [Prod.mk.injEq, Option.some.injEq] at h
      obtain ⟨rfl, rfl⟩ := h
      exact ⟨0, Nat.succ_pos draws, by simp, rfl, hnew, rfl⟩

/-- A draw that finds no name has met taken ones only. -/
theorem forall_mem_of_draw_eq_none {draws : ℕ} {names later : Names}
    (h : names.draw draws = (none, later)) :
    ∀ j < draws, names.supply.name (names.supply.drawn + j) ∈ names.taken := by
  induction draws generalizing names with
  | zero => simp
  | succ draws ih =>
    simp only [draw] at h
    split at h
    · next hmem =>
      intro j hj
      cases j with
      | zero => exact hmem
      | succ j =>
        have hj' := ih h j (Nat.lt_of_succ_lt_succ hj)
        rwa [NameSupply.tail, Nat.add_right_comm] at hj'
    · simp at h

/-- Names that are issued after a draw, with the drawn one, are names to be issued before it. -/
theorem Issues.cons {draws : Nat} {names later : Names} {name : String} {issued : List String}
    (hdraw : names.draw draws = (some name, later)) (h : later.Issues issued) :
    names.Issues (name :: issued) := by
  obtain ⟨i, -, -, hname, hnew, rfl⟩ := exists_of_draw_eq_some hdraw
  -- after the draw the drawn name is taken too, so no later one equals it
  have hlater : ∀ n ∈ issued, n ∉ name :: names.taken := h.notMem
  refine ⟨?_, ?_, ?_⟩
  · rw [List.nodup_cons]
    exact ⟨fun hmem => hlater name hmem List.mem_cons_self, h.nodup⟩
  · intro n hn
    rcases List.mem_cons.1 hn with rfl | hn
    · exact hnew
    · exact fun hmem => hlater n hn (List.mem_cons_of_mem name hmem)
  · intro n hn
    rcases List.mem_cons.1 hn with rfl | hn
    · exact ⟨_, hname.symm⟩
    · exact h.supplied n hn

end Names

/-! ## Filters one by one -/

/-- The filter with the attribute path of its mapped field. -/
structure Locates (anchor : Anchor) (fields : FieldMap) (f : Filter) (l : Located) : Prop where
  filter : l.filter = f
  path : ∃ mapped, fields.get? f.field = some mapped ∧ l.path = anchor.attach mapped

/-- What a located filter can become: a comparison with its rendered value, or the test of a list
under some name. -/
inductive Becomes (l : Located) : Compiled → Prop
  | compare {operand : Operand} (hcategory : l.filter.operator.category ≠ .array)
      (hoperand : l.filter.operator.operandText l.filter.value = .ok operand.text) :
      Becomes l ⟨⟨.compare l.path l.filter.operator.symbol operand, l.filter.joiner⟩, none⟩
  | test {test : Membership} (name : String) (hop : l.filter.operator = .array test) :
      Becomes l ⟨⟨.nonempty name, l.filter.joiner⟩, some ⟨name, test, l.path, l.filter.value⟩⟩

/-- Locating keeps the filters and finds a path for each. -/
theorem Anchor.locate_ok {anchor : Anchor} {fields : FieldMap} {filters : List Filter}
    {located : List Located} (h : anchor.locate fields filters = .ok located) :
    List.Forall₂ (Locates anchor fields) filters located := by
  rw [Anchor.locate] at h
  split at h
  · next hmissing =>
    rw [FieldMap.missing_eq_nil_iff] at hmissing
    rw [Except.ok.injEq] at h
    subst h
    induction filters with
    | nil => exact .nil
    | cons f filters ih =>
      obtain ⟨mapped, hmapped⟩ := Option.isSome_iff_exists.1 (hmissing f List.mem_cons_self)
      rw [List.filterMap_cons, hmapped]
      exact .cons ⟨rfl, mapped, hmapped, rfl⟩ (ih fun g hg => hmissing g (List.mem_cons_of_mem f hg))
  · cases h

/-- The names of the bindings among compiled filters, in filter order. -/
def bindingNames (cs : List Compiled) : List String :=
  (cs.filterMap Compiled.binding).map Binding.name

/-- The name of a binding, if there is one. -/
def Compiled.names (c : Compiled) : List String :=
  (c.binding.map Binding.name).toList

theorem bindingNames_cons (c : Compiled) (cs : List Compiled) :
    bindingNames (c :: cs) = c.names ++ bindingNames cs := by
  cases hb : c.binding <;> simp [bindingNames, Compiled.names, hb]

/-- All that compiling a located filter can do: make a comparison or refuse its date, and leave the
names alone; draw a name for the test of a list, or find none. -/
inductive Located.Step (l : Located) (names : Names) : Except Error Compiled → Names → Prop
  | compare {operand : Operand} (hcategory : l.filter.operator.category ≠ .array)
      (hoperand : l.filter.operator.operandText l.filter.value = .ok operand.text) :
      Located.Step l names
        (.ok ⟨⟨.compare l.path l.filter.operator.symbol operand, l.filter.joiner⟩, none⟩) names
  | invalidDate {comparison : DateComparison} {e : Error}
      (hop : l.filter.operator = .date comparison) (hdate : dateOperand l.filter.value = .error e) :
      Located.Step l names (.error e) names
  | test {test : Membership} {name : String} {later : Names} (hop : l.filter.operator = .array test)
      (hfresh : names.fresh? = (some name, later)) :
      Located.Step l names
        (.ok ⟨⟨.nonempty name, l.filter.joiner⟩, some ⟨name, test, l.path, l.filter.value⟩⟩) later
  | exhausted {test : Membership} {later : Names} (hop : l.filter.operator = .array test)
      (hfresh : names.fresh? = (none, later)) :
      Located.Step l names (.error (.invalidArgument (.namesExhausted Names.maxDraws))) later

theorem Located.compile_step (l : Located) (names : Names) :
    Located.Step l names (l.compile names).1 (l.compile names).2 := by
  cases hop : l.filter.operator with
  | generic comparison =>
    have hstep : Located.Step l names (.ok ⟨⟨.compare l.path l.filter.operator.symbol
        (comparison.operand l.filter.value), l.filter.joiner⟩, none⟩) names :=
      .compare (by rw [hop]; simp [Operator.category]) (by rw [hop]; rfl)
    rw [hop] at hstep
    simp only [Located.compile, hop]
    exact hstep
  | date comparison =>
    cases hdate : dateOperand l.filter.value with
    | error e =>
      simp only [Located.compile, hop, hdate]
      exact .invalidDate hop hdate
    | ok operand =>
      have hstep : Located.Step l names (.ok ⟨⟨.compare l.path l.filter.operator.symbol operand,
          l.filter.joiner⟩, none⟩) names :=
        .compare (by rw [hop]; simp [Operator.category])
          (by rw [hop, Operator.operandText, hdate]; rfl)
      rw [hop] at hstep
      simp only [Located.compile, hop, hdate]
      exact hstep
  | array test =>
    cases hfresh : names.fresh? with
    | mk drawn later =>
      cases drawn with
      | none =>
        simp only [Located.compile, hop, hfresh]
        exact .exhausted hop hfresh
      | some name =>
        simp only [Located.compile, hop, hfresh]
        exact .test hop hfresh

/-- What compiling one filter does to the names: it issues that of the binding, if there is one, which
is the last of those it draws. -/
theorem Located.issued_of_compile {l : Located} {names later : Names} {c : Compiled}
    (h : l.compile names = (.ok c, later)) : later.taken = c.names.reverse ++ names.taken ∧
      ∃ count, later.supply = ⟨names.supply.name, names.supply.drawn + count⟩ ∧
        c.names.Sublist (names.supply.take count) := by
  have hstep := l.compile_step names
  rw [h] at hstep
  cases hstep with
  | compare => exact ⟨rfl, 0, rfl, List.nil_sublist _⟩
  | test _ hfresh =>
    obtain ⟨i, -, -, rfl, -, rfl⟩ := Names.exists_of_draw_eq_some hfresh
    refine ⟨rfl, i + 1, rfl, ?_⟩
    rw [NameSupply.take, List.range_succ, List.map_append]
    exact List.sublist_append_right _ _

/-- What compiling one filter does, and which names may still be issued after it. -/
theorem Located.compile_ok {l : Located} {names later : Names} {c : Compiled}
    (h : l.compile names = (.ok c, later)) :
    Becomes l c ∧ ∀ cs, later.Issues (bindingNames cs) → names.Issues (bindingNames (c :: cs)) := by
  have hstep := l.compile_step names
  rw [h] at hstep
  cases hstep with
  | compare hcategory hoperand => exact ⟨.compare hcategory hoperand, fun cs hcs => hcs⟩
  | @test test name _ hop hfresh => exact ⟨.test name hop, fun cs hcs => hcs.cons hfresh⟩

/-- Compiling a list succeeds by compiling the first filter, and then the others with the names that
are in use after it. -/
theorem exists_of_compileAll_cons {l : Located} {ls : List Located} {names final : Names}
    {cs : List Compiled} (h : compileAll (l :: ls) names = (.ok cs, final)) :
    ∃ c cs' later, l.compile names = (.ok c, later) ∧ compileAll ls later = (.ok cs', final) ∧
      cs = c :: cs' := by
  simp only [compileAll] at h
  split at h
  · simp at h
  · next c later hc =>
    cases hrest : compileAll ls later with
    | mk result final' =>
      cases result with
      | error e => simp [hrest, Except.map] at h
      | ok cs' =>
        simp only [hrest, Except.map, Prod.mk.injEq, Except.ok.injEq] at h
        obtain ⟨rfl, rfl⟩ := h
        exact ⟨c, cs', later, hc, hrest, rfl⟩

/-- Compiling a list fails on the first filter, or compiles it and fails on the others. -/
theorem compileAll_cons_error {l : Located} {ls : List Located} {names final : Names} {e : Error}
    (h : compileAll (l :: ls) names = (.error e, final)) : l.compile names = (.error e, final) ∨
      ∃ c later, l.compile names = (.ok c, later) ∧ compileAll ls later = (.error e, final) := by
  simp only [compileAll] at h
  split at h
  · next e' later hc =>
    simp only [Prod.mk.injEq, Except.error.injEq] at h
    obtain ⟨rfl, rfl⟩ := h
    exact .inl hc
  · next c later hc =>
    cases hrest : compileAll ls later with
    | mk result final' =>
      cases result with
      | ok cs => simp [hrest, Except.map] at h
      | error e' =>
        simp only [hrest, Except.map, Prod.mk.injEq, Except.error.injEq] at h
        obtain ⟨rfl, rfl⟩ := h
        exact .inr ⟨c, later, hc, hrest⟩

/-- What compiling located filters does. -/
theorem compileAll_ok {ls : List Located} {names later : Names} {cs : List Compiled}
    (h : compileAll ls names = (.ok cs, later)) :
    List.Forall₂ Becomes ls cs ∧ names.Issues (bindingNames cs) := by
  induction ls generalizing names cs with
  | nil =>
    simp only [compileAll, Prod.mk.injEq, Except.ok.injEq] at h
    obtain ⟨rfl, rfl⟩ := h
    exact ⟨.nil, Names.Issues.nil names⟩
  | cons l ls ih =>
    obtain ⟨c, cs', after, hc, hrest, rfl⟩ := exists_of_compileAll_cons h
    obtain ⟨hbecomes, hissues⟩ := Located.compile_ok hc
    obtain ⟨hall, hnames⟩ := ih hrest
    exact ⟨.cons hbecomes hall, hissues cs' hnames⟩

theorem NameSupply.take_add (s : NameSupply) (count more : ℕ) :
    s.take (count + more) = s.take count ++ NameSupply.take ⟨s.name, s.drawn + count⟩ more := by
  simp only [NameSupply.take, List.range_add, List.map_append, List.map_map, Nat.add_assoc]
  rfl

/-- What compiling filters does to the names: it issues those of the bindings, in the order in which
they are drawn. -/
theorem compileAll_issued {ls : List Located} {names later : Names} {cs : List Compiled}
    (h : compileAll ls names = (.ok cs, later)) :
    later.taken = (bindingNames cs).reverse ++ names.taken ∧
      ∃ count, later.supply = ⟨names.supply.name, names.supply.drawn + count⟩ ∧
        (bindingNames cs).Sublist (names.supply.take count) := by
  induction ls generalizing names cs with
  | nil =>
    simp only [compileAll, Prod.mk.injEq, Except.ok.injEq] at h
    obtain ⟨rfl, rfl⟩ := h
    exact ⟨rfl, 0, rfl, List.nil_sublist _⟩
  | cons l ls ih =>
    obtain ⟨c, cs', after, hc, hrest, rfl⟩ := exists_of_compileAll_cons h
    obtain ⟨htaken, count, hsupply, hdrawn⟩ := Located.issued_of_compile hc
    obtain ⟨htaken', count', hsupply', hdrawn'⟩ := ih hrest
    rw [bindingNames_cons]
    refine ⟨?_, count + count', ?_, ?_⟩
    · rw [htaken', htaken, List.reverse_append, List.append_assoc]
    · rw [hsupply', hsupply, Nat.add_assoc]
    · rw [NameSupply.take_add, ← hsupply]
      exact hdrawn.append hdrawn'

/-- Two pointwise relations of lists can be composed. -/
theorem forall₂_comp {α β γ : Type} {R : α → β → Prop} {S : β → γ → Prop} {as : List α} {bs : List β}
    {cs : List γ} (h : List.Forall₂ R as bs) (h' : List.Forall₂ S bs cs) :
    List.Forall₂ (fun a c => ∃ b, R a b ∧ S b c) as cs := by
  induction h generalizing cs with
  | nil =>
    cases h'
    exact .nil
  | cons hr hrest ih =>
    cases h' with
    | cons hs hrest' => exact .cons ⟨_, hr, hs⟩ (ih hrest')

/-- What becomes of a filter, first located and then compiled. -/
def Compiles (anchor : Anchor) (fields : FieldMap) (f : Filter) (c : Compiled) : Prop :=
  ∃ l, Locates anchor fields f l ∧ Becomes l c

/-- Compiling succeeds by locating the filters and compiling what was located. -/
theorem Compiler.exists_of_compile {c after : Compiler} {filters : List Filter} {clause : Clause}
    (h : c.compile filters = (.ok clause, after)) :
    ∃ located cs, c.anchor.locate c.fields filters = .ok located ∧
      compileAll located c.names = (.ok cs, after.names) ∧ clause = Clause.ofCompiled cs := by
  rw [Compiler.compile] at h
  split at h
  · simp at h
  · next located hlocated =>
    cases hall : compileAll located c.names with
    | mk result later =>
      cases result with
      | error e => simp [hall, Except.map] at h
      | ok cs =>
        simp only [hall, Except.map, Prod.mk.injEq, Except.ok.injEq] at h
        obtain ⟨rfl, rfl⟩ := h
        exact ⟨located, cs, hlocated, hall, rfl⟩

/-- A compiled clause is made of what its filters become, under names that were not taken. -/
theorem Compiler.compile_ok {c after : Compiler} {filters : List Filter} {clause : Clause}
    (h : c.compile filters = (.ok clause, after)) :
    ∃ cs, List.Forall₂ (Compiles c.anchor c.fields) filters cs ∧
      c.names.Issues (bindingNames cs) ∧ clause = Clause.ofCompiled cs := by
  obtain ⟨located, cs, hlocated, hall, rfl⟩ := Compiler.exists_of_compile h
  obtain ⟨hbecomes, hnames⟩ := compileAll_ok hall
  exact ⟨cs, forall₂_comp (Anchor.locate_ok hlocated) hbecomes, hnames, rfl⟩

/-- The binding of a compiled filter tests the list at the path of the filter. -/
theorem Compiles.path_binding {anchor : Anchor} {fields : FieldMap} {f : Filter} {c : Compiled}
    {b : Binding} (h : Compiles anchor fields f c) (hb : c.binding = some b) :
    ∃ mapped, fields.get? f.field = some mapped ∧ b.path = anchor.attach mapped := by
  obtain ⟨l, ⟨hfilter, mapped, hmapped, hpath⟩, hbecomes⟩ := h
  cases hbecomes with
  | compare hcategory hoperand => cases hb
  | test name hop =>
    rw [Option.some.injEq] at hb
    exact ⟨mapped, hmapped, by rw [← hb, hpath]⟩

/-- A compiled filter keeps its joiner. -/
theorem Compiles.joiner_eq {anchor : Anchor} {fields : FieldMap} {f : Filter} {c : Compiled}
    (h : Compiles anchor fields f c) : c.term.joiner = f.joiner := by
  obtain ⟨l, ⟨rfl, -⟩, hbecomes⟩ := h
  cases hbecomes with
  | compare hcategory hoperand => rfl
  | test name hop => rfl

/-- Whatever is in the second of two related lists is related to something in the first. -/
theorem exists_mem_of_forall₂ {α β : Type} {R : α → β → Prop} {as : List α} {bs : List β} {b : β}
    (h : List.Forall₂ R as bs) (hb : b ∈ bs) : ∃ a ∈ as, R a b := by
  induction h with
  | nil => cases hb
  | cons hr hrest ih =>
    rcases List.mem_cons.1 hb with rfl | hb
    · exact ⟨_, List.mem_cons_self, hr⟩
    · obtain ⟨a, ha, hab⟩ := ih hb
      exact ⟨a, List.mem_cons_of_mem _ ha, hab⟩

/-- Whatever holds between lists pointwise holds between members at the same place. -/
theorem forall₂_of_mem {α β : Type} {R S : α → β → Prop} {as : List α} {bs : List β}
    (h : List.Forall₂ R as bs) (himp : ∀ a ∈ as, ∀ b ∈ bs, R a b → S a b) : List.Forall₂ S as bs := by
  rw [List.forall₂_iff_zip] at h ⊢
  refine ⟨h.1, fun hmem => ?_⟩
  obtain ⟨ha, hb⟩ := List.of_mem_zip hmem
  exact himp _ ha _ hb (h.2 hmem)

/-- Lists that agree pointwise under two functions have the same images. -/
theorem map_eq_of_forall₂ {α β γ : Type} {f : α → γ} {g : β → γ} {as : List α} {bs : List β}
    (h : List.Forall₂ (fun a b => f a = g b) as bs) : as.map f = bs.map g := by
  rw [← List.forall₂_eq_eq_eq, List.forall₂_map_left_iff, List.forall₂_map_right_iff]
  exact h

/-- Compiled filters keep their joiners. -/
theorem map_joiner_of_compiles {anchor : Anchor} {fields : FieldMap} {fs : List Filter}
    {cs : List Compiled} (h : List.Forall₂ (Compiles anchor fields) fs cs) :
    (cs.map fun c => c.term.joiner) = fs.map Filter.joiner :=
  (map_eq_of_forall₂ (h.imp fun _ _ hfc => hfc.joiner_eq.symm)).symm

theorem mem_bindings_ofCompiled {cs : List Compiled} {b : Binding} :
    b ∈ (Clause.ofCompiled cs).bindings ↔ ∃ c ∈ cs, c.binding = some b := by
  rw [Clause.ofCompiled, List.mem_reverse, List.mem_filterMap]

theorem map_name_bindings_ofCompiled (cs : List Compiled) :
    (Clause.ofCompiled cs).bindings.map Binding.name = (bindingNames cs).reverse := by
  rw [Clause.ofCompiled, List.map_reverse, bindingNames]

end FilterClause
