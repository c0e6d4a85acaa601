import FilterClause.Proofs.ByteOrder
import FilterClause.Proofs.ClauseShape

/-!
# What stops a compiler

A compiler looks up every field before it does anything else, and names all fields that have no path.
Then the filters take their turns (`Names.Serves`): a list test takes a name, any other filter leaves
the names alone. An obstacle is a date that is none, or a list test that comes when the next 64 names
are all taken (`Names.ObstacleAt`). The first one stops the compiler and decides the error, and what the
filters before it have taken stays taken (`compile_obstacles`).

Where all filters of a part take their turns, no obstacle is (`Names.Serves.not_obstacleAt`). So the
place at which a run stops is the first at which it could.
-/

namespace FilterClause

/-! ## Drawing names -/

namespace Names

/-- The next 64 names are all taken. -/
def IsSpent (names : Names) : Prop :=
  ∀ i < 64, names.supply.name (names.supply.drawn + i) ∈ names.taken

/-- The first of the next 64 names that is not taken becomes taken, and the supply moves on behind
it. -/
def Takes (names : Names) (name : String) (later : Names) : Prop :=
  ∃ i < 64, (∀ j < i, names.supply.name (names.supply.drawn + j) ∈ names.taken) ∧
    name = names.supply.name (names.supply.drawn + i) ∧ name ∉ names.taken ∧
    later = ⟨⟨names.supply.name, names.supply.drawn + (i + 1)⟩, name :: names.taken⟩

variable {names later later' : Names} {name name' : String}

theorem Takes.not_isSpent (h : names.Takes name later) : ¬ names.IsSpent := by
  obtain ⟨i, hi, -, rfl, hnew, -⟩ := h
  exact fun hspent => hnew (hspent i hi)

theorem Takes.unique (h : names.Takes name later) (h' : names.Takes name' later') :
    name = name' ∧ later = later' := by
  obtain ⟨i, -, hbefore, rfl, hnew, rfl⟩ := h
  obtain ⟨j, -, hbefore', rfl, hnew', rfl⟩ := h'
  -- each is the first that is not taken
  have hij : i = j := by
    rcases Nat.lt_trichotomy i j with hlt | heq | hgt
    · exact absurd (hbefore' i hlt) hnew
    · exact heq
    · exact absurd (hbefore j hgt) hnew'
  rw [hij]
  exact ⟨rfl, rfl⟩

/-- A draw that finds no name has only moved the supply on. -/
theorem eq_of_draw_eq_none {draws : ℕ} (h : names.draw draws = (none, later)) :
    later = ⟨⟨names.supply.name, names.supply.drawn + draws⟩, names.taken⟩ := by
  induction draws generalizing names with
  | zero =>
    rw [draw, Prod.mk.injEq] at h
    exact h.2.symm
  | succ draws ih =>
    simp only [draw] at h
    split at h
    · rw [ih h, NameSupply.tail, Nat.add_right_comm, Nat.add_assoc]
    · simp at h

end Names

/-! ## Turns and obstacles -/

/-- The turn of a filter: a list test takes a name, another filter leaves the names alone. -/
inductive Filter.Turn (f : Filter) (names : Names) : List String → Names → Prop
  | compare (hlist : f.isListTest = false)
      (hdate : f.operator.category = .date → CalendarDate.isDate f.value = true) :
      Turn f names [] names
  | test {name : String} {later : Names} (hlist : f.isListTest = true)
      (htakes : names.Takes name later) : Turn f names [name] later

/-- Filters take their turns, one after the other. -/
inductive Names.Serves : Names → List Filter → List String → Names → Prop
  | nil (names : Names) : Serves names [] [] names
  | cons {names between later : Names} {f : Filter} {fs : List Filter} {issued issued' : List String}
      (hturn : f.Turn names issued between) (hrest : Serves between fs issued' later) :
      Serves names (f :: fs) (issued ++ issued') later

/-- There is an obstacle at a place of a filter list: a date that is none, or a list test for which the
names are spent when the filters before it have taken their turns. -/
inductive Names.ObstacleAt (names : Names) (filters : List Filter) : ℕ → Error → Prop
  | invalidDate {k : ℕ} {f : Filter} (hf : filters[k]? = some f)
      (hcategory : f.operator.category = .date) (hvalue : CalendarDate.isDate f.value = false) :
      ObstacleAt names filters k (.invalidDate f.value)
  | namesExhausted {k : ℕ} {f : Filter} {issued : List String} {reached : Names}
      (hf : filters[k]? = some f) (hlist : f.isListTest = true)
      (hserves : names.Serves (filters.take k) issued reached) (hspent : reached.IsSpent) :
      ObstacleAt names filters k (.invalidArgument (.namesExhausted 64))

/-- The first obstacle of a filter list. -/
def Names.IsFirstObstacle (names : Names) (filters : List Filter) (k : ℕ) (e : Error) : Prop :=
  names.ObstacleAt filters k e ∧ ∀ j < k, ∀ e', ¬ names.ObstacleAt filters j e'

section Turns

variable {f : Filter} {fs filters : List Filter} {names later later' : Names}
  {issued issued' : List String} {k : ℕ} {e e' : Error}

theorem Filter.Turn.unique (h : f.Turn names issued later) (h' : f.Turn names issued' later') :
    issued = issued' ∧ later = later' := by
  cases h with
  | compare hlist _ =>
    cases h' with
    | compare => exact ⟨rfl, rfl⟩
    | test hlist' _ => exact absurd hlist' (Bool.eq_false_iff.1 hlist)
  | test hlist htakes =>
    cases h' with
    | compare hlist' _ => exact absurd hlist (Bool.eq_false_iff.1 hlist')
    | test _ htakes' =>
      obtain ⟨rfl, rfl⟩ := htakes.unique htakes'
      exact ⟨rfl, rfl⟩

theorem Names.Serves.unique (h : names.Serves fs issued later) (h' : names.Serves fs issued' later') :
    issued = issued' ∧ later = later' := by
  induction h generalizing issued' with
  | nil =>
    cases h'
    exact ⟨rfl, rfl⟩
  | cons hturn _ ih =>
    cases h' with
    | cons hturn' hrest' =>
      obtain ⟨rfl, rfl⟩ := hturn.unique hturn'
      obtain ⟨rfl, rfl⟩ := ih hrest'
      exact ⟨rfl, rfl⟩

/-- Filters that take their turns take them one by one. -/
theorem Names.Serves.exists_turn (h : names.Serves fs issued later) (hf : fs[k]? = some f) :
    ∃ before reached mine next, names.Serves (fs.take k) before reached ∧ f.Turn reached mine next := by
  induction h generalizing k with
  | nil => cases hf
  | @cons names between _ g _ _ _ hturn _ ih =>
    cases k with
    | zero =>
      obtain rfl : g = f := Option.some.inj hf
      exact ⟨[], names, _, between, .nil names, hturn⟩
    | succ k =>
      obtain ⟨before, reached, mine, next, hbefore, hmine⟩ := ih hf
      exact ⟨_, reached, mine, next, .cons hturn hbefore, hmine⟩

/-- Where filters take their turns, there is no obstacle. -/
theorem Names.Serves.not_obstacleAt (h : names.Serves (filters.take k) issued later) {j : ℕ}
    (hj : j < k) : ¬ names.ObstacleAt filters j e := by
  intro hobstacle
  have htake : (filters.take k).take j = filters.take j := by
    rw [List.take_take, Nat.min_eq_left (Nat.le_of_lt hj)]
  cases hobstacle with
  | invalidDate hf hcategory hvalue =>
    obtain ⟨_, _, _, _, _, hturn⟩ := h.exists_turn ((List.getElem?_take_of_lt hj).trans hf)
    cases hturn with
    | compare _ hdate => exact absurd (hdate hcategory) (Bool.eq_false_iff.1 hvalue)
    | test hlist _ => simp [Filter.isListTest, hcategory] at hlist
  | namesExhausted hf hlist hserves hspent =>
    obtain ⟨_, reached, _, _, hbefore, hturn⟩ :=
      h.exists_turn ((List.getElem?_take_of_lt hj).trans hf)
    rw [htake] at hbefore
    obtain ⟨-, rfl⟩ := hbefore.unique hserves
    cases hturn with
    | compare hlist' _ => exact absurd hlist (Bool.eq_false_iff.1 hlist')
    | test _ htakes => exact htakes.not_isSpent hspent

theorem Names.ObstacleAt.lt_length (h : names.ObstacleAt filters k e) : k < filters.length := by
  cases h with
  | invalidDate hf _ _ => exact (List.getElem?_eq_some_iff.1 hf).1
  | namesExhausted hf _ _ _ => exact (List.getElem?_eq_some_iff.1 hf).1

theorem Names.ObstacleAt.ne_unmappedFields (h : names.ObstacleAt filters k e) (fields : List String) :
    e ≠ .unmappedFields fields := by
  cases h <;> simp

/-- A place has one obstacle at most. -/
theorem Names.ObstacleAt.unique (h : names.ObstacleAt filters k e)
    (h' : names.ObstacleAt filters k e') : e = e' := by
  cases h with
  | invalidDate hf hcategory _ =>
    cases h' with
    | invalidDate hf' _ _ => rw [Option.some.inj (hf.symm.trans hf')]
    | namesExhausted hf' hlist _ _ =>
      obtain rfl := Option.some.inj (hf.symm.trans hf')
      simp [Filter.isListTest, hcategory] at hlist
  | namesExhausted hf hlist _ _ =>
    cases h' with
    | invalidDate hf' hcategory _ =>
      obtain rfl := Option.some.inj (hf.symm.trans hf')
      simp [Filter.isListTest, hcategory] at hlist
    | namesExhausted => rfl

theorem Names.IsFirstObstacle.unique {j : ℕ} (h : names.IsFirstObstacle filters k e)
    (h' : names.IsFirstObstacle filters j e') : k = j ∧ e = e' := by
  obtain rfl : k = j := by
    rcases Nat.lt_trichotomy k j with hlt | heq | hgt
    · exact absurd h.1 (h'.2 k hlt e)
    · exact heq
    · exact absurd h'.1 (h.2 j hgt e')
  exact ⟨rfl, h.1.unique h'.1⟩

/-- An obstacle stays one behind a filter that takes its turn. -/
theorem Names.ObstacleAt.cons (hturn : f.Turn names issued later)
    (h : later.ObstacleAt fs k e) : names.ObstacleAt (f :: fs) (k + 1) e := by
  cases h with
  | invalidDate hf hcategory hvalue => exact .invalidDate hf hcategory hvalue
  | namesExhausted hf hlist hserves hspent =>
    exact .namesExhausted hf hlist (.cons hturn hserves) hspent

end Turns

/-! ## Runs -/

/-- A filter that is compiled takes its turn. -/
theorem Located.turn_of_compile {l : Located} {names later : Names} {c : Compiled}
    (h : l.compile names = (.ok c, later)) : l.filter.Turn names c.names later := by
  have hstep := l.compile_step names
  rw [h] at hstep
  cases hstep with
  | compare hcategory hoperand =>
    refine .compare (decide_eq_false hcategory) fun hdate => ?_
    cases hop : l.filter.operator with
    | generic _ => simp [hop, Operator.category] at hdate
    | array _ => simp [hop, Operator.category] at hdate
    | date comparison =>
      by_contra hnot
      simp [hop, Operator.operandText, dateOperand, hnot, Except.map] at hoperand
  | test hop hfresh =>
    exact .test (by simp [Filter.isListTest, hop, Operator.category])
      (Names.exists_of_draw_eq_some hfresh)

/-- A filter that cannot be compiled is an obstacle, and takes no name. -/
theorem Located.obstacle_of_compile {l : Located} {names later : Names} {e : Error}
    (h : l.compile names = (.error e, later)) :
    (∀ fs, names.ObstacleAt (l.filter :: fs) 0 e) ∧ later.taken = names.taken := by
  have hstep := l.compile_step names
  rw [h] at hstep
  cases hstep with
  | invalidDate hop hdate =>
    rw [dateOperand] at hdate
    split at hdate
    · cases hdate
    · next hvalue =>
      rw [← Except.error.inj hdate]
      exact ⟨fun fs => .invalidDate rfl (by rw [hop]; rfl) (Bool.eq_false_iff.2 hvalue), rfl⟩
  | exhausted hop hfresh =>
    refine ⟨fun fs => .namesExhausted rfl (by simp [Filter.isListTest, hop, Operator.category])
      (.nil names) (Names.forall_mem_of_draw_eq_none hfresh), ?_⟩
    have hlater : later = _ := Names.eq_of_draw_eq_none hfresh
    rw [hlater]

/-- Filters that are all compiled take their turns. -/
theorem serves_of_compileAll {ls : List Located} {names later : Names} {cs : List Compiled}
    (h : compileAll ls names = (.ok cs, later)) :
    names.Serves (ls.map Located.filter) (bindingNames cs) later := by
  induction ls generalizing names cs with
  | nil =>
    simp only [compileAll, Prod.mk.injEq, Except.ok.injEq] at h
    obtain ⟨rfl, rfl⟩ := h
    exact .nil names
  | cons l ls ih =>
    obtain ⟨c, cs', between, hc, hrest, rfl⟩ := exists_of_compileAll_cons h
    rw [bindingNames_cons]
    exact .cons (Located.turn_of_compile hc) (ih hrest)

/-- A run that fails has met an obstacle; the filters before it have taken their turns. -/
theorem obstacleAt_of_compileAll {ls : List Located} {names later : Names} {e : Error}
    (h : compileAll ls names = (.error e, later)) : ∃ k issued reached,
      names.ObstacleAt (ls.map Located.filter) k e ∧
        names.Serves ((ls.map Located.filter).take k) issued reached ∧
        later.taken = issued.reverse ++ names.taken := by
  induction ls generalizing names with
  | nil => simp [compileAll] at h
  | cons l ls ih =>
    rcases compileAll_cons_error h with hfirst | ⟨c, between, hc, hrest⟩
    · obtain ⟨hobstacle, htaken⟩ := Located.obstacle_of_compile hfirst
      exact ⟨0, [], names, hobstacle _, .nil names, htaken⟩
    · obtain ⟨k, issued, reached, hobstacle, hserves, htaken⟩ := ih hrest
      have hturn := Located.turn_of_compile hc
      refine ⟨k + 1, c.names ++ issued, reached, hobstacle.cons hturn, .cons hturn hserves, ?_⟩
      rw [htaken, (Located.issued_of_compile hc).1, List.reverse_append, List.append_assoc]

/-- Locating keeps the filters. -/
theorem map_filter_of_locate {anchor : Anchor} {fields : FieldMap} {filters : List Filter}
    {located : List Located} (h : anchor.locate fields filters = .ok located) :
    located.map Located.filter = filters := by
  have hfilters := (Anchor.locate_ok h).imp (S := fun f l => id f = Located.filter l)
    fun _ _ hlocates => hlocates.filter.symm
  rw [← map_eq_of_forall₂ hfilters, List.map_id]

namespace Compiler

variable {c after : Compiler} {filters : List Filter}

/-- A field without a path stops a compiler before it does anything. -/
theorem compile_of_unmapped (h : ∃ f ∈ filters, c.fields.get? f.field = none) :
    c.compile filters = (.error (.unmappedFields (c.fields.missing filters)), c) := by
  have hne : c.fields.missing filters ≠ [] := by
    obtain ⟨f, hf, hnone⟩ := h
    exact List.ne_nil_of_mem (FieldMap.mem_missing.2 ⟨⟨f, hf, rfl⟩, hnone⟩)
  rw [compile, Anchor.locate]
  split
  · next heq =>
    split at heq
    · next hnil => exact absurd hnil hne
    · rw [← Except.error.inj heq]
  · next heq =>
    split at heq
    · next hnil => exact absurd hnil hne
    · cases heq

/-- A compiler that finds every path has all filters take their turns, or stops at the first obstacle;
it changes nothing but the names in use. -/
theorem compile_of_mapped (h : ∀ f ∈ filters, (c.fields.get? f.field).isSome) :
    (∃ clause issued later, c.compile filters = (.ok clause, { c with names := later }) ∧
      c.names.Serves filters issued later) ∨
    ∃ k e issued reached later, c.compile filters = (.error e, { c with names := later }) ∧
      c.names.ObstacleAt filters k e ∧ c.names.Serves (filters.take k) issued reached ∧
      later.taken = issued.reverse ++ c.names.taken := by
  obtain ⟨located, hlocated⟩ : ∃ located, c.anchor.locate c.fields filters = .ok located := by
    rw [Anchor.locate, FieldMap.missing_eq_nil_iff.2 h]
    exact ⟨_, rfl⟩
  have hfilters := map_filter_of_locate hlocated
  simp only [compile, hlocated]
  cases hall : compileAll located c.names with
  | mk result later =>
    cases result with
    | ok cs => exact .inl ⟨_, _, later, rfl, hfilters ▸ serves_of_compileAll hall⟩
    | error e =>
      obtain ⟨k, issued, reached, hrun⟩ := obstacleAt_of_compileAll hall
      rw [hfilters] at hrun
      exact .inr ⟨k, e, issued, reached, later, rfl, hrun⟩

/-- An unmapped field stops a compiler before it does anything, and the error has all of them, in
ascending order of their bytes. Otherwise the error is never one of fields, and a compiler fails exactly
when there is an obstacle, with the error of the first one: the names for the filters before it stay
taken, and nothing else has changed. -/
theorem compile_obstacles (c : Compiler) (filters : List Filter) :
    ((∃ f ∈ filters, c.fields.get? f.field = none) →
      ∃ fields, c.compile filters = (.error (.unmappedFields fields), c) ∧
        (∀ field, field ∈ fields ↔
          (∃ f ∈ filters, f.field = field) ∧ c.fields.get? field = none) ∧
        fields.Pairwise fun field field' => Text.bytes field < Text.bytes field') ∧
    ((∀ f ∈ filters, (c.fields.get? f.field).isSome) →
      (∀ fields, (c.compile filters).1 ≠ .error (.unmappedFields fields)) ∧
      ((∃ e, (c.compile filters).1 = .error e) ↔ ∃ k e, c.names.ObstacleAt filters k e) ∧
      (∀ e, (c.compile filters).1 = .error e ↔ ∃ k, c.names.IsFirstObstacle filters k e) ∧
      ∀ k e, c.names.IsFirstObstacle filters k e → ∃ issued reached later,
        c.compile filters = (.error e, { c with names := later }) ∧
          c.names.Serves (filters.take k) issued reached ∧
          later.taken = issued.reverse ++ c.names.taken) := by
  refine ⟨fun hunmapped => ?_, fun hmapped => ?_⟩
  · refine ⟨_, compile_of_unmapped hunmapped, fun field => FieldMap.mem_missing, ?_⟩
    exact (Text.pairwise_sortedDistinct _).imp Text.lt_iff_bytes_lt.1
  · rcases compile_of_mapped hmapped with ⟨clause, issued, later, hcompile, hserves⟩ |
      ⟨k, e, issued, reached, later, hcompile, hobstacle, hserves, htaken⟩
    · -- where all take their turns, there is no obstacle at any place of the list
      have hnone : ∀ k e, ¬ c.names.ObstacleAt filters k e := by
        intro k e hobstacle
        rw [← List.take_length (l := filters)] at hserves
        exact hserves.not_obstacleAt hobstacle.lt_length hobstacle
      rw [hcompile]
      refine ⟨nofun, ⟨nofun, fun ⟨k, e, hobstacle⟩ => absurd hobstacle (hnone k e)⟩, fun e => ?_, ?_⟩
      · exact ⟨nofun, fun ⟨k, hfirst⟩ => absurd hfirst.1 (hnone k e)⟩
      · exact fun k e hfirst => absurd hfirst.1 (hnone k e)
    · have hfirst : c.names.IsFirstObstacle filters k e :=
        ⟨hobstacle, fun j hj e' => hserves.not_obstacleAt hj⟩
      rw [hcompile]
      refine ⟨fun fields heq => ?_, ⟨fun _ => ⟨k, e, hobstacle⟩, fun _ => ⟨e, rfl⟩⟩, fun e' => ?_, ?_⟩
      · exact hobstacle.ne_unmappedFields fields (Except.error.inj heq)
      · constructor
        · intro heq
          exact ⟨k, Except.error.inj heq ▸ hfirst⟩
        · rintro ⟨j, hfirst'⟩
          rw [(hfirst.unique hfirst').2]
      · intro j e' hfirst'
        obtain ⟨rfl, rfl⟩ := hfirst.unique hfirst'
        exact ⟨issued, reached, later, rfl, hserves, htaken⟩

/-- A list test takes a name, then a date is none: the name stays taken, and the list test behind the
date makes no difference, though the names would be spent. Without the date they are. A field without a
path comes before both. -/
theorem compile_obstacles_date :
    let c := Compiler.new (.ofList [("tag", "tags"), ("day", "created")]) (.relative "doc")
      (.cycle ["x", "doc"])
    let test (field : String) : Filter := ⟨field, .array .has, "red", none⟩
    let date : Filter := ⟨"day", .date .lt, "2020-13", none⟩
    (∃ k, c.names.IsFirstObstacle [test "tag", date, test "tag"] k (.invalidDate "2020-13")) ∧
      (c.compile [test "tag", date, test "tag"]).2.names.taken = ["x", "doc"] ∧
      (∃ k, c.names.IsFirstObstacle [test "tag", test "tag", date] k
        (.invalidArgument (.namesExhausted 64))) ∧
      c.compile [test "tag", date, test "é", test "z", test "é"] =
        (.error (.unmappedFields ["z", "é"]), c) := by
  intro c test date
  have hdate := (compile_obstacles c [test "tag", date, test "tag"]).2 (by decide +kernel)
  have hspent := (compile_obstacles c [test "tag", test "tag", date]).2 (by decide +kernel)
  have hunmapped := (compile_obstacles c [test "tag", date, test "é", test "z", test "é"]).1
    (by decide +kernel)
  refine ⟨(hdate.2.2.1 _).1 (by decide +kernel), by decide +kernel,
    (hspent.2.2.1 _).1 (by decide +kernel), ?_⟩
  obtain ⟨fields, hfields, -, -⟩ := hunmapped
  have hresult : (c.compile [test "tag", date, test "é", test "z", test "é"]).1 =
      .error (.unmappedFields ["z", "é"]) := by
    decide +kernel
  rw [hfields, Except.error.injEq, Error.unmappedFields.injEq] at hresult
  rw [hfields, hresult]

end Compiler

end FilterClause
