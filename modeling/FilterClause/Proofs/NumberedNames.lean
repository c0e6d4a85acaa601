import FilterClause.Proofs.ClauseShape
import Mathlib.Data.Nat.Nth

/-!
# Numbered names

A new compiler that draws from a supply without repetitions issues the first names of the supply that
are not reserved: the `k`-th list test gets the `k`-th free one (`NameSupply.freeNumber`). Names taken
earlier do not get in the way, for they stand before the place where the search begins
(`Names.HasIssued`). So a search finds nothing only when all the names that it tries are reserved
(`NameSupply.IsExhausted`).

The names `stem0`, `stem1` and so on are such a supply for every stem (`compile_sequential`).
-/

namespace FilterClause

/-! ## Free names of a supply -/

namespace NameSupply

/-- The name with this number is not reserved. -/
def IsFree (s : NameSupply) (reserved : List String) (n : ℕ) : Prop :=
  s.name n ∉ reserved

instance (s : NameSupply) (reserved : List String) : DecidablePred (s.IsFree reserved) :=
  fun n => inferInstanceAs (Decidable (s.name n ∉ reserved))

/-- The number of the `k`-th free name, counted from zero. -/
noncomputable def freeNumber (s : NameSupply) (reserved : List String) (k : ℕ) : ℕ :=
  Nat.nth (s.IsFree reserved) k

/-- The number of names to be drawn until `k` free ones are found. -/
noncomputable def drawnFor (s : NameSupply) (reserved : List String) : ℕ → ℕ
  | 0 => 0
  | k + 1 => s.freeNumber reserved k + 1

/-- When `k` free names are found, the names to be tried for the next are all reserved. -/
def IsExhausted (s : NameSupply) (reserved : List String) (k : ℕ) : Prop :=
  ∀ i < Names.maxDraws, s.name (s.drawnFor reserved k + i) ∈ reserved

variable {s : NameSupply} {reserved : List String}

/-- Reserved names are finitely many. -/
theorem infinite_isFree (hinj : Function.Injective s.name) :
    (Set.ofPred (s.IsFree reserved)).Infinite := by
  have hfinite : (Set.preimage s.name {name | name ∈ reserved}).Finite :=
    reserved.finite_toSet.preimage hinj.injOn
  exact hfinite.infinite_compl

theorem strictMono_freeNumber (hinj : Function.Injective s.name) :
    StrictMono (s.freeNumber reserved) :=
  Nat.nth_strictMono (infinite_isFree hinj)

theorem isFree_iff_exists_freeNumber (hinj : Function.Injective s.name) {n : ℕ} :
    s.IsFree reserved n ↔ ∃ k, s.freeNumber reserved k = n := by
  have hrange : Set.range (s.freeNumber reserved) = Set.ofPred (s.IsFree reserved) :=
    Nat.range_nth_of_infinite (infinite_isFree hinj)
  exact (Set.ext_iff.1 hrange n).symm

/-- As many free names as said stand before the place where the search for the next begins. -/
theorem count_drawnFor (hinj : Function.Injective s.name) (k : ℕ) :
    Nat.count (s.IsFree reserved) (s.drawnFor reserved k) = k := by
  cases k with
  | zero => exact Nat.count_zero _
  | succ k =>
    have hfree : s.IsFree reserved (s.freeNumber reserved k) :=
      Nat.nth_mem_of_infinite (infinite_isFree hinj) k
    rw [drawnFor, Nat.count_succ, if_pos hfree, freeNumber,
      Nat.count_nth_of_infinite (infinite_isFree hinj)]

/-- The place of a free name among the free ones is the number of those before it. -/
theorem freeNumber_count {n : ℕ} (hfree : s.IsFree reserved n) :
    s.freeNumber reserved (Nat.count (s.IsFree reserved) n) = n :=
  Nat.nth_count hfree

/-- The first free name that the search meets is the one it is for. -/
theorem freeNumber_eq (hinj : Function.Injective s.name) {k i : ℕ}
    (hreserved : ∀ j < i, ¬ s.IsFree reserved (s.drawnFor reserved k + j))
    (hfree : s.IsFree reserved (s.drawnFor reserved k + i)) :
    s.freeNumber reserved k = s.drawnFor reserved k + i := by
  have hcount : Nat.count (s.IsFree reserved) (s.drawnFor reserved k + i) = k := by
    rw [Nat.count_add, count_drawnFor hinj, Nat.count_iff_forall_not.2 hreserved, Nat.add_zero]
  have hnumber := freeNumber_count hfree
  rwa [hcount] at hnumber

/-- The names tried in one search are too many to be reserved, unless as many are. -/
theorem not_isExhausted (hinj : Function.Injective s.name)
    (hcard : reserved.toFinset.card < Names.maxDraws) (k : ℕ) : ¬ s.IsExhausted reserved k := by
  intro hall
  refine absurd hcard (Nat.not_lt.2 ?_)
  rw [← Finset.card_range Names.maxDraws]
  refine Finset.card_le_card_of_injOn (fun i => s.name (s.drawnFor reserved k + i)) ?_ ?_
  · intro i hi
    rw [Finset.coe_range, Set.mem_Iio] at hi
    rw [List.coe_toFinset]
    exact hall i hi
  · intro i _ j _ hij
    exact Nat.add_left_cancel (hinj hij)

end NameSupply

/-! ## Drawing free names -/

/-- The names in use when a supply has been searched for `k` free names: from where the search goes on,
the taken names are the reserved ones. -/
structure Names.HasIssued (s : NameSupply) (reserved : List String) (k : ℕ) (names : Names) : Prop where
  supply : names.supply = ⟨s.name, s.drawnFor reserved k⟩
  taken : ∀ n, s.drawnFor reserved k ≤ n → (s.name n ∈ names.taken ↔ ¬ s.IsFree reserved n)

section Supply

variable {s : NameSupply} {reserved : List String} {k : ℕ} {names later : Names}

theorem Names.HasIssued.mem_taken (h : names.HasIssued s reserved k) (i : ℕ) :
    names.supply.name (names.supply.drawn + i) ∈ names.taken ↔
      s.name (s.drawnFor reserved k + i) ∈ reserved := by
  rw [h.supply, h.taken _ (Nat.le_add_right _ i), NameSupply.IsFree, not_not]

/-- A search that finds a name finds the next free one. -/
theorem Names.HasIssued.of_fresh?_some (hinj : Function.Injective s.name)
    (h : names.HasIssued s reserved k) {name : String} (hfresh : names.fresh? = (some name, later)) :
    name = s.name (s.freeNumber reserved k) ∧ ¬ s.IsExhausted reserved k ∧
      later.HasIssued s reserved (k + 1) := by
  obtain ⟨i, hi, hbefore, hname, hnew, hlater⟩ := Names.exists_of_draw_eq_some hfresh
  have hfree : s.IsFree reserved (s.drawnFor reserved k + i) := by
    rw [hname, h.mem_taken] at hnew
    exact hnew
  have hnumber : s.freeNumber reserved k = s.drawnFor reserved k + i :=
    NameSupply.freeNumber_eq hinj
      (fun j hj hj' => hj' ((h.mem_taken j).1 (hbefore j hj))) hfree
  have hname' : name = s.name (s.freeNumber reserved k) := by
    rw [hname, h.supply, hnumber]
  have hdrawn : s.drawnFor reserved (k + 1) = s.drawnFor reserved k + (i + 1) := by
    rw [NameSupply.drawnFor, hnumber, Nat.add_assoc]
  refine ⟨hname', fun hall => hfree (hall i hi), ?_, fun n hn => ?_⟩
  · rw [hlater, h.supply, hdrawn]
  · -- the new name stands before the place from where the search goes on
    rw [NameSupply.drawnFor] at hn
    have hne : s.name n ≠ name := fun heq => by
      rw [hname'] at heq
      exact absurd (hinj heq) (by omega)
    rw [hlater, List.mem_cons, or_iff_right hne]
    exact h.taken n (by omega)

/-- A search that finds no name has tried reserved names only. -/
theorem Names.HasIssued.of_fresh?_none (h : names.HasIssued s reserved k)
    (hfresh : names.fresh? = (none, later)) : s.IsExhausted reserved k :=
  fun i hi => (h.mem_taken i).1 (Names.forall_mem_of_draw_eq_none hfresh i hi)

/-! ## Compiling with free names -/

/-- The names of `count` list tests when `k` free names have been issued before. -/
noncomputable def NameSupply.freeNames (s : NameSupply) (reserved : List String) (k count : ℕ) :
    List String :=
  (List.range' k count).map fun j => s.name (s.freeNumber reserved j)

theorem NameSupply.freeNames_add (s : NameSupply) (reserved : List String) (k count more : ℕ) :
    s.freeNames reserved k (count + more) =
      s.freeNames reserved k count ++ s.freeNames reserved (k + count) more := by
  rw [freeNames, freeNames, freeNames, ← List.map_append, List.range'_append_1]

/-- The list tests of located filters. -/
def locatedTests (ls : List Located) : ℕ :=
  ls.countP fun l => l.filter.isListTest

theorem locatedTests_cons (l : Located) (ls : List Located) :
    locatedTests (l :: ls) = locatedTests [l] + locatedTests ls := by
  simp only [locatedTests, List.countP_cons, List.countP_nil]
  omega

/-- Compiling one filter issues the next free name, if the filter tests a list. -/
theorem Names.HasIssued.of_compile_ok (hinj : Function.Injective s.name)
    (h : names.HasIssued s reserved k) {l : Located} {c : Compiled}
    (hc : l.compile names = (.ok c, later)) :
    c.names = s.freeNames reserved k (locatedTests [l]) ∧
      (∀ j, k ≤ j → j < k + locatedTests [l] → ¬ s.IsExhausted reserved j) ∧
      later.HasIssued s reserved (k + locatedTests [l]) := by
  have hstep := l.compile_step names
  rw [hc] at hstep
  cases hstep with
  | compare hcategory =>
    have htests : locatedTests [l] = 0 := by
      simp [locatedTests, Filter.isListTest, hcategory]
    rw [htests]
    exact ⟨rfl, fun j hle hlt => absurd hlt (Nat.not_lt.2 hle), h⟩
  | test hop hfresh =>
    have htests : locatedTests [l] = 1 := by
      simp [locatedTests, Filter.isListTest, hop, Operator.category]
    rw [htests]
    obtain ⟨rfl, hfound, hlater⟩ := h.of_fresh?_some hinj hfresh
    refine ⟨rfl, fun j hle hlt => ?_, hlater⟩
    obtain rfl : j = k := by omega
    exact hfound

/-- Compiling one filter whose date is valid fails only on a list test, when the search for a name
finds none. -/
theorem Names.HasIssued.of_compile_error (h : names.HasIssued s reserved k) {l : Located} {e : Error}
    (hdate : l.filter.operator.category = .date → CalendarDate.isDate l.filter.value = true)
    (hc : l.compile names = (.error e, later)) :
    e = .invalidArgument (.namesExhausted Names.maxDraws) ∧ 0 < locatedTests [l] ∧
      s.IsExhausted reserved k := by
  have hstep := l.compile_step names
  rw [hc] at hstep
  cases hstep with
  | invalidDate hop hinvalid =>
    rw [hop] at hdate
    simp [dateOperand, hdate rfl] at hinvalid
  | exhausted hop hfresh =>
    refine ⟨rfl, ?_, h.of_fresh?_none hfresh⟩
    simp [locatedTests, Filter.isListTest, hop, Operator.category]

/-- Compiling filters issues the next free names in order. -/
theorem Names.HasIssued.of_compileAll_ok (hinj : Function.Injective s.name)
    (h : names.HasIssued s reserved k) {ls : List Located} {cs : List Compiled}
    (hall : compileAll ls names = (.ok cs, later)) :
    bindingNames cs = s.freeNames reserved k (locatedTests ls) ∧
      (∀ j, k ≤ j → j < k + locatedTests ls → ¬ s.IsExhausted reserved j) ∧
      later.HasIssued s reserved (k + locatedTests ls) := by
  induction ls generalizing names k cs with
  | nil =>
    simp only [compileAll, Prod.mk.injEq, Except.ok.injEq] at hall
    obtain ⟨rfl, rfl⟩ := hall
    exact ⟨rfl, fun j hle hlt => absurd hlt (Nat.not_lt.2 hle), h⟩
  | cons l ls ih =>
    obtain ⟨c, cs', after, hc, hrest, rfl⟩ := exists_of_compileAll_cons hall
    obtain ⟨hname, hfound, hafter⟩ := h.of_compile_ok hinj hc
    obtain ⟨hnames, hfound', hlater⟩ := ih hafter hrest
    rw [locatedTests_cons, ← Nat.add_assoc]
    refine ⟨?_, fun j hle hlt => ?_, hlater⟩
    · rw [bindingNames_cons, hname, hnames, NameSupply.freeNames_add]
    · rcases Nat.lt_or_ge j (k + locatedTests [l]) with hj | hj
      · exact hfound j hle hj
      · exact hfound' j hj hlt

/-- Compiling filters whose dates are valid fails only when the search for the name of a list test
finds none. -/
theorem Names.HasIssued.of_compileAll_error (hinj : Function.Injective s.name)
    (h : names.HasIssued s reserved k) {ls : List Located} {e : Error}
    (hdates : ∀ l ∈ ls,
      l.filter.operator.category = .date → CalendarDate.isDate l.filter.value = true)
    (hall : compileAll ls names = (.error e, later)) :
    e = .invalidArgument (.namesExhausted Names.maxDraws) ∧
      ∃ j, k ≤ j ∧ j < k + locatedTests ls ∧ s.IsExhausted reserved j := by
  induction ls generalizing names k with
  | nil => simp [compileAll] at hall
  | cons l ls ih =>
    have hdate := hdates l List.mem_cons_self
    rw [locatedTests_cons]
    rcases compileAll_cons_error hall with hc | ⟨c, after, hc, hrest⟩
    · obtain ⟨he, htests, hexhausted⟩ := h.of_compile_error hdate hc
      exact ⟨he, k, Nat.le_refl k, by omega, hexhausted⟩
    · obtain ⟨-, -, hafter⟩ := h.of_compile_ok hinj hc
      obtain ⟨he, j, hle, hlt, hexhausted⟩ :=
        ih hafter (fun l' hl' => hdates l' (List.mem_cons_of_mem l hl')) hrest
      exact ⟨he, j, by omega, by omega, hexhausted⟩

end Supply

/-! ## New compilers -/

/-- Filters are located with their list tests. -/
theorem locatedTests_eq {anchor : Anchor} {fields : FieldMap} {filters : List Filter}
    {located : List Located} (h : List.Forall₂ (Locates anchor fields) filters located) :
    locatedTests located = listTests filters := by
  refine (countP_eq_of_forall₂ (h.imp fun f l hl => ?_)).symm
  rw [hl.filter]

section Compile

variable {anchor : Anchor} {fields : FieldMap} {s : NameSupply} {filters : List Filter}
  {after : Compiler}

/-- A new compiler has not issued any name of its supply. -/
theorem Compiler.hasIssued_new (hnew : s.drawn = 0) :
    (new fields anchor s).names.HasIssued s (anchor.reserved fields) 0 where
  supply := by
    rw [NameSupply.drawnFor, ← hnew]
    rfl
  taken _ _ := not_not.symm

/-- When a new compiler succeeds, the list tests have the first free names. -/
theorem Compiler.compile_ok_of_new (hinj : Function.Injective s.name) (hnew : s.drawn = 0)
    {clause : Clause} (h : (new fields anchor s).compile filters = (.ok clause, after)) :
    clause.IsShaped anchor fields filters
        (s.freeNames (anchor.reserved fields) 0 (listTests filters)) ∧
      (∀ k < listTests filters, ¬ s.IsExhausted (anchor.reserved fields) k) ∧
      after.names.HasIssued s (anchor.reserved fields) (listTests filters) := by
  obtain ⟨located, cs, hlocated, hall, rfl⟩ := exists_of_compile h
  have hlocates : List.Forall₂ (Locates anchor fields) filters located := Anchor.locate_ok hlocated
  obtain ⟨hnames, hfound, hafter⟩ := (hasIssued_new hnew).of_compileAll_ok hinj hall
  rw [locatedTests_eq hlocates, Nat.zero_add] at hfound hafter
  rw [locatedTests_eq hlocates] at hnames
  refine ⟨?_, fun k hk => hfound k (Nat.zero_le k) hk, hafter⟩
  rw [← hnames]
  exact isShaped_ofCompiled (forall₂_comp hlocates (compileAll_ok hall).1)

/-- When a new compiler fails on filters with known fields and valid dates, the search for some name
found none. -/
theorem Compiler.compile_error_of_new (hinj : Function.Injective s.name) (hnew : s.drawn = 0)
    (hfields : ∀ f ∈ filters, (fields.get? f.field).isSome = true)
    (hdates : ∀ f ∈ filters, f.operator.category = .date → CalendarDate.isDate f.value = true)
    {e : Error} (h : (new fields anchor s).compile filters = (.error e, after)) :
    e = .invalidArgument (.namesExhausted Names.maxDraws) ∧
      ∃ k < listTests filters, s.IsExhausted (anchor.reserved fields) k := by
  rw [compile] at h
  split at h
  · next e' hlocated =>
    simp [Anchor.locate, new, FieldMap.missing_eq_nil_iff.2 hfields] at hlocated
  · next located hlocated =>
    have hlocates : List.Forall₂ (Locates anchor fields) filters located :=
      Anchor.locate_ok hlocated
    have hdates' : ∀ l ∈ located,
        l.filter.operator.category = .date → CalendarDate.isDate l.filter.value = true := by
      intro l hl
      obtain ⟨f, hf, hlocated⟩ := exists_mem_of_forall₂ hlocates hl
      rw [hlocated.filter]
      exact hdates f hf
    cases hall : compileAll located (new fields anchor s).names with
    | mk result later =>
      cases result with
      | ok cs => simp [hall, Except.map] at h
      | error e' =>
        simp only [hall, Except.map, Prod.mk.injEq, Except.error.injEq] at h
        obtain ⟨rfl, -⟩ := h
        obtain ⟨he, k, -, hk, hexhausted⟩ :=
          (hasIssued_new hnew).of_compileAll_error hinj hdates' hall
        rw [locatedTests_eq hlocates, Nat.zero_add] at hk
        exact ⟨he, k, hk, hexhausted⟩

end Compile

/-! ## Sequential names -/

/-- Different numbers make different names, whatever they are put behind. -/
theorem NameSupply.sequential_injective (stem : String) :
    Function.Injective (sequential stem).name := by
  intro m n h
  have hdigits : Nat.toDigits 10 m = Nat.toDigits 10 n := by
    have hlists := congrArg String.toList ((String.append_right_inj stem).1 h)
    simpa only [Nat.toString_eq_repr, Nat.toList_repr] using hlists
  calc m = Nat.ofDigitChars 10 (Nat.toDigits 10 m) 0 := Nat.ofDigitChars_ten_toDigits.symm
    _ = Nat.ofDigitChars 10 (Nat.toDigits 10 n) 0 := by rw [hdigits]
    _ = n := Nat.ofDigitChars_ten_toDigits

/-- With sequential names, list tests get the first ones that are not reserved, in order. Filters with
known fields and valid dates are refused when the 64 names behind those drawn for some list test are
all reserved, which takes 64 reserved names and never happens under a loop variable; otherwise the
next name is the one behind the last that was issued. -/
theorem compile_sequential {fields : FieldMap} {anchor : Anchor} {filters : List Filter}
    (stem : String) (hfields : ∀ f ∈ filters, (fields.get? f.field).isSome = true)
    (hdates : ∀ f ∈ filters, f.operator.category = .date → CalendarDate.isDate f.value = true) :
    let supply := NameSupply.sequential stem
    let reserved := anchor.reserved fields
    let compiled := (Compiler.new fields anchor supply).compile filters
    let exhausted := ∃ k < listTests filters, ∀ i < 64,
      stem ++ toString (supply.drawnFor reserved k + i) ∈ reserved
    StrictMono (supply.freeNumber reserved) ∧
      (∀ n, stem ++ toString n ∉ reserved ↔ ∃ k, supply.freeNumber reserved k = n) ∧
      (exhausted → compiled.1 = .error (.invalidArgument (.namesExhausted 64))) ∧
      (¬ exhausted → ∃ clause, compiled.1 = .ok clause ∧
        clause.IsShaped anchor fields filters ((List.range (listTests filters)).map fun k =>
          stem ++ toString (supply.freeNumber reserved k)) ∧
        compiled.2.names.supply.head =
          stem ++ toString (supply.drawnFor reserved (listTests filters))) ∧
      (reserved.toFinset.card < 64 → ¬ exhausted) ∧
      ∀ loopVar, anchor = .relative loopVar → ¬ exhausted := by
  intro supply reserved compiled exhausted
  have hinj : Function.Injective supply.name := NameSupply.sequential_injective stem
  have hfew : reserved.toFinset.card < 64 → ¬ exhausted := fun hcard ⟨k, _, hk⟩ =>
    NameSupply.not_isExhausted hinj hcard k hk
  refine ⟨NameSupply.strictMono_freeNumber hinj, fun n =>
    NameSupply.isFree_iff_exists_freeNumber hinj, ?_, ?_, hfew, ?_⟩
  · intro ⟨k, hk, hreserved⟩
    cases hcompiled : compiled with
    | mk result after =>
      cases result with
      | ok clause =>
        obtain ⟨-, hfound, -⟩ := Compiler.compile_ok_of_new hinj rfl hcompiled
        exact absurd hreserved (hfound k hk)
      | error e =>
        obtain ⟨rfl, -⟩ := Compiler.compile_error_of_new hinj rfl hfields hdates hcompiled
        rfl
  · intro hfound
    cases hcompiled : compiled with
    | mk result after =>
      cases result with
      | ok clause =>
        obtain ⟨hshape, -, hafter⟩ := Compiler.compile_ok_of_new hinj rfl hcompiled
        rw [NameSupply.freeNames, ← List.range_eq_range'] at hshape
        refine ⟨clause, rfl, hshape, ?_⟩
        rw [hafter.supply]
        rfl
      | error e =>
        obtain ⟨-, hexhausted⟩ :=
          Compiler.compile_error_of_new hinj rfl hfields hdates hcompiled
        exact absurd hexhausted hfound
  · rintro loopVar rfl
    refine hfew ?_
    rw [show reserved = [loopVar] from rfl, List.toFinset_cons, List.toFinset_nil,
      insert_empty_eq, Finset.card_singleton]
    decide

/-- Three list tests around a comparison, with two numbers that paths start from. -/
theorem compile_sequential_three :
    let fields := FieldMap.ofList [("tag", "tmp0.tags"), ("age", "tmp2.age")]
    let filters : List Filter := [⟨"tag", .array .has, "red", some .or⟩,
      ⟨"tag", .array .lacks, "blue", none⟩, ⟨"age", .date .ge, "2020-02", some .and⟩,
      ⟨"tag", .array .contains, "een", some .or⟩]
    let compiled := (Compiler.new fields .qualified (.sequential "tmp")).compile filters
    ∃ clause, compiled.1 = .ok clause ∧
      clause.IsShaped .qualified fields filters ["tmp1", "tmp3", "tmp4"] ∧
      compiled.2.names.supply.head = "tmp5" := by
  intro fields filters compiled
  have hfields : ∀ f ∈ filters, (fields.get? f.field).isSome = true := by decide +kernel
  have hdates : ∀ f ∈ filters,
      f.operator.category = .date → CalendarDate.isDate f.value = true := by decide +kernel
  have hreserved : Anchor.qualified.reserved fields = ["tmp0", "tmp2"] := by decide +kernel
  obtain ⟨-, -, -, hok, hfew, -⟩ := compile_sequential "tmp" hfields hdates
  rw [hreserved] at hok hfew
  obtain ⟨clause, hclause, hshape, hnext⟩ := hok (hfew (by decide +kernel))
  have hfirst : (NameSupply.sequential "tmp").freeNumber ["tmp0", "tmp2"] 0 = 1 :=
    NameSupply.freeNumber_count (n := 1) (by decide +kernel)
  have hsecond : (NameSupply.sequential "tmp").freeNumber ["tmp0", "tmp2"] 1 = 3 :=
    NameSupply.freeNumber_count (n := 3) (by decide +kernel)
  have hthird : (NameSupply.sequential "tmp").freeNumber ["tmp0", "tmp2"] 2 = 4 :=
    NameSupply.freeNumber_count (n := 4) (by decide +kernel)
  refine ⟨clause, hclause, ?_, ?_⟩
  · rw [show listTests filters = 3 from rfl, show List.range 3 = [0, 1, 2] from rfl] at hshape
    simp only [List.map_cons, List.map_nil, hfirst, hsecond, hthird] at hshape
    exact hshape
  · rw [hnext, show listTests filters = 3 from rfl, NameSupply.drawnFor, hthird]
    rfl

end FilterClause
