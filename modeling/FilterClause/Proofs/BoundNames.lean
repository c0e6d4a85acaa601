import FilterClause.Proofs.Compiling
import Mathlib.Data.List.Nodup

/-!
# Names over the life of a compiler

A compiler is used for one filter list after the other (`Compiler.compileEach`), and some of the runs
may fail midway. Names only ever become taken (`Names.Grows`): each draw takes the drawn name or finds
it taken, so after a run, also one that failed, every name that it drew is taken.

A binding gets a name that was not taken before and is taken afterwards
(`Compiler.compile_bindings`). From there the names of a whole run of calls are new and differ from
each other (`Compiler.compileEach_new`), and none of them was drawn before (`boundNames_compileEach`).
-/

namespace FilterClause

/-! ## Drawing names -/

namespace Names

/-- What drawing names does to the names in use: the supply moves on, taken names stay taken, and the
names that were drawn are taken. -/
structure Grows (names later : Names) : Prop where
  supply : later.supply.name = names.supply.name
  drawn_le : names.supply.drawn ≤ later.supply.drawn
  taken : names.taken ⊆ later.taken
  drawn_taken : ∀ i, names.supply.drawn ≤ i → i < later.supply.drawn →
    names.supply.name i ∈ later.taken

theorem Grows.refl (names : Names) : names.Grows names where
  supply := rfl
  drawn_le := Nat.le_refl _
  taken := List.Subset.refl _
  drawn_taken _ hle hlt := absurd hlt (Nat.not_lt.2 hle)

theorem Grows.trans {names later final : Names} (h : names.Grows later) (h' : later.Grows final) :
    names.Grows final where
  supply := h'.supply.trans h.supply
  drawn_le := Nat.le_trans h.drawn_le h'.drawn_le
  taken := List.Subset.trans h.taken h'.taken
  drawn_taken i hle hlt := by
    rcases Nat.lt_or_ge i later.supply.drawn with hi | hi
    · exact h'.taken (h.drawn_taken i hle hi)
    · exact h.supply ▸ h'.drawn_taken i hi hlt

/-- One draw, of a name that is taken afterwards. -/
theorem grows_tail {names : Names} {taken : List String} (hsubset : names.taken ⊆ taken)
    (hhead : names.supply.head ∈ taken) : names.Grows ⟨names.supply.tail, taken⟩ where
  supply := rfl
  drawn_le := Nat.le_succ _
  taken := hsubset
  drawn_taken i hle hlt := by
    have hi : i = names.supply.drawn := Nat.le_antisymm (Nat.le_of_lt_succ hlt) hle
    rw [hi]
    exact hhead

theorem grows_draw (draws : ℕ) (names : Names) : names.Grows (names.draw draws).2 := by
  induction draws generalizing names with
  | zero => exact Grows.refl names
  | succ draws ih =>
    simp only [draw]
    split
    · next hmem =>
      exact (grows_tail (List.Subset.refl _) hmem).trans (ih _)
    · exact grows_tail (List.subset_cons_self _ _) List.mem_cons_self

end Names

/-! ## Compiling one filter list -/

theorem Names.Grows.of_fresh? {names later : Names} {drawn : Option String}
    (h : names.fresh? = (drawn, later)) : names.Grows later := by
  have hgrows := Names.grows_draw Names.maxDraws names
  rw [Names.fresh?] at h
  rwa [h] at hgrows

/-- Compiling a filter lets the names in use grow, whether it succeeds or not. -/
theorem Located.grows_compile (l : Located) (names : Names) : names.Grows (l.compile names).2 := by
  have hstep := l.compile_step names
  cases hc : l.compile names with
  | mk result later =>
    rw [hc] at hstep
    cases hstep with
    | compare => exact .refl _
    | invalidDate => exact .refl _
    | test _ hfresh => exact .of_fresh? hfresh
    | exhausted _ hfresh => exact .of_fresh? hfresh

theorem grows_compileAll (ls : List Located) (names : Names) :
    names.Grows (compileAll ls names).2 := by
  induction ls generalizing names with
  | nil => exact Names.Grows.refl names
  | cons l ls ih =>
    have hstep := l.grows_compile names
    cases hc : l.compile names with
    | mk result later =>
      rw [hc] at hstep
      cases result with
      | error e =>
        simp only [compileAll, hc]
        exact hstep
      | ok c =>
        simp only [compileAll, hc]
        exact hstep.trans (ih later)

theorem Compiler.grows_compile (c : Compiler) (filters : List Filter) :
    c.names.Grows (c.compile filters).2.names := by
  rw [Compiler.compile]
  split
  · exact Names.Grows.refl c.names
  · next located _ => exact grows_compileAll located c.names

/-- The bindings of a clause have distinct names, which are taken afterwards but not before. -/
theorem Compiler.compile_bindings {c after : Compiler} {filters : List Filter} {clause : Clause}
    (h : c.compile filters = (.ok clause, after)) :
    (clause.bindings.map Binding.name).Nodup ∧ ∀ name ∈ clause.bindings.map Binding.name,
      name ∉ c.names.taken ∧ name ∈ after.names.taken := by
  obtain ⟨located, cs, -, hall, rfl⟩ := Compiler.exists_of_compile h
  have hissues := (compileAll_ok hall).2
  simp only [map_name_bindings_ofCompiled, List.nodup_reverse, List.mem_reverse]
  refine ⟨hissues.nodup, fun name hname => ⟨hissues.notMem name hname, ?_⟩⟩
  rw [(compileAll_issued hall).1]
  exact List.mem_append_left _ (List.mem_reverse.2 hname)

/-! ## Compiling one filter list after the other -/

/-- What becomes of filter lists that one compiler compiles in turn, and the compiler afterwards. -/
def Compiler.compileEach : Compiler → List (List Filter) → List (Except Error Clause) × Compiler
  | c, [] => ([], c)
  | c, filters :: rest =>
    let (result, c) := c.compile filters
    let (results, c) := c.compileEach rest
    (result :: results, c)

/-- The names of the bindings of a clause, if there is a clause. -/
def namesOf : Except Error Clause → List String
  | .ok clause => clause.bindings.map Binding.name
  | .error _ => []

/-- The names of the bindings of all clauses among the results. -/
def boundNames (results : List (Except Error Clause)) : List String :=
  results.flatMap namesOf

namespace Compiler

theorem compileEach_cons (c : Compiler) (filters : List Filter) (rest : List (List Filter)) :
    c.compileEach (filters :: rest) = ((c.compile filters).1 ::
      ((c.compile filters).2.compileEach rest).1, ((c.compile filters).2.compileEach rest).2) :=
  rfl

theorem compileEach_append (c : Compiler) (calls calls' : List (List Filter)) :
    c.compileEach (calls ++ calls') = ((c.compileEach calls).1 ++
      ((c.compileEach calls).2.compileEach calls').1, ((c.compileEach calls).2.compileEach calls').2) := by
  induction calls generalizing c with
  | nil => rfl
  | cons filters calls ih => simp only [List.cons_append, compileEach_cons, ih]

theorem grows_compileEach (c : Compiler) (calls : List (List Filter)) :
    c.names.Grows (c.compileEach calls).2.names := by
  induction calls generalizing c with
  | nil => exact Names.Grows.refl c.names
  | cons filters calls ih => exact (c.grows_compile filters).trans (ih _)

/-- The names of a result are distinct, and they are taken afterwards but not before. -/
theorem namesOf_compile (c : Compiler) (filters : List Filter) :
    (namesOf (c.compile filters).1).Nodup ∧ ∀ name ∈ namesOf (c.compile filters).1,
      name ∉ c.names.taken ∧ name ∈ (c.compile filters).2.names.taken := by
  cases hc : c.compile filters with
  | mk result after =>
    cases result with
    | error e => exact ⟨List.nodup_nil, by simp [namesOf]⟩
    | ok clause => exact compile_bindings hc

/-- Over a run of calls no name is bound twice, and none that was taken before. -/
theorem compileEach_new (c : Compiler) (calls : List (List Filter)) :
    (boundNames (c.compileEach calls).1).Nodup ∧
      ∀ name ∈ boundNames (c.compileEach calls).1, name ∉ c.names.taken := by
  -- what one call binds is taken, and the later ones bind only what is not
  induction calls generalizing c with
  | nil => exact ⟨List.nodup_nil, by simp [compileEach, boundNames]⟩
  | cons filters calls ih =>
    obtain ⟨hnodup, hnames⟩ := c.namesOf_compile filters
    obtain ⟨hnodup', hnames'⟩ := ih (c.compile filters).2
    rw [compileEach_cons, boundNames, List.flatMap_cons]
    refine ⟨List.nodup_append.2 ⟨hnodup, hnodup', ?_⟩, fun name hname => ?_⟩
    · rintro name hname name' hname' rfl
      exact hnames' name hname' (hnames name hname).2
    · rcases List.mem_append.1 hname with hname | hname
      · exact (hnames name hname).1
      · exact fun htaken => hnames' name hname ((c.grows_compile filters).taken htaken)

end Compiler

/-- The name is not that of a variable which paths start from: the loop variable, or the root of any
mapped path. -/
def Anchor.Avoids (anchor : Anchor) (fields : FieldMap) (name : String) : Prop :=
  match anchor with
  | .relative loopVar => name ≠ loopVar
  | .qualified => ∀ path ∈ fields.paths, name ≠ pathRoot path

theorem Anchor.avoids_iff {anchor : Anchor} {fields : FieldMap} {name : String} :
    anchor.Avoids fields name ↔ name ∉ anchor.reserved fields := by
  cases anchor with
  | qualified => simp [Avoids, reserved, eq_comm]
  | relative loopVar => simp [Avoids, reserved]

/-- Over the life of a compiler no name is bound twice, in whichever calls, and none that paths start
from. What a failed call has drawn is not bound by a later one. -/
theorem boundNames_compileEach (fields : FieldMap) (anchor : Anchor) (supply : NameSupply)
    (calls : List (List Filter)) :
    let c := Compiler.new fields anchor supply
    (boundNames (c.compileEach calls).1).Nodup ∧
      (∀ name ∈ boundNames (c.compileEach calls).1, anchor.Avoids fields name) ∧
      ∀ earlier filters later, calls = earlier ++ filters :: later →
        let before := (c.compileEach earlier).2
        let after := (before.compile filters).2
        (c.compileEach calls).1 = (c.compileEach earlier).1 ++
            (before.compile filters).1 :: (after.compileEach later).1 ∧
          ∀ e, (before.compile filters).1 = .error e → ∀ i, before.names.supply.drawn ≤ i →
            i < after.names.supply.drawn → supply.name i ∉ boundNames (after.compileEach later).1 := by
  intro c
  obtain ⟨hnodup, hnew⟩ := c.compileEach_new calls
  refine ⟨hnodup, fun name hname => Anchor.avoids_iff.2 (hnew name hname), ?_⟩
  rintro earlier filters later rfl before after
  refine ⟨by rw [Compiler.compileEach_append, Compiler.compileEach_cons], fun _ _ i hle hlt => ?_⟩
  -- a failed call takes what it has drawn, and what is taken is not bound
  have hsupply : before.names.supply.name = supply.name := (c.grows_compileEach earlier).supply
  have htaken := (before.grows_compile filters).drawn_taken i hle hlt
  rw [hsupply] at htaken
  exact fun hbound => (after.compileEach_new later).2 _ hbound htaken

/-- The first call draws `x` and stops at its date; the second one draws and binds `y`, the third finds
a field without a path, and the last finds no new name after `z`. -/
theorem boundNames_compileEach_failed :
    let fields := FieldMap.ofList [("tag", "doc.tags"), ("day", "doc.day")]
    let c := Compiler.new fields .qualified (.cycle ["x", "y", "z"])
    let tagged : Filter := ⟨"tag", .array .has, "red", none⟩
    let failing : List Filter := [tagged, ⟨"day", .date .eq, "2020-13", none⟩]
    let later := [[tagged], [⟨"age", .generic .gt, "1", none⟩], [tagged, tagged]]
    let after := (c.compile failing).2
    (c.compile failing).1 = .error (.invalidDate "2020-13") ∧ after.names.supply.drawn = 1 ∧
      boundNames (c.compileEach (failing :: later)).1 = ["y"] ∧
      "x" ∉ boundNames (after.compileEach later).1 := by
  intro fields c tagged failing later after
  have hfailed : (c.compile failing).1 = .error (.invalidDate "2020-13") := by decide +kernel
  have hdrawn : after.names.supply.drawn = 1 := by decide +kernel
  obtain ⟨-, -, hlater⟩ := boundNames_compileEach fields .qualified (.cycle ["x", "y", "z"])
    (failing :: later)
  have hx := (hlater [] failing later rfl).2 _ hfailed 0 (Nat.le_refl 0)
    (Nat.lt_of_lt_of_eq Nat.zero_lt_one hdrawn.symm)
  exact ⟨hfailed, hdrawn, by decide +kernel, hx⟩

end FilterClause
