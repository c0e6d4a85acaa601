import FilterClause.Proofs.Expression
import Mathlib.Data.List.SplitBy

/-!
# Runs and the meaning of a grouped expression

Terms fall into *runs*: the longest segments whose terms are joined by `or`. A run of several terms is
spelled between parentheses, a run of one term bare, and the runs are joined by `AND`; that is what
`group` computes (`group_eq_intercalate`). So the tokens spell exactly one expression, and its value
is that of the conjunction over the runs of the disjunction of their terms (`groupTexts_value`).

The walk of `groupFrom` is described by its two states at once: without an open parenthesis it spells
whole runs, with an open one it is inside the first run and has to finish it (`groupFrom_cons`).
-/

namespace FilterClause

variable {α β : Type}

/-! ## Runs -/

/-- The term is joined to a next one by `or`. -/
def Term.isOr (t : Term α) : Bool :=
  t.effectiveJoiner = .or

/-- The longest segments of terms that are joined by `or`. -/
def orRuns (terms : List (Term α)) : List (List (Term α)) :=
  terms.splitBy fun t _ => t.isOr

/-- A run is not empty. -/
theorem ne_nil_of_mem_orRuns {terms run : List (Term α)} (h : run ∈ orRuns terms) : run ≠ [] :=
  List.ne_nil_of_mem_splitBy h

@[simp] theorem flatten_orRuns (terms : List (Term α)) : (orRuns terms).flatten = terms :=
  List.flatten_splitBy _ terms

theorem orRuns_ne_nil {terms : List (Term α)} (h : terms ≠ []) : orRuns terms ≠ [] :=
  List.splitBy_ne_nil.2 h

theorem exists_orRuns_cons (t : Term α) (rest : List (Term α)) :
    ∃ run runs, orRuns (t :: rest) = run :: runs :=
  List.exists_cons_of_ne_nil (orRuns_ne_nil (List.cons_ne_nil t rest))

@[simp] theorem orRuns_singleton (t : Term α) : orRuns [t] = [[t]] := rfl

/-- A term that is joined by `and` is the end of a run. -/
theorem orRuns_cons_cons_of_and {t next : Term α} {rest : List (Term α)}
    (h : t.effectiveJoiner = .and) :
    orRuns (t :: next :: rest) = [t] :: orRuns (next :: rest) := by
  have hend : ∀ x ∈ [t].getLast?, x.isOr = false := by simp [Term.isOr, h]
  rw [orRuns, ← List.singleton_append, List.splitBy_append_cons rest hend]
  rfl

/-- A term that is joined by `or` belongs to the run of the next one. -/
theorem orRuns_cons_cons_of_or {t next : Term α} {rest run : List (Term α)}
    {runs : List (List (Term α))} (h : t.effectiveJoiner = .or)
    (hruns : orRuns (next :: rest) = run :: runs) :
    orRuns (t :: next :: rest) = (t :: run) :: runs := by
  obtain ⟨hflat, hnil, hchain, hends⟩ := List.splitBy_eq_iff.1 hruns
  rw [List.mem_cons, not_or] at hnil
  refine List.splitBy_eq_iff.2 ⟨by rw [hflat]; rfl, ?_, ?_, ?_⟩
  · simp [hnil.2]
  · intro m hm
    rcases List.mem_cons.1 hm with rfl | hm
    · have hrun := hchain run List.mem_cons_self
      exact List.isChain_cons.2 ⟨fun _ _ => by simp [Term.isOr, h], hrun⟩
    · exact hchain m (List.mem_cons_of_mem run hm)
  · rw [List.isChain_cons] at hends ⊢
    refine ⟨fun m hm => ?_, hends.2⟩
    -- the run still has its old last term
    obtain ⟨hrun, hm', hlast⟩ := hends.1 m hm
    exact ⟨List.cons_ne_nil t run, hm', by rwa [List.getLast_cons hrun]⟩

/-- Runs depend on the joiners only. -/
theorem orRuns_map (f : α → β) (terms : List (Term α)) :
    orRuns (terms.map (Term.map f)) = (orRuns terms).map (List.map (Term.map f)) := by
  induction terms with
  | nil => rfl
  | cons t terms ih =>
    cases terms with
    | nil => rfl
    | cons next rest =>
      have hjoiner : (t.map f).effectiveJoiner = t.effectiveJoiner := rfl
      cases h : t.effectiveJoiner with
      | and =>
        rw [orRuns_cons_cons_of_and h, List.map_cons (l := orRuns (next :: rest)), ← ih]
        exact orRuns_cons_cons_of_and (hjoiner.trans h)
      | or =>
        obtain ⟨run, runs, hruns⟩ := exists_orRuns_cons next rest
        rw [hruns, List.map_cons, List.map_cons] at ih
        rw [orRuns_cons_cons_of_or h hruns]
        exact orRuns_cons_cons_of_or (hjoiner.trans h) ih

/-! ## The joiners between terms -/

/-- The joiners between terms; that of the last term joins it to nothing. -/
def joinersBetween (terms : List (Term α)) : List Combinator :=
  (terms.map Term.effectiveJoiner).dropLast

@[simp] theorem joinersBetween_singleton (t : Term α) : joinersBetween [t] = [] := rfl

@[simp] theorem joinersBetween_cons_cons (t next : Term α) (rest : List (Term α)) :
    joinersBetween (t :: next :: rest) = t.effectiveJoiner :: joinersBetween (next :: rest) := rfl

/-! ## The spelling of runs -/

/-- The terms of a run with `OR` between them. -/
def orTokens (run : List (Term α)) : List (Token α) :=
  (run.map fun t => Token.term t.condition).intersperse (.joiner .or)

/-- The spelling of a run: a single term stands bare, several ones between parentheses. -/
def runTokens (run : List (Term α)) : List (Token α) :=
  if run.length < 2 then orTokens run else .opening :: (orTokens run ++ [.closing])

@[simp] theorem orTokens_singleton (t : Term α) : orTokens [t] = [.term t.condition] := rfl

theorem orTokens_cons {run : List (Term α)} (t : Term α) (h : run ≠ []) :
    orTokens (t :: run) = .term t.condition :: .joiner .or :: orTokens run := by
  obtain ⟨next, rest, rfl⟩ := List.exists_cons_of_ne_nil h
  rfl

@[simp] theorem runTokens_singleton (t : Term α) : runTokens [t] = [.term t.condition] := rfl

theorem runTokens_cons {run : List (Term α)} (t : Term α) (h : run ≠ []) :
    runTokens (t :: run) = .opening :: (orTokens (t :: run) ++ [.closing]) := by
  obtain ⟨next, rest, rfl⟩ := List.exists_cons_of_ne_nil h
  rfl

/-- Runs that are joined to something before them. -/
def andTokens (runs : List (List (Term α))) : List (Token α) :=
  runs.flatMap fun run => .joiner .and :: runTokens run

theorem intercalate_runTokens (run : List (Term α)) (runs : List (List (Term α))) :
    [.joiner .and].intercalate ((run :: runs).map runTokens) = runTokens run ++ andTokens runs := by
  induction runs generalizing run with
  | nil => simp [andTokens]
  | cons next runs ih =>
    rw [List.map_cons, List.map_cons, List.intercalate_cons_cons, ← List.map_cons, ih next]
    simp [andTokens]

/-- What the walk spells from a term on, without and with an open parenthesis. -/
theorem groupFrom_cons {t : Term α} {rest run : List (Term α)} {runs : List (List (Term α))}
    (hruns : orRuns (t :: rest) = run :: runs) :
    groupFrom false (t :: rest) = runTokens run ++ andTokens runs ∧
      groupFrom true (t :: rest) = orTokens run ++ .closing :: andTokens runs := by
  -- the two states need each other: an open parenthesis is closed by the walk of the rest
  induction rest generalizing t run runs with
  | nil =>
    rw [orRuns_singleton, List.cons.injEq] at hruns
    obtain ⟨rfl, rfl⟩ := hruns
    exact ⟨rfl, rfl⟩
  | cons next rest ih =>
    obtain ⟨run', runs', hruns'⟩ := exists_orRuns_cons next rest
    have hrun' : run' ≠ [] := ne_nil_of_mem_orRuns (hruns' ▸ List.mem_cons_self)
    obtain ⟨ihOut, ihIn⟩ := ih hruns'
    cases h : t.effectiveJoiner with
    | or =>
      rw [orRuns_cons_cons_of_or h hruns', List.cons.injEq] at hruns
      obtain ⟨rfl, rfl⟩ := hruns
      simp only [groupFrom, h, ihIn, runTokens_cons t hrun', orTokens_cons t hrun']
      exact ⟨by simp, by simp⟩
    | and =>
      rw [orRuns_cons_cons_of_and h, hruns', List.cons.injEq] at hruns
      obtain ⟨rfl, rfl⟩ := hruns
      simp only [groupFrom, h, ihOut, andTokens, List.flatMap_cons]
      exact ⟨by simp, by simp⟩

/-- The walk spells the runs one after the other, joined by `AND`. -/
theorem group_eq_intercalate (terms : List (Term α)) :
    group terms = [.joiner .and].intercalate ((orRuns terms).map runTokens) := by
  cases terms with
  | nil => rfl
  | cons t rest =>
    obtain ⟨run, runs, hruns⟩ := exists_orRuns_cons t rest
    rw [hruns, intercalate_runTokens]
    exact (groupFrom_cons hruns).1

/-! ## The expression that is spelled -/

/-- The terms of a run spell their disjunction. -/
theorem reads_orTokens {run : List (Term α)} (h : run ≠ []) :
    ∃ e, Reads .expression (orTokens run) e ∧
      ∀ assign, e.value assign = run.any fun t => assign t.condition := by
  induction run with
  | nil => exact absurd rfl h
  | cons t run ih =>
    have hterm : Reads .conjunction [.term t.condition] (.term t.condition) :=
      .primary (.term t.condition)
    by_cases hrun : run = []
    · subst hrun
      exact ⟨.term t.condition, .conjunction hterm, fun assign => by simp [Expression.value]⟩
    · obtain ⟨e, he, hvalue⟩ := ih hrun
      refine ⟨.or (.term t.condition) e, ?_, fun assign => ?_⟩
      · rw [orTokens_cons t hrun]
        exact .or hterm he
      · rw [Expression.value, Expression.value, hvalue, List.any_cons]

/-- A run spells a primary phrase: a term, or a disjunction between parentheses. -/
theorem reads_runTokens {run : List (Term α)} (h : run ≠ []) :
    ∃ e, Reads .primary (runTokens run) e ∧
      ∀ assign, e.value assign = run.any fun t => assign t.condition := by
  obtain ⟨t, rest, rfl⟩ := List.exists_cons_of_ne_nil h
  by_cases hrest : rest = []
  · subst hrest
    exact ⟨.term t.condition, .term t.condition, fun assign => by simp [Expression.value]⟩
  · obtain ⟨e, he, hvalue⟩ := reads_orTokens h
    rw [runTokens_cons t hrest]
    exact ⟨e, .parens he, hvalue⟩

/-- Runs joined by `AND` spell the conjunction of their disjunctions. -/
theorem reads_intercalate_runTokens {runs : List (List (Term α))} (hne : runs ≠ [])
    (hruns : ∀ run ∈ runs, run ≠ []) :
    ∃ e, Reads .conjunction ([.joiner .and].intercalate (runs.map runTokens)) e ∧
      ∀ assign, e.value assign = runs.all fun run => run.any fun t => assign t.condition := by
  induction runs with
  | nil => exact absurd rfl hne
  | cons run runs ih =>
    obtain ⟨e, he, hvalue⟩ := reads_runTokens (hruns run List.mem_cons_self)
    cases runs with
    | nil =>
      refine ⟨e, ?_, fun assign => ?_⟩
      · rw [List.map_cons, List.map_nil, List.intercalate_singleton]
        exact .primary he
      · rw [hvalue, List.all_cons, List.all_nil, Bool.and_true]
    | cons next runs =>
      obtain ⟨f, hf, hvalue'⟩ := ih (List.cons_ne_nil next runs)
        fun run' h => hruns run' (List.mem_cons_of_mem run h)
      refine ⟨.and e f, ?_, fun assign => ?_⟩
      · rw [List.map_cons, List.map_cons, List.intercalate_cons_cons, List.append_assoc,
          ← List.map_cons]
        exact .and he hf
      · simp only [Expression.value, hvalue, hvalue', List.all_cons]

/-- The tokens of a grouped expression spell the conjunction over the runs of their disjunctions. -/
theorem reads_group {terms : List (Term α)} (h : terms ≠ []) :
    ∃ e, Reads .expression (group terms) e ∧
      ∀ assign, e.value assign = (orRuns terms).all fun run => run.any fun t => assign t.condition
    := by
  obtain ⟨e, he, hvalue⟩ := reads_intercalate_runTokens (orRuns_ne_nil h)
    fun run hrun => ne_nil_of_mem_orRuns hrun
  rw [group_eq_intercalate]
  exact ⟨e, .conjunction he, hvalue⟩

/-- The terms among the tokens are those that were grouped. -/
theorem term_mem_group {terms : List (Term α)} {c : α} :
    Token.term c ∈ group terms ↔ ∃ t ∈ terms, t.condition = c := by
  -- parentheses do not matter, so the state is left open
  have hfrom : ∀ isOpen, Token.term c ∈ groupFrom isOpen terms ↔ ∃ t ∈ terms, t.condition = c := by
    intro isOpen
    fun_induction groupFrom isOpen terms with
    | case1 => simp
    | case2 isOpen t => cases isOpen <;> simp [eq_comm]
    | case3 isOpen t next rest h ih => cases isOpen <;> simp [ih, eq_comm]
    | case4 isOpen t next rest h ih => cases isOpen <;> simp [ih, eq_comm]
  exact hfrom false

/-- The words of a grouped expression are read as its tokens, if no term is a reserved word. -/
theorem map_ofText_groupTexts {terms : List (Term String)}
    (h : ∀ t ∈ terms, t.condition ∉ reservedWords) :
    (groupTexts terms).map Token.ofText = group terms := by
  have htoken : ∀ token ∈ group terms, Token.ofText token.text = token := by
    intro token htoken
    refine Token.ofText_text fun c hc => ?_
    obtain ⟨t, ht, rfl⟩ := term_mem_group.1 (hc ▸ htoken)
    exact h t ht
  calc (groupTexts terms).map Token.ofText
      = (group terms).map (Token.ofText ∘ Token.text) := List.map_map
    _ = (group terms).map id := List.map_congr_left htoken
    _ = group terms := List.map_id _

/-- The words of a grouped expression spell one expression only, and whatever the values of the terms
are, its value is that of the conjunction over the runs of the disjunction of their terms. -/
theorem groupTexts_value {terms : List (Term String)} (hne : terms ≠ [])
    (hwords : ∀ t ∈ terms, t.condition ∉ reservedWords) :
    (∃! e, Reads .expression ((groupTexts terms).map Token.ofText) e) ∧
      ∀ e, Reads .expression ((groupTexts terms).map Token.ofText) e → ∀ assign : String → Bool,
        e.value assign = (orRuns terms).all fun run => run.any fun t => assign t.condition := by
  rw [map_ofText_groupTexts hwords]
  obtain ⟨e, he, hvalue⟩ := reads_group hne
  refine ⟨⟨e, he, fun f hf => hf.unique he⟩, fun f hf => ?_⟩
  rw [hf.unique he]
  exact hvalue

/-- Four terms in two runs: `( A OR B ) AND ( C OR D )`, the joiner of the last term left out. -/
theorem groupTexts_value_two_runs :
    let terms : List (Term String) := [⟨"A", some .or⟩, ⟨"B", none⟩, ⟨"C", some .or⟩, ⟨"D", some .or⟩]
    terms ≠ [] ∧ (∀ t ∈ terms, t.condition ∉ reservedWords) ∧
      (∃! e, Reads .expression ((groupTexts terms).map Token.ofText) e) ∧
      ∀ e, Reads .expression ((groupTexts terms).map Token.ofText) e → ∀ assign : String → Bool,
        e.value assign = ((assign "A" || assign "B") && (assign "C" || assign "D")) := by
  intro terms
  have hne : terms ≠ [] := List.cons_ne_nil _ _
  have hwords : ∀ t ∈ terms, t.condition ∉ reservedWords := by decide
  have hruns : orRuns terms =
      [[⟨"A", some .or⟩, ⟨"B", none⟩], [⟨"C", some .or⟩, ⟨"D", some .or⟩]] := by decide
  obtain ⟨hread, hvalue⟩ := groupTexts_value hne hwords
  refine ⟨hne, hwords, hread, fun e he assign => ?_⟩
  rw [hvalue e he assign, hruns]
  simp

end FilterClause
