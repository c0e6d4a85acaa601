import FilterClause.Proofs.Grouping

/-!
# Grouped expressions and reading from left to right

Terms can also be joined strictly from left to right, `((t₁ j₁ t₂) j₂ t₃) …` (`leftToRight`). The
grouped expression of the same terms has the same value under every assignment exactly if no `and`
stands anywhere before an `or` (`value_groupTexts_eq_leftToRight_iff`).

If none does, only the first run can have several terms, and in both readings its disjunction is the
first of several conjuncts (`value_joinAll`). Otherwise let the terms of the first run be false and all
others true: then the grouped expression is false, but from left to right everything is true from the
`or` on that an `and` stands before (`value_joinAll_of_not_andsLast`).
-/

namespace FilterClause

variable {α : Type}

/-! ## Joining from left to right -/

/-- Two expressions joined by a combinator. -/
def Combinator.join : Combinator → Expression α → Expression α → Expression α
  | .or => .or
  | .and => .and

/-- An expression with terms joined to it one after the other, the first of them by the given
combinator and each later one by the joiner of the term before it. -/
def Expression.joinAll (e : Expression α) (j : Combinator) : List (Term α) → Expression α
  | [] => e
  | t :: rest => (j.join e (.term t.condition)).joinAll t.effectiveJoiner rest

/-- Terms joined strictly from left to right. -/
def leftToRight (first : Term α) (rest : List (Term α)) : Expression α :=
  (Expression.term first.condition).joinAll first.effectiveJoiner rest

/-! ## Joiners without an `and` before an `or` -/

/-- No `and` stands anywhere before an `or`. -/
def AndsLast (js : List Combinator) : Prop :=
  js.Pairwise fun j k => ¬ (j = .and ∧ k = .or)

instance (js : List Combinator) : Decidable (AndsLast js) :=
  inferInstanceAs (Decidable (js.Pairwise _))

theorem andsLast_cons_or_iff {js : List Combinator} : AndsLast (.or :: js) ↔ AndsLast js := by
  simp [AndsLast]

theorem andsLast_cons_and_iff {js : List Combinator} : AndsLast (.and :: js) ↔ .or ∉ js := by
  constructor
  · intro h hor
    exact (List.pairwise_cons.1 h).1 .or hor ⟨rfl, rfl⟩
  · intro hor
    have hne : ∀ k ∈ js, k ≠ .or := fun k hk heq => hor (heq ▸ hk)
    refine List.pairwise_cons.2 ⟨fun k hk h => hne k hk h.2, ?_⟩
    exact List.pairwise_of_forall_mem_list fun _ _ k hk h => hne k hk h.2

/-! ## Where no `and` stands before an `or` -/

/-- The value of runs that are joined to something of the given value. An `or` takes the first run
into the run before it. -/
def valueAfter (assign : α → Bool) (before : Bool) : Combinator → List (List (Term α)) → Bool
  | .or, run :: runs => (before || run.any fun t => assign t.condition) &&
      runs.all fun run => run.any fun t => assign t.condition
  | .or, [] => before
  | .and, runs => before && runs.all fun run => run.any fun t => assign t.condition

/-- Where no `and` stands before an `or`, joining terms from left to right has the value of joining
their runs. -/
theorem value_joinAll (assign : α → Bool) {e : Expression α} {j : Combinator} {t : Term α}
    {rest : List (Term α)} (h : AndsLast (j :: joinersBetween (t :: rest))) :
    (e.joinAll j (t :: rest)).value assign =
      valueAfter assign (e.value assign) j (orRuns (t :: rest)) := by
  induction rest generalizing e j t with
  | nil => cases j <;> simp [Expression.joinAll, Combinator.join, Expression.value, valueAfter]
  | cons next rest ih =>
    rw [joinersBetween_cons_cons] at h
    have hrest := ih (e := j.join e (.term t.condition)) (List.pairwise_cons.1 h).2
    rw [Expression.joinAll, hrest]
    cases hj : t.effectiveJoiner with
    | or =>
      obtain ⟨run, runs, hruns⟩ := exists_orRuns_cons next rest
      cases j with
      | or =>
        simp only [orRuns_cons_cons_of_or hj hruns, hruns, valueAfter, Combinator.join,
          Expression.value, List.any_cons, Bool.or_assoc]
      | and =>
        -- an `and` would stand before this `or`
        rw [hj, andsLast_cons_and_iff] at h
        exact absurd List.mem_cons_self h
    | and =>
      rw [orRuns_cons_cons_of_and hj]
      cases j with
      | or =>
        simp only [valueAfter, Combinator.join, Expression.value, List.any_cons, List.any_nil,
          Bool.or_false]
      | and =>
        simp only [valueAfter, Combinator.join, Expression.value, List.all_cons, List.any_cons,
          List.any_nil, Bool.or_false, Bool.and_assoc]

/-- Without an `and` before an `or`, the value from left to right is that of the runs. -/
theorem value_leftToRight {first : Term α} {rest : List (Term α)}
    (h : AndsLast (joinersBetween (first :: rest))) (assign : α → Bool) :
    (leftToRight first rest).value assign =
      (orRuns (first :: rest)).all fun run => run.any fun t => assign t.condition := by
  cases rest with
  | nil => simp [leftToRight, Expression.joinAll, Expression.value]
  | cons next rest =>
    rw [joinersBetween_cons_cons] at h
    rw [leftToRight, value_joinAll assign h]
    cases hj : first.effectiveJoiner with
    | or =>
      obtain ⟨run, runs, hruns⟩ := exists_orRuns_cons next rest
      rw [orRuns_cons_cons_of_or hj hruns, hruns]
      rfl
    | and =>
      rw [orRuns_cons_cons_of_and hj]
      simp only [valueAfter, Expression.value, List.all_cons, List.any_cons, List.any_nil,
        Bool.or_false]

/-! ## Where an `and` stands before an `or` -/

/-- What is true stays true when true terms are joined to it, and an `or` makes it true. -/
theorem value_joinAll_of_true {assign : α → Bool} {e : Expression α} {j : Combinator}
    {terms : List (Term α)} (hterms : ∀ t ∈ terms, assign t.condition = true)
    (h : e.value assign = true ∨ .or ∈ (j :: terms.map Term.effectiveJoiner).dropLast) :
    (e.joinAll j terms).value assign = true := by
  induction terms generalizing e j with
  | nil => simpa [Expression.joinAll] using h
  | cons t rest ih =>
    have ht := hterms t List.mem_cons_self
    rw [Expression.joinAll]
    refine ih (fun t' ht' => hterms t' (List.mem_cons_of_mem t ht')) ?_
    cases j with
    | or => exact .inl (by simp [Combinator.join, Expression.value, ht])
    | and => simpa [Combinator.join, Expression.value, ht] using h

/-- Where an `and` stands before an `or`, terms joined from left to right are true as soon as those
outside the first run are. -/
theorem value_joinAll_of_not_andsLast {assign : α → Bool} {e : Expression α} {t : Term α}
    {rest run : List (Term α)} {runs : List (List (Term α))}
    (h : ¬ AndsLast (joinersBetween (t :: rest))) (hruns : orRuns (t :: rest) = run :: runs)
    (htrue : ∀ t' ∈ runs.flatten, assign t'.condition = true) :
    (e.joinAll t.effectiveJoiner rest).value assign = true := by
  induction rest generalizing e t run with
  | nil => exact absurd List.Pairwise.nil h
  | cons next rest ih =>
    rw [joinersBetween_cons_cons] at h
    cases hj : t.effectiveJoiner with
    | or =>
      obtain ⟨run', runs', hruns'⟩ := exists_orRuns_cons next rest
      rw [orRuns_cons_cons_of_or hj hruns', List.cons.injEq] at hruns
      rw [hj, andsLast_cons_or_iff] at h
      exact ih h (by rw [hruns', hruns.2])
    | and =>
      -- the first run ends here: all later terms are true, and one of their joiners is an `or`
      rw [orRuns_cons_cons_of_and hj, List.cons.injEq] at hruns
      rw [hj, andsLast_cons_and_iff, not_not] at h
      rw [← hruns.2, flatten_orRuns] at htrue
      exact value_joinAll_of_true htrue (.inr (List.mem_cons_of_mem _ h))

/-- With an `and` before an `or` there are values of the terms for which the two readings differ, if
no term occurs twice. -/
theorem exists_leftToRight_ne [DecidableEq α] {first : Term α} {rest : List (Term α)}
    (hnodup : ((first :: rest).map Term.condition).Nodup)
    (h : ¬ AndsLast (joinersBetween (first :: rest))) :
    ∃ assign : α → Bool, (leftToRight first rest).value assign = true ∧
      ((orRuns (first :: rest)).all fun run => run.any fun t => assign t.condition) = false := by
  obtain ⟨run, runs, hruns⟩ := exists_orRuns_cons first rest
  have hflat : run ++ runs.flatten = first :: rest := by
    rw [← List.flatten_cons, ← hruns, flatten_orRuns]
  rw [← hflat, List.map_append, List.nodup_append] at hnodup
  obtain ⟨-, -, hdisjoint⟩ := hnodup
  refine ⟨fun c => c ∉ run.map Term.condition, ?_, ?_⟩
  · refine value_joinAll_of_not_andsLast h hruns fun t ht => decide_eq_true fun hmem => ?_
    exact hdisjoint _ hmem _ (List.mem_map_of_mem ht) rfl
  · have hfalse : (run.any fun t => decide (t.condition ∉ run.map Term.condition)) = false := by
      rw [List.any_eq_false]
      intro t ht
      rw [decide_eq_true_eq, not_not]
      exact List.mem_map_of_mem ht
    rw [hruns, List.all_cons, hfalse, Bool.false_and]

/-! ## The two readings compared -/

/-- The words of a grouped expression spell one expression. If no term occurs twice, it has the same
value as the terms joined from left to right, whatever the values of the terms are, exactly if no `and`
stands anywhere before an `or`. -/
theorem value_groupTexts_eq_leftToRight_iff {first : Term String} {rest : List (Term String)}
    (hwords : ∀ t ∈ first :: rest, t.condition ∉ reservedWords)
    (hnodup : ((first :: rest).map Term.condition).Nodup) :
    ∃ e, (∀ f, Reads .expression ((groupTexts (first :: rest)).map Token.ofText) f ↔ f = e) ∧
      ((∀ assign, e.value assign = (leftToRight first rest).value assign) ↔
        AndsLast (joinersBetween (first :: rest))) := by
  rw [map_ofText_groupTexts hwords]
  obtain ⟨e, he, hvalue⟩ := reads_group (List.cons_ne_nil first rest)
  refine ⟨e, fun f => ⟨fun hf => hf.unique he, fun hf => hf ▸ he⟩, fun hsame => ?_, fun h assign => ?_⟩
  · by_contra h
    obtain ⟨assign, hleft, hruns⟩ := exists_leftToRight_ne hnodup h
    rw [← hsame assign, hvalue, hruns] at hleft
    cases hleft
  · rw [hvalue, value_leftToRight h]

/-- In `A AND B AND ( C OR D )` an `and` stands before the `or`: with `D` alone true the grouped
expression is false, but `((A AND B) AND C) OR D` is true. -/
theorem value_groupTexts_eq_leftToRight_iff_mixed :
    let first : Term String := ⟨"A", some .and⟩
    let rest : List (Term String) := [⟨"B", none⟩, ⟨"C", some .or⟩, ⟨"D", none⟩]
    (∀ t ∈ first :: rest, t.condition ∉ reservedWords) ∧
      ((first :: rest).map Term.condition).Nodup ∧
      groupTexts (first :: rest) = ["A", "AND", "B", "AND", "(", "C", "OR", "D", ")"] ∧
      leftToRight first rest =
        .or (.and (.and (.term "A") (.term "B")) (.term "C")) (.term "D") ∧
      ∃ e, (∀ f, Reads .expression ((groupTexts (first :: rest)).map Token.ofText) f ↔ f = e) ∧
        ¬ ∀ assign, e.value assign = (leftToRight first rest).value assign := by
  intro first rest
  have hwords : ∀ t ∈ first :: rest, t.condition ∉ reservedWords := by decide
  have hnodup : ((first :: rest).map Term.condition).Nodup := by decide
  obtain ⟨e, hread, hiff⟩ := value_groupTexts_eq_leftToRight_iff hwords hnodup
  refine ⟨hwords, hnodup, by decide, rfl, e, hread, ?_⟩
  rw [hiff]
  decide

end FilterClause
