import FilterClause.Proofs.Grouping
import Mathlib.Algebra.Ring.Int.Defs

/-!
# The tokens of a grouped expression

The runs of terms are determined by the joiners between them (`areRuns_iff`), and the words of a
grouped expression are those of its runs, joined by `AND`: a run of one term is its bare text, a run of
several ones stands between parentheses with `OR` between its terms (`groupTexts_eq_intercalate`).

So the parentheses stand around groups of two or more terms, and no group is inside another one
(`isFlat_group`, `IsFlat.sum_nesting`). Without them the tokens are the terms in order with the joiner
of each before the next one (`filter_isParen_group`), which is all that they depend on (`group_congr`).
-/

namespace FilterClause

variable {α β : Type}

/-! ## Runs by their joiners -/

/-- The segments of terms that are joined by `or`, none of which could be longer: all but the last term
of each are joined by `or`, and the last one by `and` where a segment follows. -/
structure AreRuns (terms : List (Term α)) (runs : List (List (Term α))) : Prop where
  flatten : runs.flatten = terms
  ne_nil : [] ∉ runs
  joined : ∀ run ∈ runs, ∀ t ∈ run.dropLast, t.effectiveJoiner = .or
  longest : ∀ run ∈ runs.dropLast, ∀ t ∈ run.getLast?, t.effectiveJoiner = .and

/-- Neighbours are related by a property of the first of them if all members but the last have it. -/
theorem isChain_iff_forall_dropLast {p : β → Prop} {xs : List β} :
    xs.IsChain (fun x _ => p x) ↔ ∀ x ∈ xs.dropLast, p x := by
  induction xs with
  | nil => simp
  | cons x xs ih =>
    cases xs with
    | nil => simp
    | cons y ys => simp [List.isChain_cons_cons, ih]

/-- Terms have one division into runs. -/
theorem areRuns_iff {terms : List (Term α)} {runs : List (List (Term α))} :
    AreRuns terms runs ↔ runs = orRuns terms := by
  have hjoined : ∀ run : List (Term α), run.IsChain (fun t _ => t.isOr = true) ↔
      ∀ t ∈ run.dropLast, t.effectiveJoiner = .or := by
    intro run
    rw [isChain_iff_forall_dropLast]
    simp only [Term.isOr, decide_eq_true_eq]
  have hlongest : [] ∉ runs → (runs.IsChain (fun run next => ∃ (h : run ≠ []) (_ : next ≠ []),
      (run.getLast h).isOr = false) ↔
        ∀ run ∈ runs.dropLast, ∀ t ∈ run.getLast?, t.effectiveJoiner = .and) := by
    intro hne
    rw [← isChain_iff_forall_dropLast]
    refine List.IsChain.iff_of_mem_imp fun run next hrun hnext => ?_
    have hrun' : run ≠ [] := fun hnil => hne (hnil ▸ hrun)
    have hnext' : next ≠ [] := fun hnil => hne (hnil ▸ hnext)
    rw [List.getLast?_eq_some_getLast hrun']
    cases h : (run.getLast hrun').effectiveJoiner <;> simp [Term.isOr, hrun', hnext', h]
  rw [eq_comm, orRuns, List.splitBy_eq_iff]
  constructor
  · intro h
    exact ⟨h.flatten.symm, h.ne_nil, fun run hrun => (hjoined run).2 (h.joined run hrun),
      (hlongest h.ne_nil).2 h.longest⟩
  · rintro ⟨hflatten, hne, hchain, hends⟩
    exact ⟨hflatten.symm, hne, fun run hrun => (hjoined run).1 (hchain run hrun),
      (hlongest hne).1 hends⟩

/-! ## Words -/

/-- The words of a run. -/
def runTexts : List (Term String) → List String
  | [t] => [t.condition]
  | run => "(" :: ((run.map Term.condition).intersperse "OR" ++ [")"])

theorem map_intersperse {γ : Type} (f : β → γ) (separator : β) (xs : List β) :
    (xs.intersperse separator).map f = (xs.map f).intersperse (f separator) := by
  induction xs with
  | nil => rfl
  | cons x xs ih =>
    cases xs with
    | nil => rfl
    | cons y ys => simpa using ih

theorem map_text_runTokens {run : List (Term String)} (h : run ≠ []) :
    (runTokens run).map Token.text = runTexts run := by
  obtain ⟨t, rest, rfl⟩ := List.exists_cons_of_ne_nil h
  cases rest with
  | nil => rfl
  | cons next rest =>
    rw [runTokens_cons t (List.cons_ne_nil next rest), List.map_cons, List.map_append, orTokens,
      map_intersperse, List.map_map]
    rfl

/-- The words of a grouped expression are those of its runs, joined by `AND`. -/
theorem groupTexts_eq_intercalate (terms : List (Term String)) :
    groupTexts terms = ["AND"].intercalate ((orRuns terms).map runTexts) := by
  have hruns : ((orRuns terms).map runTokens).map (List.map Token.text) =
      (orRuns terms).map runTexts := by
    rw [List.map_map]
    exact List.map_congr_left fun run hrun => map_text_runTokens (ne_nil_of_mem_orRuns hrun)
  rw [groupTexts, group_eq_intercalate, List.intercalate, List.map_flatten, map_intersperse, hruns]
  rfl

/-! ## Parentheses -/

/-- The token is a parenthesis. -/
def Token.isParen : Token α → Bool
  | .opening | .closing => true
  | .term _ | .joiner _ => false

/-- The token is a term. -/
def Token.isTerm : Token α → Bool
  | .term _ => true
  | .opening | .closing | .joiner _ => false

/-- What a token adds to the number of open parentheses. -/
def Token.nesting : Token α → ℤ
  | .opening => 1
  | .closing => -1
  | .term _ | .joiner _ => 0

@[simp] theorem Token.isParen_term (c : α) : (Token.term c).isParen = false := rfl

@[simp] theorem Token.isParen_joiner (c : Combinator) :
    (Token.joiner c : Token α).isParen = false := rfl

@[simp] theorem Token.isParen_opening : (Token.opening : Token α).isParen = true := rfl

@[simp] theorem Token.isParen_closing : (Token.closing : Token α).isParen = true := rfl

/-- All parentheses stand in pairs around at least two terms and without parentheses between them. -/
inductive IsFlat : List (Token α) → Prop
  | nil : IsFlat []
  | bare {token : Token α} {rest : List (Token α)} (htoken : token.isParen = false)
      (hrest : IsFlat rest) : IsFlat (token :: rest)
  | group {inner rest : List (Token α)} (hinner : ∀ token ∈ inner, token.isParen = false)
      (htwo : 2 ≤ inner.countP Token.isTerm) (hrest : IsFlat rest) :
      IsFlat (.opening :: (inner ++ .closing :: rest))

/-- A token that is no parenthesis opens and closes nothing. -/
theorem Token.nesting_of_bare {token : Token α} (h : token.isParen = false) :
    token.nesting = 0 := by
  cases token with
  | opening | closing => cases h
  | term c => rfl
  | joiner c => rfl

namespace IsFlat

theorem append {ts us : List (Token α)} (hts : IsFlat ts) (hus : IsFlat us) : IsFlat (ts ++ us) := by
  induction hts with
  | nil => exact hus
  | bare htoken _ ih => exact .bare htoken ih
  | group hinner htwo _ ih =>
    rw [List.cons_append, List.append_assoc]
    exact .group hinner htwo ih

theorem of_bare {ts : List (Token α)} (h : ∀ token ∈ ts, token.isParen = false) : IsFlat ts := by
  induction ts with
  | nil => exact .nil
  | cons token ts ih =>
    exact .bare (h token List.mem_cons_self) (ih fun t ht => h t (List.mem_cons_of_mem token ht))

/-- Tokens without parentheses leave the number of open ones as it is. -/
theorem sum_nesting_of_bare {ts : List (Token α)} (h : ∀ token ∈ ts, token.isParen = false) :
    (ts.map Token.nesting).sum = 0 := by
  induction ts with
  | nil => rfl
  | cons token ts ih =>
    rw [List.map_cons, List.sum_cons, Token.nesting_of_bare (h token List.mem_cons_self),
      ih fun t ht => h t (List.mem_cons_of_mem token ht), Int.add_zero]

/-- Parentheses are balanced and never nested: at any place none or one is open, and none at the
end. -/
theorem sum_nesting {ts : List (Token α)} (h : IsFlat ts) :
    (ts.map Token.nesting).sum = 0 ∧ ∀ before, before <+: ts →
      (before.map Token.nesting).sum = 0 ∨ (before.map Token.nesting).sum = 1 := by
  induction h with
  | nil => simp
  | @bare token rest htoken _ ih =>
    have hzero := Token.nesting_of_bare htoken
    refine ⟨by simp [hzero, ih.1], fun before hbefore => ?_⟩
    rcases List.prefix_cons_iff.1 hbefore with rfl | ⟨more, rfl, hmore⟩
    · exact .inl rfl
    · simpa [hzero] using ih.2 more hmore
  | @group inner rest hinner htwo _ ih =>
    have hzero := sum_nesting_of_bare hinner
    refine ⟨by simp [Token.nesting, hzero, ih.1], fun before hbefore => ?_⟩
    rcases List.prefix_cons_iff.1 hbefore with rfl | ⟨inside, rfl, hinside⟩
    · exact .inl rfl
    -- one is open between the two parentheses, and none after the closing one
    rcases List.prefix_or_prefix_of_prefix hinside (List.prefix_append inner _) with
      hbegins | ⟨after, rfl⟩
    · have hbare := sum_nesting_of_bare fun token ht => hinner token (hbegins.subset ht)
      exact .inr (by simp [Token.nesting, hbare])
    · rw [List.prefix_append_right_inj] at hinside
      rcases List.prefix_cons_iff.1 hinside with rfl | ⟨more, rfl, hmore⟩
      · exact .inr (by simp [Token.nesting, hzero])
      · have hsum : ((.opening :: (inner ++ .closing :: more)).map Token.nesting).sum =
            (more.map Token.nesting).sum := by
          simp only [List.map_cons, List.map_append, List.sum_cons, List.sum_append, hzero,
            Token.nesting]
          omega
        rw [hsum]
        exact ih.2 more hmore

end IsFlat

theorem isParen_of_mem_orTokens {run : List (Term α)} {token : Token α} (h : token ∈ orTokens run) :
    token.isParen = false := by
  induction run with
  | nil => cases h
  | cons t run ih =>
    by_cases hrun : run = []
    · rw [hrun, orTokens_singleton, List.mem_singleton] at h
      rw [h]
      rfl
    · rw [orTokens_cons t hrun, List.mem_cons, List.mem_cons] at h
      rcases h with rfl | rfl | h
      · rfl
      · rfl
      · exact ih h

theorem countP_isTerm_orTokens (run : List (Term α)) :
    (orTokens run).countP Token.isTerm = run.length := by
  induction run with
  | nil => rfl
  | cons t run ih =>
    by_cases hrun : run = []
    · rw [hrun]
      rfl
    · have hjoiner : ¬ Token.isTerm (Token.joiner Combinator.or : Token α) = true := by
        simp [Token.isTerm]
      rw [orTokens_cons t hrun, List.countP_cons_of_pos rfl, List.countP_cons_of_neg hjoiner, ih,
        List.length_cons]

theorem isFlat_runTokens (run : List (Term α)) : IsFlat (runTokens run) := by
  rw [runTokens]
  split
  · exact .of_bare fun token => isParen_of_mem_orTokens
  · next h =>
    exact .group (fun token => isParen_of_mem_orTokens) (by rw [countP_isTerm_orTokens]; omega) .nil

theorem isFlat_andTokens (runs : List (List (Term α))) : IsFlat (andTokens runs) := by
  induction runs with
  | nil => exact .nil
  | cons run runs ih =>
    rw [andTokens, List.flatMap_cons, List.cons_append]
    exact .bare rfl ((isFlat_runTokens run).append ih)

/-- The parentheses of a grouped expression stand around groups of two or more terms, none of them
inside another one. -/
theorem isFlat_group (terms : List (Term α)) : IsFlat (group terms) := by
  rw [group_eq_intercalate]
  cases orRuns terms with
  | nil => exact .nil
  | cons run runs =>
    rw [intercalate_runTokens]
    exact (isFlat_runTokens run).append (isFlat_andTokens runs)

/-! ## What stands between the parentheses -/

/-- The tokens of terms with the joiner of each before the next one, without parentheses. -/
def bareTokens : List (Term α) → List (Token α)
  | [] => []
  | [t] => [.term t.condition]
  | t :: next :: rest => .term t.condition :: .joiner t.effectiveJoiner :: bareTokens (next :: rest)

theorem bareTokens_eq_nil_iff {terms : List (Term α)} : bareTokens terms = [] ↔ terms = [] := by
  fun_cases bareTokens terms <;> simp

/-- Without its parentheses a grouped expression is the terms in order, with one joiner between
neighbours. -/
theorem filter_isParen_group (terms : List (Term α)) :
    (group terms).filter (fun token => !token.isParen) = bareTokens terms := by
  have hfrom : ∀ isOpen, (groupFrom isOpen terms).filter (fun token => !token.isParen) =
      bareTokens terms := by
    intro isOpen
    fun_induction groupFrom isOpen terms with
    | case1 => rfl
    | case2 isOpen t => cases isOpen <;> rfl
    | case3 isOpen t next rest h ih | case4 isOpen t next rest h ih =>
      cases isOpen <;> simp [bareTokens, h, ih]
  exact hfrom false

/-- Terms with the same conditions and the same joiners between them are grouped in the same way. -/
theorem group_congr {terms terms' : List (Term α)}
    (hconditions : terms'.map Term.condition = terms.map Term.condition)
    (hjoiners : joinersBetween terms' = joinersBetween terms) : group terms' = group terms := by
  have hfrom : ∀ isOpen, groupFrom isOpen terms' = groupFrom isOpen terms := by
    intro isOpen
    fun_induction groupFrom isOpen terms generalizing terms' with
    | case1 =>
      rw [List.map_nil, List.map_eq_nil_iff] at hconditions
      rw [hconditions]
      rfl
    | case2 isOpen t =>
      obtain ⟨t', rfl, ht⟩ := List.map_eq_singleton_iff.1 hconditions
      rw [groupFrom, ht]
    | case3 isOpen t next rest h ih | case4 isOpen t next rest h ih =>
      obtain ⟨t', tail', rfl, ht, htail⟩ := List.map_eq_cons_iff.1 hconditions
      obtain ⟨next', rest', rfl, -, -⟩ := List.map_eq_cons_iff.1 htail
      rw [joinersBetween_cons_cons, joinersBetween_cons_cons, List.cons.injEq] at hjoiners
      rw [groupFrom, hjoiners.1, h, ht, ih htail hjoiners.2]
  exact hfrom false

/-! ## The closed form -/

/-- The words of a grouped expression, whatever the texts of its terms are: those of the runs, joined by
`AND`. So there are none only if there are no terms, the parentheses are flat groups of two or more
terms, the tokens between them are the terms with one joiner between neighbours, and of the joiners
only those between terms matter. -/
theorem groupTexts_closed_form (terms : List (Term String)) :
    (∃ runs, (∀ runs', AreRuns terms runs' ↔ runs' = runs) ∧
      groupTexts terms = ["AND"].intercalate (runs.map runTexts)) ∧
    (groupTexts terms = [] ↔ terms = []) ∧
    (IsFlat (group terms) ∧ ((group terms).map Token.nesting).sum = 0 ∧
      ∀ before, before <+: group terms →
        (before.map Token.nesting).sum = 0 ∨ (before.map Token.nesting).sum = 1) ∧
    (group terms).filter (fun token => !token.isParen) = bareTokens terms ∧
    ∀ terms', terms'.map Term.condition = terms.map Term.condition →
      joinersBetween terms' = joinersBetween terms → groupTexts terms' = groupTexts terms := by
  have hflat := isFlat_group terms
  refine ⟨⟨orRuns terms, fun _ => areRuns_iff, groupTexts_eq_intercalate terms⟩, ?_,
    ⟨hflat, hflat.sum_nesting⟩, filter_isParen_group terms, fun terms' hconditions hjoiners => ?_⟩
  · rw [groupTexts, List.map_eq_nil_iff]
    constructor
    · intro h
      have hbare := filter_isParen_group terms
      rw [h, List.filter_nil] at hbare
      exact bareTokens_eq_nil_iff.1 hbare.symm
    · rintro rfl
      rfl
  · rw [groupTexts, group_congr hconditions hjoiners, groupTexts]

/-- Terms that are spelled like parentheses and joiners stay apart from these, and the joiner of the
last term has no effect. -/
theorem groupTexts_closed_form_reserved :
    let terms : List (Term String) := [⟨"(", some .or⟩, ⟨"AND", none⟩, ⟨"x", some .or⟩]
    let terms' : List (Term String) := [⟨"(", some .or⟩, ⟨"AND", some .and⟩, ⟨"x", none⟩]
    terms'.map Term.condition = terms.map Term.condition ∧
      joinersBetween terms' = joinersBetween terms ∧
      groupTexts terms' = groupTexts terms ∧
      groupTexts terms = ["(", "(", "OR", "AND", ")", "AND", "x"] := by
  intro terms terms'
  have hconditions : terms'.map Term.condition = terms.map Term.condition := rfl
  have hjoiners : joinersBetween terms' = joinersBetween terms := by decide
  obtain ⟨-, -, -, -, hsame⟩ := groupTexts_closed_form terms
  exact ⟨hconditions, hjoiners, hsame terms' hconditions hjoiners, by decide⟩

end FilterClause
