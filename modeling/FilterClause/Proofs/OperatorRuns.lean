import FilterClause.Proofs.ConditionRuns

/-!
# Operators and whole runs

A run of operator characters is whole where no operator character stands before or after it
(`IsWholeRun`). The run at the operator of a match is the operator and what is left over behind it, and
something is left over only if no value starts after the run: the operator then ends before the last
`@` of the run, with which the value begins (`Match.IsAt.exists_leftover`).

So the operator of a match is a whole run if and only if its value does not begin with `@`
(`operators_wholeRuns`). The run `==@` of `a==@` is no known operator, but it is read as `==` with the
value `@`.
-/

namespace FilterClause.Filter

/-- A run of operator characters at a place, with no operator character directly before or after it. -/
structure IsWholeRun (cs : List Char) (i : ℕ) (run : List Char) : Prop where
  isRun : IsRunOf isOperatorChar run
  isPrefix : run <+: cs.drop i
  before : ∀ k c, i = k + 1 → cs[k]? = some c → isOperatorChar c = false
  after : ∀ c, cs[i + run.length]? = some c → isOperatorChar c = false

variable {cs : List Char} {i : ℕ}

/-! ## Whole runs -/

theorem IsWholeRun.eq_takeWhile {run : List Char} (h : IsWholeRun cs i run) :
    run = (cs.drop i).takeWhile isOperatorChar := by
  obtain ⟨rest, hrest⟩ := h.isPrefix
  have hstop : ∀ c ∈ rest.head?, isOperatorChar c = false := by
    intro c hc
    refine h.after c ?_
    rw [← List.head?_drop, drop_of_eq_append hrest.symm]
    exact hc
  rw [← hrest, (span_append h.isRun.all hstop).1]

/-- The run from a place on is whole if it is not empty and does not start earlier. -/
theorem isWholeRun_takeWhile (hne : (cs.drop i).takeWhile isOperatorChar ≠ [])
    (hbefore : ∀ k c, i = k + 1 → cs[k]? = some c → isOperatorChar c = false) :
    IsWholeRun cs i ((cs.drop i).takeWhile isOperatorChar) where
  isRun := ⟨hne, fun _ hc => List.mem_takeWhile_imp hc⟩
  isPrefix := List.takeWhile_prefix _
  before := hbefore
  after c hc := by
    have hrest := drop_of_eq_append (List.takeWhile_append_dropWhile (p := isOperatorChar)
      (l := cs.drop i)).symm
    rw [← List.head?_drop, hrest] at hc
    exact eq_false_of_mem_head?_dropWhile hc

/-! ## Runs at matches -/

variable {m : Match}

/-- The run at the operator of a match is the operator and what is left over behind it. A value can
begin with what is left over, but with no shorter end of the run. -/
theorem Match.IsAt.exists_leftover (h : m.IsAt cs) :
    ∃ leftover, (cs.drop m.operatorStart).takeWhile isOperatorChar = m.piece.operator ++ leftover ∧
      BeginsLast leftover ((cs.drop m.operatorStart).dropWhile isOperatorChar) := by
  obtain ⟨leftover, hrun, hstarts⟩ := h.operator.holds.exists_tail
  refine ⟨leftover, hrun, hstarts, ?_⟩
  rintro shorter ⟨more, rfl⟩ hne
  -- a value after a longer part of the run would make this part the operator
  by_contra htrue
  rw [Bool.not_eq_false] at htrue
  have hlonger : IsRunOf isOperatorChar (m.piece.operator ++ more) := by
    refine ⟨List.append_ne_nil_of_left_ne_nil h.operator.holds.1.ne_nil more, fun c hc => ?_⟩
    refine List.mem_takeWhile_imp (l := cs.drop m.operatorStart) ?_
    rw [hrun, ← List.append_assoc]
    exact List.mem_append_left shorter hc
  have hcs : cs.drop m.operatorStart = (m.piece.operator ++ more) ++
      (shorter ++ (cs.drop m.operatorStart).dropWhile isOperatorChar) := by
    rw [← List.append_assoc, List.append_assoc m.piece.operator, ← hrun,
      List.takeWhile_append_dropWhile]
  have hle := h.operator.length_le (m.piece.operator ++ more) ⟨_, hcs.symm⟩
    (by rw [hcs]; exact (takesValue_append_iff hlonger).2 htrue)
  rw [List.length_append] at hle
  have hnil : more = [] := List.length_eq_zero_iff.1 (by omega)
  exact hne (by rw [hnil, List.nil_append])

/-- The value of a match begins with what is left over from the run and goes on behind it. -/
theorem Match.IsAt.head?_value (h : m.IsAt cs) {leftover : List Char}
    (hrun : (cs.drop m.operatorStart).takeWhile isOperatorChar = m.piece.operator ++ leftover) :
    m.piece.value.head? =
      (leftover ++ (cs.drop m.operatorStart).dropWhile isOperatorChar).head? := by
  have hcs : cs.drop m.operatorStart = m.piece.operator ++
      (leftover ++ (cs.drop m.operatorStart).dropWhile isOperatorChar) := by
    rw [← List.append_assoc, ← hrun, List.takeWhile_append_dropWhile]
  obtain ⟨rest, hrest⟩ := h.value.isPrefix
  rw [Match.valueStart, drop_of_eq_append hcs] at hrest
  obtain ⟨c, value, hvalue⟩ := List.exists_cons_of_ne_nil h.value.holds.ne_nil
  rw [← hrest, hvalue]
  rfl

/-- The run at the operator of a match is whole, because a field ends before it. -/
theorem Match.IsAt.isWholeRun (h : m.IsAt cs) : IsWholeRun cs m.operatorStart
    ((cs.drop m.operatorStart).takeWhile isOperatorChar) := by
  obtain ⟨leftover, hrun, -⟩ := h.exists_leftover
  refine isWholeRun_takeWhile ?_ fun k c hk hc => ?_
  · rw [hrun]
    exact List.append_ne_nil_of_left_ne_nil h.operator.holds.1.ne_nil leftover
  · have hpos := List.length_pos_iff.2 h.field.holds.ne_nil
    rw [Match.operatorStart] at hk
    obtain ⟨d, hd, hd'⟩ := exists_mem_of_prefix_drop h.field.isPrefix (j := k) (by omega) (by omega)
    rw [hc, Option.some.injEq] at hd'
    have hfield := h.field.holds.all d hd
    rw [← hd'] at hfield
    rw [← Bool.not_eq_true]
    intro hoperator
    rw [isFieldChar_of_isOperatorChar hoperator] at hfield
    cases hfield

/-- The operator of a match is a whole run unless the value begins with the `@` that was left over. -/
theorem Match.IsAt.isWholeRun_operator_iff (h : m.IsAt cs) :
    IsWholeRun cs m.operatorStart m.piece.operator ↔ m.piece.value.head? ≠ some '@' := by
  obtain ⟨leftover, hrun, hlast⟩ := h.exists_leftover
  have hhead := h.head?_value hrun
  constructor
  · intro hwhole hat
    have hnil := hwhole.eq_takeWhile.symm
    rw [hrun, List.append_right_eq_self] at hnil
    rw [hnil, List.nil_append, hat] at hhead
    exact absurd (eq_false_of_mem_head?_dropWhile (p := isOperatorChar) hhead.symm) (by decide)
  · intro hne
    cases leftover with
    | nil =>
      rw [List.append_nil] at hrun
      exact hrun ▸ h.isWholeRun
    | cons c more =>
      have hoperator : isOperatorChar c = true :=
        List.mem_takeWhile_imp (hrun ▸ List.mem_append_right _ List.mem_cons_self)
      obtain rfl := eq_at_of_isOperatorChar (beginsLast_cons_iff.1 hlast).1 hoperator
      exact absurd hhead hne

/-- Where the value begins with `@`, the whole run is cut off before its last `@`, because no value
starts after the run. -/
theorem Match.IsAt.exists_isWholeRun (h : m.IsAt cs) (hat : m.piece.value.head? = some '@') :
    ∃ more, IsWholeRun cs m.operatorStart (m.piece.operator ++ '@' :: more) ∧ '@' ∉ more ∧
      startsValue ((cs.drop m.operatorStart).drop (m.piece.operator ++ '@' :: more).length) =
        false := by
  obtain ⟨leftover, hrun, hlast⟩ := h.exists_leftover
  have hhead := h.head?_value hrun
  rw [hat] at hhead
  cases leftover with
  | nil =>
    exact absurd (eq_false_of_mem_head?_dropWhile (p := isOperatorChar) hhead.symm) (by decide)
  | cons c more =>
    obtain rfl : '@' = c := Option.some.inj hhead
    obtain ⟨-, hlater⟩ := beginsLast_cons_iff.1 hlast
    refine ⟨more, hrun ▸ h.isWholeRun, fun hmem => ?_, ?_⟩
    · obtain ⟨before, after, rfl⟩ := List.append_of_mem hmem
      exact Bool.false_ne_true (hlater ('@' :: after) (List.suffix_append before _)).symm
    · have hrest := List.takeWhile_append_dropWhile (p := isOperatorChar)
        (l := cs.drop m.operatorStart)
      rw [hrun] at hrest
      rw [← hrest, List.drop_left]
      exact hlater [] List.nil_suffix

/-! ## Operators of filters -/

/-- The operators of the filters, and the one that an error names, are those of matches. The operator of
a match is a whole run of operator characters if and only if its value does not begin with `@`.
Otherwise it is the part of a whole run before its last `@`, and no value starts after that run. -/
theorem operators_wholeRuns (s : String) :
    ∃ ms, Matches s.toList 0 ms ∧
      (∀ fs, parse s = .ok fs → fs.length = ms.length ∧
        ∀ (k : ℕ) (m : Match) f, ms[k]? = some m → fs[k]? = some f → m.Carried f) ∧
      (∀ e, parse s = .error e → ∃ m ∈ ms, ¬ m.Registered ∧
        e = .unknownOperator (String.ofList m.piece.operator)) ∧
      ∀ m ∈ ms,
        (IsWholeRun s.toList m.operatorStart m.piece.operator ↔ m.piece.value.head? ≠ some '@') ∧
        (m.piece.value.head? = some '@' → ∃ more,
          IsWholeRun s.toList m.operatorStart (m.piece.operator ++ '@' :: more) ∧ '@' ∉ more ∧
            startsValue ((s.toList.drop m.operatorStart).drop
              (m.piece.operator ++ '@' :: more).length) = false) := by
  obtain ⟨ms, hms, -⟩ := exists_matches s.toList 0
  refine ⟨ms, hms, fun fs hparse => ?_, fun e hparse => ?_, fun m hm => ?_⟩
  · obtain ⟨hlength, hparts⟩ := getElem?_of_parse hms hparse
    exact ⟨hlength, fun k m f hm hf => (hparts k m f hm hf).1⟩
  · obtain ⟨before, m, after, rfl, -, hnot, rfl⟩ := (parse_eq_error_iff hms).1 hparse
    exact ⟨m, by simp, hnot, rfl⟩
  · have hat := hms.isAt hm
    exact ⟨hat.isWholeRun_operator_iff, hat.exists_isWholeRun⟩

/-- A run that is no known operator can be cut down to one that is: the only whole run of `a==@` is
`==@`, and yet it is read as `==`. -/
theorem operators_wholeRuns_shortened :
    let s := "a==@"
    parse s = .ok [⟨"a", .generic .eq, "@", none⟩] ∧ IsWholeRun s.toList 1 "==@".toList ∧
      (∀ op : Operator, op.token.toList ≠ "==@".toList) ∧
      ∀ i, ¬ IsWholeRun s.toList i (Operator.generic .eq).token.toList := by
  intro s
  have hspan : (s.toList.drop 1).takeWhile isOperatorChar = "==@".toList := by decide
  refine ⟨by decide +kernel, ?_, fun op hop => ?_, fun i hwhole => ?_⟩
  · rw [← hspan]
    refine isWholeRun_takeWhile (by decide) fun k c hk hc => ?_
    obtain rfl : 0 = k := Nat.succ_injective hk
    have hfirst : s.toList[0]? = some 'a' := by decide
    rw [hfirst, Option.some.injEq] at hc
    exact hc ▸ by decide
  · have htoken := Operator.ofToken?_token op
    have hnone : Operator.ofToken? "==@" = none := by decide
    rw [String.toList_inj.1 hop, hnone] at htoken
    cases htoken
  · -- from no place on the run is `==`
    have hlength : s.toList.length = 4 := by decide
    have hruns : ∀ j < 4, (s.toList.drop j).takeWhile isOperatorChar ≠ "==".toList := by decide
    rcases Nat.lt_or_ge i 4 with hi | hi
    · exact hruns i hi hwhole.eq_takeWhile.symm
    · have hnil : s.toList.drop i = [] := List.drop_eq_nil_of_le (by rwa [hlength])
      have heq := hwhole.eq_takeWhile
      rw [hnil] at heq
      cases heq

end FilterClause.Filter
