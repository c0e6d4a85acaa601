import FilterClause.Proofs.Matches

/-!
# Which conditions of a filter string are kept

A run of operator characters between a field and a value looks like the operator of a condition
(`IsConditionRun`). It is the operator of a match unless the value of a match takes along the
character before it (`Match.Swallows`): values may have gaps, so `a==1 b!==2` is read as one match
with the value `1 b`, and the run `!==` is passed over.

`conditions_kept` says that this is the only way to lose a condition, and what holds of the runs that
are not lost: each is the operator of its own filter, in order, and an unknown one is an error.
-/

namespace FilterClause.Filter

/-- A whole run of operator characters, not of `@` alone, that stands directly between a character of
a field and a character of a value. -/
structure IsConditionRun (cs : List Char) (i : ℕ) (run : List Char) : Prop where
  longest : Longest (IsRunOf isOperatorChar) (cs.drop i) run
  other : ∃ c ∈ run, c ≠ '@'
  before : ∃ k c, i = k + 1 ∧ cs[k]? = some c ∧ isFieldChar c = true
  after : ∃ c, cs[i + run.length]? = some c ∧ isValueChar c = true

/-- The value of the match takes along the character before the place. -/
def Match.Swallows (m : Match) (i : ℕ) : Prop :=
  m.valueStart < i ∧ i ≤ m.valueStop

/-- Every condition run at such places is the operator of a filter, and a later run that of a later
filter. -/
def KeepsConditions (s : String) (kept : ℕ → Prop) (fs : List Filter) : Prop :=
  ∃ owner : ℕ → ℕ,
    (∀ i run, IsConditionRun s.toList i run → kept i →
      ∃ f, fs[owner i]? = some f ∧ f.operator.token.toList = run) ∧
    ∀ i run j run', IsConditionRun s.toList i run → kept i → IsConditionRun s.toList j run' →
      kept j → i < j → owner i < owner j

/-! ## Places in matches -/

theorem exists_mem_of_prefix_drop {cs xs : List Char} {i j : ℕ} (hx : xs <+: cs.drop i)
    (hij : i ≤ j) (hj : j < i + xs.length) : ∃ c ∈ xs, cs[j]? = some c := by
  obtain ⟨rest, hrest⟩ := hx
  obtain ⟨k, rfl⟩ := Nat.exists_eq_add_of_le hij
  have hk : k < xs.length := by omega
  refine ⟨xs[k], List.getElem_mem hk, ?_⟩
  rw [← List.getElem?_drop, ← hrest, List.getElem?_append_left hk, List.getElem?_eq_getElem hk]

theorem Match.start_le_operatorStart (m : Match) : m.start ≤ m.operatorStart :=
  Nat.le_add_right _ _

theorem Match.operatorStart_le_valueStart (m : Match) : m.operatorStart ≤ m.valueStart :=
  Nat.le_add_right _ _

theorem Match.valueStart_le_valueStop (m : Match) : m.valueStart ≤ m.valueStop :=
  Nat.le_add_right _ _

theorem Match.valueStop_le_stop (m : Match) : m.valueStop ≤ m.stop :=
  Nat.le_add_right _ _

theorem Match.start_le_valueStart (m : Match) : m.start ≤ m.valueStart :=
  m.start_le_operatorStart.trans m.operatorStart_le_valueStart

theorem Match.start_le_stop (m : Match) : m.start ≤ m.stop :=
  m.start_le_valueStart.trans (m.valueStart_le_valueStop.trans m.valueStop_le_stop)

/-- Matches stand one after the other. -/
theorem Matches.pairwise {cs : List Char} {i : ℕ} {ms : List Match} (h : Matches cs i ms) :
    (∀ m ∈ ms, i ≤ m.start) ∧ ms.Pairwise fun m m' => m.stop ≤ m'.start := by
  induction h with
  | nil => exact ⟨by simp, .nil⟩
  | @cons i m ms hle _ _ _ ih =>
    refine ⟨fun m' hm' => ?_, List.pairwise_cons.2 ih⟩
    rcases List.mem_cons.1 hm' with rfl | hm'
    · exact hle
    · exact hle.trans (m.start_le_stop.trans (ih.1 m' hm'))

theorem Match.IsAt.operatorStart_lt_stop {m : Match} {cs : List Char} (h : m.IsAt cs) :
    m.operatorStart < m.stop := by
  have hpos := List.length_pos_iff.2 h.operator.holds.1.ne_nil
  exact (Nat.lt_add_of_pos_right hpos).trans_le
    (m.valueStart_le_valueStop.trans m.valueStop_le_stop)

/-- A place lies in one match at most. -/
theorem Matches.eq_of_mem {cs : List Char} {i k : ℕ} {ms : List Match} (h : Matches cs i ms)
    {m m' : Match} (hm : m ∈ ms) (hm' : m' ∈ ms) (hk : m.start ≤ k ∧ k < m.stop)
    (hk' : m'.start ≤ k ∧ k < m'.stop) : m = m' := by
  obtain ⟨a, ha, rfl⟩ := List.getElem_of_mem hm
  obtain ⟨b, hb, rfl⟩ := List.getElem_of_mem hm'
  have hapart := List.pairwise_iff_getElem.1 h.pairwise.2
  rcases Nat.lt_trichotomy a b with hab | rfl | hba
  · have hstop := hapart a b ha hb hab
    omega
  · rfl
  · have hstop := hapart b a hb ha hba
    omega

/-- Of two matches the one whose operator stands further on comes later. -/
theorem Matches.index_lt {cs : List Char} {i k l : ℕ} {ms : List Match} (h : Matches cs i ms)
    {m m' : Match} (hk : ms[k]? = some m) (hl : ms[l]? = some m')
    (hlt : m.operatorStart < m'.operatorStart) : k < l := by
  obtain ⟨hkl, rfl⟩ := List.getElem?_eq_some_iff.1 hk
  obtain ⟨hll, rfl⟩ := List.getElem?_eq_some_iff.1 hl
  by_contra hge
  rcases Nat.lt_or_eq_of_le (Nat.not_lt.1 hge) with hlk | rfl
  · have hapart := List.pairwise_iff_getElem.1 h.pairwise.2 l k hll hkl hlk
    have hstop := (h.isAt (List.getElem_mem hll)).operatorStart_lt_stop
    have hstart := ms[k].start_le_operatorStart
    omega
  · exact lt_irrefl _ hlt

/-! ## Condition runs -/

variable {cs run : List Char} {i : ℕ}

/-- A value directly follows a condition run. -/
theorem IsConditionRun.takesValue (h : IsConditionRun cs i run) : TakesValue (cs.drop i) run := by
  obtain ⟨rest, hrest⟩ := h.longest.isPrefix
  obtain ⟨c, hc, hvalue⟩ := h.after
  rw [← hrest, takesValue_append_iff h.longest.holds]
  rw [← List.getElem?_drop, ← hrest, List.getElem?_append_right (Nat.le_refl _),
    Nat.sub_self] at hc
  cases rest with
  | nil => cases hc
  | cons d rest =>
    rw [List.getElem?_cons_zero, Option.some.injEq] at hc
    exact hc ▸ hvalue

theorem IsConditionRun.getElem? (h : IsConditionRun cs i run) :
    ∃ c, cs[i]? = some c ∧ isOperatorChar c = true := by
  have hpos := List.length_pos_iff.2 h.longest.holds.ne_nil
  obtain ⟨c, hc, hi⟩ :=
    exists_mem_of_prefix_drop h.longest.isPrefix (Nat.le_refl i) (Nat.lt_add_of_pos_right hpos)
  exact ⟨c, hi, h.longest.holds.all c hc⟩

theorem IsConditionRun.getElem?_before {k : ℕ} (h : IsConditionRun cs (k + 1) run) :
    ∃ c, cs[k]? = some c ∧ isFieldChar c = true := by
  obtain ⟨k', c, hk', hc⟩ := h.before
  obtain rfl := Nat.succ_injective hk'
  exact ⟨c, hc⟩

/-- The character before a condition run could start a match. -/
theorem IsConditionRun.readable {k : ℕ} (h : IsConditionRun cs (k + 1) run) :
    Readable (cs.drop k) := by
  obtain ⟨c, hc, hfield⟩ := h.getElem?_before
  obtain ⟨hk, rfl⟩ := List.getElem?_eq_some_iff.1 hc
  have hsplit : cs.drop k = [cs[k]] ++ cs.drop (k + 1) := List.drop_eq_getElem_cons hk
  rw [hsplit, readable_append_iff (isRunOf_singleton hfield) fun d hd => ?_]
  · exact ⟨run, h.takesValue⟩
  · obtain ⟨e, he, hoperator⟩ := h.getElem?
    rw [List.head?_drop, Option.mem_def, he, Option.some.injEq] at hd
    exact isFieldChar_of_isOperatorChar (hd ▸ hoperator)

/-- A match whose operator stands at a condition run has the run as its operator. -/
theorem IsConditionRun.operator_eq (h : IsConditionRun cs i run) {m : Match} (hm : m.IsAt cs)
    (hi : m.operatorStart = i) : m.piece.operator = run := by
  have hoperator := hm.operator
  rw [hi] at hoperator
  have hle := h.longest.length_le m.piece.operator hoperator.isPrefix hoperator.holds.1
  have hge := hoperator.length_le run h.longest.isPrefix h.takesValue
  exact (List.prefix_of_prefix_length_le hoperator.isPrefix h.longest.isPrefix hle).eq_of_length
    (Nat.le_antisymm hle hge)

/-- In a match, the character before a condition run is the last one of the field or one of the
value. -/
theorem IsConditionRun.operatorStart_or_swallows {k : ℕ} (h : IsConditionRun cs (k + 1) run)
    {m : Match} (hm : m.IsAt cs) (hk : m.start ≤ k ∧ k < m.stop) :
    m.operatorStart = k + 1 ∨ m.Swallows (k + 1) := by
  obtain ⟨c, hc, hfield⟩ := h.getElem?_before
  rcases Nat.lt_or_ge k m.operatorStart with hlt | hge
  · -- the field does not go on behind it, for there the run starts
    refine .inl (Nat.le_antisymm (Nat.le_of_not_lt fun hmore => ?_) hlt)
    obtain ⟨d, hd, hnext⟩ := exists_mem_of_prefix_drop hm.field.isPrefix (by omega) hmore
    obtain ⟨e, he, hoperator⟩ := h.getElem?
    have htrue := hm.field.holds.all d hd
    rw [hnext, Option.some.injEq] at he
    rw [he, isFieldChar_of_isOperatorChar hoperator] at htrue
    cases htrue
  rcases Nat.lt_or_ge k m.valueStart with hlt | hge'
  · obtain ⟨d, hd, hchar⟩ := exists_mem_of_prefix_drop hm.operator.isPrefix hge hlt
    have hfalse := isFieldChar_of_isOperatorChar (hm.operator.holds.1.all d hd)
    rw [hc, Option.some.injEq] at hchar
    rw [← hchar, hfield] at hfalse
    cases hfalse
  rcases Nat.lt_or_ge k m.valueStop with hlt | hstop
  · exact .inr ⟨by omega, hlt⟩
  · -- only a combinator is left, and that is no character of a field
    exfalso
    have hstopped := hk.2
    rw [Match.stop] at hstopped
    split at hstopped
    · next hsome =>
      obtain ⟨j, hj⟩ := Option.isSome_iff_exists.1 hsome
      have hmarker := hm.joiner
      have hplace : m.valueStop = k := by omega
      rw [hplace, hc, hj, Option.bind_some, eq_comm, Combinator.ofMarker?_eq_some_iff] at hmarker
      rw [hmarker] at hfield
      cases j <;> exact absurd hfield (by decide)
    · omega

/-- A condition run is the operator of a match unless the value of a match takes the character before
it along. -/
theorem IsConditionRun.operator_iff {ms : List Match} (h : IsConditionRun cs i run)
    (hms : Matches cs 0 ms) :
    (∃ m ∈ ms, m.operatorStart = i ∧ m.piece.operator = run) ↔ ∀ m ∈ ms, ¬ m.Swallows i := by
  obtain ⟨k, c, rfl, hc, hfield⟩ := h.before
  constructor
  · rintro ⟨m, hm, hstart, -⟩ m' hm' ⟨hlt, hle⟩
    have hat := hms.isAt hm
    have hfieldPos := List.length_pos_iff.2 hat.field.holds.ne_nil
    have hplace : m.start ≤ k ∧ k < m.stop := by
      have hstop := hat.operatorStart_lt_stop
      rw [Match.operatorStart] at hstart hstop
      omega
    have hplace' : m'.start ≤ k ∧ k < m'.stop :=
      ⟨m'.start_le_valueStart.trans (Nat.le_of_lt_succ hlt), hle.trans m'.valueStop_le_stop⟩
    -- the place lies in both matches, so they are one, and its value would start before its operator
    obtain rfl := hms.eq_of_mem hm hm' hplace hplace'
    exact absurd (hstart ▸ m.operatorStart_le_valueStart) hlt.not_ge
  · intro hkept
    by_contra hnone
    refine hms.not_readable (Nat.zero_le k) (fun m hm hk => ?_) h.readable
    rcases h.operatorStart_or_swallows (hms.isAt hm) hk with hstart | hswallows
    · exact hnone ⟨m, hm, hstart, h.operator_eq (hms.isAt hm) hstart⟩
    · exact hkept m hm hswallows

/-! ## Filters of condition runs -/

/-- The number of the first match whose operator stands at a place. -/
def matchIndex (ms : List Match) (i : ℕ) : ℕ :=
  ms.findIdx fun m => m.operatorStart = i

theorem getElem?_matchIndex {ms : List Match} {m : Match} (hm : m ∈ ms) :
    ∃ m', ms[matchIndex ms m.operatorStart]? = some m' ∧ m'.operatorStart = m.operatorStart := by
  have hlt : matchIndex ms m.operatorStart < ms.length :=
    List.findIdx_lt_length_of_exists ⟨m, hm, by simp⟩
  exact ⟨_, List.getElem?_eq_getElem hlt, of_decide_eq_true (List.findIdx_getElem (w := hlt))⟩

/-- The filters of the matches have the operators of the matches. -/
theorem exists_filter_of_parse {s : String} {ms : List Match} {fs : List Filter}
    (hms : Matches s.toList 0 ms) (h : parse s = .ok fs) {k : ℕ} {m : Match} (hm : ms[k]? = some m) :
    ∃ f, fs[k]? = some f ∧ f.operator.token.toList = m.piece.operator := by
  obtain ⟨hlength, hparts⟩ := getElem?_of_parse hms h
  have hk : k < fs.length := hlength ▸ (List.getElem?_eq_some_iff.1 hm).1
  exact ⟨fs[k], List.getElem?_eq_getElem hk,
    (hparts k m fs[k] hm (List.getElem?_eq_getElem hk)).1.operator⟩

/-- A condition run is the operator of a match unless a value takes along the character before it. The
runs that no value reaches are the operators of filters, in order and each of its own; if one of them
is not a known operator, reading fails and names an unknown operator. -/
theorem conditions_kept (s : String) :
    ∃ ms, Matches s.toList 0 ms ∧
      (∀ i run, IsConditionRun s.toList i run →
        ((∃ m ∈ ms, m.operatorStart = i ∧ m.piece.operator = run) ↔ ∀ m ∈ ms, ¬ m.Swallows i)) ∧
      (∀ fs, parse s = .ok fs → KeepsConditions s (fun i => ∀ m ∈ ms, ¬ m.Swallows i) fs) ∧
      ∀ i run, IsConditionRun s.toList i run → (∀ m ∈ ms, ¬ m.Swallows i) →
        (∀ op : Operator, op.token.toList ≠ run) →
          ∃ token, parse s = .error (.unknownOperator token) := by
  obtain ⟨ms, hms, -⟩ := exists_matches s.toList 0
  have howner : ∀ {i run}, IsConditionRun s.toList i run → (∀ m ∈ ms, ¬ m.Swallows i) →
      ∃ m, ms[matchIndex ms i]? = some m ∧ m.operatorStart = i ∧ m.piece.operator = run := by
    intro i run hrun hkept
    obtain ⟨m, hm, rfl, -⟩ := (hrun.operator_iff hms).2 hkept
    obtain ⟨m', hm', hstart⟩ := getElem?_matchIndex hm
    exact ⟨m', hm', hstart, hrun.operator_eq (hms.isAt (List.mem_of_getElem? hm')) hstart⟩
  refine ⟨ms, hms, fun i run hrun => hrun.operator_iff hms, fun fs hparse => ?_,
    fun i run hrun hkept hunknown => ?_⟩
  · refine ⟨matchIndex ms, fun i run hrun hkept => ?_,
      fun i run j run' hrun hkept hrun' hkept' hij => ?_⟩
    · obtain ⟨m, hm, -, rfl⟩ := howner hrun hkept
      exact exists_filter_of_parse hms hparse hm
    · obtain ⟨m, hm, hstart, -⟩ := howner hrun hkept
      obtain ⟨m', hm', hstart', -⟩ := howner hrun' hkept'
      exact hms.index_lt hm hm' (by omega)
  · obtain ⟨m, hm, -, rfl⟩ := howner hrun hkept
    obtain ⟨before, m', after, rfl, hbefore, hm'⟩ :=
      exists_first_not_registered (List.mem_of_getElem? hm) fun ⟨op, hop⟩ => hunknown op hop
    exact ⟨_, parse_eq_error hms hbefore hm'⟩

/-- A condition can be lost: the value `1 b` takes along the field of the second one, whose operator
is not even a known one, and yet there is no error. -/
theorem conditions_kept_swallowed :
    let s := "a==1 b!==2"
    let fs : List Filter := [⟨"a", .generic .eq, "1 b", none⟩]
    parse s = .ok fs ∧ IsConditionRun s.toList 6 "!==".toList ∧
      (∀ op : Operator, op.token.toList ≠ "!==".toList) ∧
      ¬ KeepsConditions s (fun _ => True) fs := by
  intro s fs
  have hrun : IsConditionRun s.toList 6 "!==".toList := by
    have hspan : (s.toList.drop 6).takeWhile isOperatorChar = "!==".toList := by decide
    exact ⟨hspan ▸ longest_takeWhile (by decide), ⟨'!', by decide, by decide⟩,
      ⟨5, 'b', rfl, by decide, by decide⟩, ⟨'2', by decide, by decide⟩⟩
  have hunknown : ∀ op : Operator, op.token.toList ≠ "!==".toList := by
    intro op hop
    have hknown := Operator.ofToken?_eq_some_iff.2 (String.toList_inj.1 hop)
    have hnone : Operator.ofToken? "!==" = none := by decide
    rw [hnone] at hknown
    cases hknown
  refine ⟨by decide +kernel, hrun, hunknown, ?_⟩
  rintro ⟨owner, howner, -⟩
  obtain ⟨f, -, hoperator⟩ := howner 6 _ hrun trivial
  exact hunknown f.operator hoperator

end FilterClause.Filter
