import FilterClause.Proofs.ConditionRuns
import Mathlib.Data.List.Basic

/-!
# Filter strings joined by a combinator

Two filter strings with a combinator between them are read each by itself. No part of a condition has
a marker in it, so what can be read before the marker is what could be read without it
(`readable_append_marker_iff`, `Match.IsAt.append_marker`), and the matches are those of both strings
(`Matches.append_marker`).

The one difference is the joiner of the last match before the marker: where that match ends the first
string and has no combinator, it takes the marker along (`Match.followedBy`). `parse_append_marker`
says what this means for the filters.
-/

namespace FilterClause.Filter

/-! ## No part of a condition has a marker -/

theorem isValueChar_marker (c : Combinator) : isValueChar c.marker = false := by
  cases c <;> decide

theorem isOperatorChar_marker (c : Combinator) : isOperatorChar c.marker = false := by
  cases c <;> decide

theorem isFieldChar_marker (c : Combinator) : isFieldChar c.marker = false := by
  cases c <;> decide

theorem isGap_marker (c : Combinator) : isGap c.marker = false := by
  cases c <;> decide

theorem IsRunOf.notMem {p : Char → Bool} {run : List Char} (h : IsRunOf p run) {c : Char}
    (hc : p c = false) : c ∉ run := by
  intro hmem
  rw [h.all c hmem] at hc
  cases hc

theorem IsValue.marker_notMem {value : List Char} (h : IsValue value) (c : Combinator) :
    c.marker ∉ value := by
  induction h with
  | word hword => exact hword.notMem (isValueChar_marker c)
  | more hword hgap _ ih =>
    simp only [List.mem_append, not_or]
    exact ⟨hword.notMem (isValueChar_marker c), hgap.notMem (isGap_marker c), ih⟩

theorem marker_notMem_append {operator value : List Char} (hoperator : IsRunOf isOperatorChar operator)
    (hvalue : IsValue value) (c : Combinator) : c.marker ∉ operator ++ value := by
  rw [List.mem_append, not_or]
  exact ⟨hoperator.notMem (isOperatorChar_marker c), hvalue.marker_notMem c⟩

/-! ## What is read before a marker -/

variable {c : Combinator} {cs rest : List Char}

/-- A beginning without the marker ends before the marker. -/
theorem prefix_append_cons_iff {xs ys zs : List Char} {d : Char} (hd : d ∉ xs) :
    xs <+: ys ++ d :: zs ↔ xs <+: ys := by
  constructor
  · intro h
    rcases List.prefix_or_prefix_of_prefix h (List.prefix_append ys (d :: zs)) with hxy | ⟨ts, rfl⟩
    · exact hxy
    · -- what `xs` has more than `ys` begins with the marker
      rw [List.prefix_append_right_inj] at h
      cases ts with
      | nil => simp
      | cons t ts =>
        obtain ⟨more, hmore⟩ := h
        rw [List.cons_append, List.cons.injEq] at hmore
        exact absurd (List.mem_append_right ys (hmore.1 ▸ List.mem_cons_self)) hd
  · intro h
    exact h.trans (List.prefix_append ys _)

theorem longest_append_marker_iff {P : List Char → Prop} (hP : ∀ ys, P ys → c.marker ∉ ys)
    {xs : List Char} : Longest P (cs ++ c.marker :: rest) xs ↔ Longest P cs xs := by
  constructor
  · rintro ⟨hpre, hxs, hlength⟩
    exact ⟨(prefix_append_cons_iff (hP xs hxs)).1 hpre, hxs, fun ys hys hPys =>
      hlength ys ((prefix_append_cons_iff (hP ys hPys)).2 hys) hPys⟩
  · rintro ⟨hpre, hxs, hlength⟩
    exact ⟨(prefix_append_cons_iff (hP xs hxs)).2 hpre, hxs, fun ys hys hPys =>
      hlength ys ((prefix_append_cons_iff (hP ys hPys)).1 hys) hPys⟩

theorem takesValue_append_marker_iff {operator : List Char} :
    TakesValue (cs ++ c.marker :: rest) operator ↔ TakesValue cs operator := by
  have hiff : ∀ value, IsRunOf isOperatorChar operator → IsValue value →
      (operator ++ value <+: cs ++ c.marker :: rest ↔ operator ++ value <+: cs) :=
    fun _ hoperator hvalue => prefix_append_cons_iff (marker_notMem_append hoperator hvalue c)
  constructor
  · rintro ⟨hoperator, value, hvalue, h⟩
    exact ⟨hoperator, value, hvalue, (hiff value hoperator hvalue).1 h⟩
  · rintro ⟨hoperator, value, hvalue, h⟩
    exact ⟨hoperator, value, hvalue, (hiff value hoperator hvalue).2 h⟩

theorem readable_append_marker_iff : Readable (cs ++ c.marker :: rest) ↔ Readable cs := by
  have hiff : ∀ field operator value, IsRunOf isFieldChar field →
      IsRunOf isOperatorChar operator → IsValue value →
      (field ++ (operator ++ value) <+: cs ++ c.marker :: rest ↔
        field ++ (operator ++ value) <+: cs) := by
    intro field operator value hfield hoperator hvalue
    refine prefix_append_cons_iff fun hmem => ?_
    rcases List.mem_append.1 hmem with hmem | hmem
    · exact hfield.notMem (isFieldChar_marker c) hmem
    · exact marker_notMem_append hoperator hvalue c hmem
  constructor
  · rintro ⟨field, operator, value, hfield, hoperator, hvalue, h⟩
    exact ⟨field, operator, value, hfield, hoperator, hvalue,
      (hiff field operator value hfield hoperator hvalue).1 h⟩
  · rintro ⟨field, operator, value, hfield, hoperator, hvalue, h⟩
    exact ⟨field, operator, value, hfield, hoperator, hvalue,
      (hiff field operator value hfield hoperator hvalue).2 h⟩

theorem readable_drop_append_marker_iff {j : ℕ} (hj : j ≤ cs.length) :
    Readable ((cs ++ c.marker :: rest).drop j) ↔ Readable (cs.drop j) := by
  rw [List.drop_append_of_le_length hj, readable_append_marker_iff]

/-- Nothing is read from a marker on. -/
theorem not_readable_marker : ¬ Readable ((cs ++ c.marker :: rest).drop cs.length) := by
  rw [List.drop_left]
  intro h
  obtain ⟨d, rest', heq, hd⟩ := h.exists_cons
  rw [List.cons.injEq] at heq
  rw [← heq.1, isFieldChar_marker] at hd
  cases hd

/-! ## Matches before and after a marker -/

/-- The match with a combinator behind the characters, which it takes along where it ends them and has
none of its own. -/
def Match.followedBy (m : Match) (stop : ℕ) (c : Combinator) : Match :=
  { m with piece :=
    { m.piece with joiner := m.piece.joiner.or (if m.stop = stop then some c else none) } }

/-- The match at a later place. -/
def Match.shift (m : Match) (count : ℕ) : Match :=
  { m with start := count + m.start }

variable {m : Match} {ms : List Match}

theorem Match.IsAt.valueStop_le (h : m.IsAt cs) : m.valueStop ≤ cs.length := by
  have hlength := h.value.isPrefix.length_le
  have hpos := List.length_pos_iff.2 h.value.holds.ne_nil
  rw [List.length_drop] at hlength
  rw [Match.valueStop]
  omega

/-- Where the value ends the characters no combinator follows. -/
theorem Match.IsAt.joiner_eq_none (h : m.IsAt cs) (hstop : m.valueStop = cs.length) :
    m.piece.joiner = none := by
  rw [h.joiner, hstop, List.getElem?_eq_none (Nat.le_refl _)]
  rfl

theorem Match.IsAt.stop_le (h : m.IsAt cs) : m.stop ≤ cs.length := by
  have hle := h.valueStop_le
  rcases Nat.lt_or_eq_of_le hle with hlt | heq
  · rw [Match.stop]
    split <;> omega
  · rw [Match.stop, h.joiner_eq_none heq]
    simpa using hle

/-- A match takes the marker behind the characters along if it ends them and has no combinator. -/
theorem Match.IsAt.append_marker (h : m.IsAt cs) (c : Combinator) (rest : List Char) :
    (m.followedBy cs.length c).IsAt (cs ++ c.marker :: rest) := by
  have hvalueStop := h.valueStop_le
  have hstart := m.start_le_operatorStart
  have hoperatorStart := m.operatorStart_le_valueStart
  have hvalueStart := m.valueStart_le_valueStop
  refine ⟨?_, ?_, ?_, ?_⟩
  · show Longest _ ((cs ++ c.marker :: rest).drop m.start) m.piece.field
    rw [List.drop_append_of_le_length (by omega),
      longest_append_marker_iff fun ys hys => hys.notMem (isFieldChar_marker c)]
    exact h.field
  · show Longest (TakesValue ((cs ++ c.marker :: rest).drop m.operatorStart))
      ((cs ++ c.marker :: rest).drop m.operatorStart) m.piece.operator
    rw [List.drop_append_of_le_length (by omega),
      longest_append_marker_iff fun ys hys => hys.1.notMem (isOperatorChar_marker c)]
    have heq : TakesValue (cs.drop m.operatorStart ++ c.marker :: rest) =
        TakesValue (cs.drop m.operatorStart) :=
      funext fun _ => propext takesValue_append_marker_iff
    rw [heq]
    exact h.operator
  · show Longest _ ((cs ++ c.marker :: rest).drop m.valueStart) m.piece.value
    rw [List.drop_append_of_le_length (by omega),
      longest_append_marker_iff fun ys hys => hys.marker_notMem c]
    exact h.value
  · show m.piece.joiner.or _ = (cs ++ c.marker :: rest)[m.valueStop]?.bind Combinator.ofMarker?
    rcases Nat.lt_or_eq_of_le hvalueStop with hlt | heq
    · rw [List.getElem?_append_left hlt, ← h.joiner]
      cases hjoiner : m.piece.joiner with
      | some j => rfl
      | none =>
        have hne : m.stop ≠ cs.length := by
          rw [Match.stop, hjoiner]
          simpa using hlt.ne
        rw [if_neg hne]
        rfl
    · have hjoiner := h.joiner_eq_none heq
      have hstop : m.stop = cs.length := by
        rw [Match.stop, hjoiner]
        simpa using heq
      rw [hjoiner, if_pos hstop, heq, List.getElem?_append_right (Nat.le_refl _), Nat.sub_self,
        List.getElem?_cons_zero, Option.bind_some, Combinator.ofMarker?_marker]
      rfl

theorem Match.operatorStart_shift (m : Match) (count : ℕ) :
    (m.shift count).operatorStart = count + m.operatorStart :=
  Nat.add_assoc _ _ _

theorem Match.valueStart_shift (m : Match) (count : ℕ) :
    (m.shift count).valueStart = count + m.valueStart := by
  rw [valueStart, operatorStart_shift, Nat.add_assoc]
  rfl

theorem Match.valueStop_shift (m : Match) (count : ℕ) :
    (m.shift count).valueStop = count + m.valueStop := by
  rw [valueStop, valueStart_shift, Nat.add_assoc]
  rfl

theorem Match.stop_shift (m : Match) (count : ℕ) : (m.shift count).stop = count + m.stop := by
  rw [stop, valueStop_shift, Nat.add_assoc]
  rfl

theorem Match.IsAt.shift (h : m.IsAt cs) (before : List Char) :
    (m.shift before.length).IsAt (before ++ cs) := by
  refine ⟨?_, ?_, ?_, ?_⟩
  · show Longest _ ((before ++ cs).drop (before.length + m.start)) m.piece.field
    rw [List.drop_length_add_append]
    exact h.field
  · rw [operatorStart_shift, List.drop_length_add_append]
    exact h.operator
  · rw [valueStart_shift, List.drop_length_add_append]
    exact h.value
  · rw [valueStop_shift, List.getElem?_append_right (Nat.le_add_right _ _),
      Nat.add_sub_cancel_left]
    exact h.joiner

theorem Matches.shift {i : ℕ} (h : Matches cs i ms) (before : List Char) :
    Matches (before ++ cs) (before.length + i) (ms.map (·.shift before.length)) := by
  induction h with
  | nil hrest =>
    refine .nil fun j hij => ?_
    obtain ⟨k, rfl⟩ := Nat.exists_eq_add_of_le ((Nat.le_add_right _ _).trans hij)
    rw [List.drop_length_add_append]
    exact hrest k (Nat.le_of_add_le_add_left hij)
  | cons hle hskip hat _ ih =>
    refine .cons (Nat.add_le_add_left hle _) (fun j hij hjm => ?_) (hat.shift before) ?_
    · obtain ⟨k, rfl⟩ := Nat.exists_eq_add_of_le ((Nat.le_add_right _ _).trans hij)
      rw [List.drop_length_add_append]
      exact hskip k (Nat.le_of_add_le_add_left hij) (Nat.lt_of_add_lt_add_left hjm)
    · rw [Match.stop_shift]
      exact ih

/-- Places that are not readable have been skipped. -/
theorem Matches.of_skip {i k : ℕ} (h : Matches cs i ms) (hik : i ≤ k)
    (hskip : ∀ j, i ≤ j → j < k → ¬ Readable (cs.drop j)) : Matches cs k ms := by
  cases h with
  | nil hrest => exact .nil fun j hkj => hrest j (hik.trans hkj)
  | cons hle hbefore hat hrest =>
    have hkm := Nat.le_of_not_lt fun hlt => hskip _ hle hlt hat.readable
    exact .cons hkm (fun j hkj hjm => hbefore j (hik.trans hkj) hjm) hat hrest

/-- The place after a match that is followed by a combinator: the marker may belong to it. -/
theorem Match.stop_followedBy (m : Match) (stop : ℕ) (c : Combinator) :
    (m.followedBy stop c).stop = m.stop ∨
      m.stop = stop ∧ (m.followedBy stop c).stop = stop + 1 := by
  have hstop : (m.followedBy stop c).stop = m.valueStop +
      if (m.piece.joiner.or (if m.stop = stop then some c else none)).isSome then 1 else 0 :=
    rfl
  cases hjoiner : m.piece.joiner with
  | some j =>
    rw [hstop, Match.stop, hjoiner]
    exact .inl rfl
  | none =>
    rw [hjoiner, Option.none_or] at hstop
    by_cases hend : m.stop = stop
    · have hvalueStop : m.valueStop = stop := by
        rw [← hend, Match.stop, hjoiner]
        rfl
      rw [if_pos hend, hvalueStop] at hstop
      exact .inr ⟨hend, hstop⟩
    · rw [if_neg hend] at hstop
      rw [hstop, Match.stop, hjoiner]
      exact .inl rfl

/-- The matches of two texts with a marker between them are those of the first one, the last of which
may take the marker along, and those of the second one. -/
theorem Matches.append_marker {i : ℕ} {ms ms' : List Match} (h : Matches cs i ms)
    (h' : Matches rest 0 ms') (hi : i ≤ cs.length) (c : Combinator) :
    Matches (cs ++ c.marker :: rest) i (ms.map (·.followedBy cs.length c) ++
      ms'.map (·.shift (cs.length + 1))) := by
  induction h with
  | nil hrest =>
    -- nothing is read before the marker or at it
    have hlater := h'.shift (cs ++ [c.marker])
    rw [List.append_assoc, List.singleton_append, List.length_append, List.length_singleton,
      Nat.add_zero] at hlater
    refine hlater.skip (by omega) fun j hij hj => ?_
    rcases Nat.lt_or_eq_of_le (Nat.le_of_lt_succ hj) with hj | rfl
    · rw [readable_drop_append_marker_iff hj.le]
      exact hrest j hij
    · exact not_readable_marker
  | @cons i m ms hle hskip hat _ ih =>
    have hlater := ih hat.stop_le
    have hm : m.start ≤ cs.length := m.start_le_stop.trans hat.stop_le
    refine .cons hle (fun j hij hjm => ?_) (hat.append_marker c rest) ?_
    · rw [readable_drop_append_marker_iff (hjm.le.trans hm)]
      exact hskip j hij hjm
    · rcases m.stop_followedBy cs.length c with hstop | ⟨hend, hstop⟩
      · exact hstop ▸ hlater
      · -- the marker belongs to the match
        rw [hstop]
        refine hlater.of_skip (by omega) fun j hij hj => ?_
        obtain rfl : j = cs.length := by omega
        exact not_readable_marker

/-- Only the last match can end the characters. -/
theorem Matches.map_followedBy {before : List Match} {last : Match}
    (h : Matches cs 0 (before ++ [last])) (c : Combinator) :
    (before ++ [last]).map (·.followedBy cs.length c) =
      before ++ [last.followedBy cs.length c] := by
  rw [List.map_append, List.map_singleton, List.append_cancel_right_eq]
  have hkept : ∀ m ∈ before, m.followedBy cs.length c = m := by
    intro m hm
    have hapart := (List.pairwise_append.1 h.pairwise.2).2.2 m hm last (List.mem_singleton_self last)
    have hlast := h.isAt (List.mem_append_right before (List.mem_singleton_self last))
    have hlater := last.start_le_operatorStart.trans_lt hlast.operatorStart_lt_stop
    have hne : m.stop ≠ cs.length := (hapart.trans_lt (hlater.trans_le hlast.stop_le)).ne
    rw [Match.followedBy, if_neg hne, Option.or_none]
  rw [List.map_congr_left hkept, List.map_id']

/-! ## Filters before and after a marker -/

/-- The filter joined to a next one. -/
def joined (f : Filter) : Filter :=
  { f with joiner := some (f.joiner.getD .and) }

theorem settleJoiners_append {fs gs : List Filter} (h : gs ≠ []) :
    settleJoiners (fs ++ gs) = fs.map joined ++ settleJoiners gs := by
  induction fs with
  | nil => rfl
  | cons f fs ih =>
    rw [List.cons_append, settleJoiners_cons (List.append_ne_nil_of_right_ne_nil fs h), ih]
    rfl

theorem settleJoiners_concat (fs : List Filter) (f : Filter) :
    settleJoiners (fs ++ [f]) = fs.map joined ++ [{ f with joiner := none }] :=
  settleJoiners_append (List.cons_ne_nil f [])

theorem toList_append_marker (s₁ s₂ : String) (c : Combinator) :
    (s₁ ++ c.marker.toString ++ s₂).toList = s₁.toList ++ c.marker :: s₂.toList := by
  have hmarker : c.marker.toString.toList = [c.marker] := String.toList_singleton c.marker
  rw [String.toList_append, String.toList_append, hmarker, List.append_assoc,
    List.singleton_append]

section Texts

variable {s₁ s₂ : String} {ms₁ ms₂ : List Match}

theorem matches_append_marker (h₁ : Matches s₁.toList 0 ms₁) (h₂ : Matches s₂.toList 0 ms₂)
    (c : Combinator) : Matches (s₁ ++ c.marker.toString ++ s₂).toList 0
      (ms₁.map (·.followedBy s₁.toList.length c) ++ ms₂.map (·.shift (s₁.toList.length + 1))) := by
  rw [toList_append_marker]
  exact h₁.append_marker h₂ (Nat.zero_le _) c

/-- An unknown operator of the first text is the error. -/
theorem parse_append_marker_of_error (h₁ : Matches s₁.toList 0 ms₁)
    (h₂ : Matches s₂.toList 0 ms₂) {e : Error} (h : parse s₁ = .error e) (c : Combinator) :
    parse (s₁ ++ c.marker.toString ++ s₂) = .error e := by
  obtain ⟨before, m, after, rfl, hbefore, hm, rfl⟩ := (parse_eq_error_iff h₁).1 h
  have hall := matches_append_marker h₁ h₂ c
  rw [List.map_append, List.map_cons, List.append_assoc, List.cons_append] at hall
  have herror := parse_eq_error hall (List.forall_mem_map.2 hbefore) hm
  exact herror

/-- Without an unknown operator in the first text, one of the second text is the error. -/
theorem parse_append_marker_of_ok_error (h₁ : Matches s₁.toList 0 ms₁)
    (h₂ : Matches s₂.toList 0 ms₂) {fs : List Filter} {e : Error} (hfs : parse s₁ = .ok fs)
    (h : parse s₂ = .error e) (c : Combinator) :
    parse (s₁ ++ c.marker.toString ++ s₂) = .error e := by
  have hknown : ∀ m ∈ ms₁, m.Registered := by
    obtain ⟨raw, hraw, -⟩ := (parse_eq_ok_iff h₁).1 hfs
    intro m hm
    obtain ⟨f, -, hf⟩ := List.mem_map.1 (hraw ▸ List.mem_map_of_mem hm)
    exact Match.registered_iff.2 ⟨f, ofPiece?_eq_ok_iff.2 hf.symm⟩
  obtain ⟨before, m, after, rfl, hbefore, hm, rfl⟩ := (parse_eq_error_iff h₂).1 h
  have hall := matches_append_marker h₁ h₂ c
  rw [List.map_append, List.map_cons, ← List.append_assoc] at hall
  have herror := parse_eq_error hall (List.forall_mem_append.2
    ⟨List.forall_mem_map.2 hknown, List.forall_mem_map.2 hbefore⟩) hm
  exact herror

/-- The matches that spell some filters and a last one. -/
theorem exists_of_map_piece_eq_concat {ms : List Match} {raw : List Filter} {last : Filter}
    (h : ms.map Match.piece = (raw ++ [last]).map toPiece) : ∃ before m, ms = before ++ [m] ∧
      before.map Match.piece = raw.map toPiece ∧ m.piece = last.toPiece := by
  rw [List.map_append] at h
  obtain ⟨before, ms', rfl, hbefore, hlast⟩ := List.map_eq_append_iff.1 h
  obtain ⟨m, rfl, hm⟩ := List.map_eq_singleton_iff.1 hlast
  exact ⟨before, m, rfl, hbefore, hm⟩

/-- The filters before their joiners are settled: the last one of the first text may have got the
marker. -/
theorem parse_append_marker_of_concat {before : List Match} {last : Match}
    (h₁ : Matches s₁.toList 0 (before ++ [last])) (h₂ : Matches s₂.toList 0 ms₂)
    {raw raw' : List Filter} {f : Filter} (hbefore : before.map Match.piece = raw.map toPiece)
    (hlast : last.piece = f.toPiece) (hraw' : ms₂.map Match.piece = raw'.map toPiece)
    (c : Combinator) :
    parse (s₁ ++ c.marker.toString ++ s₂) = .ok (settleJoiners (raw ++ { f with
      joiner := f.joiner.or (if last.stop = s₁.toList.length then some c else none) } :: raw')) := by
  have hall := matches_append_marker h₁ h₂ c
  rw [h₁.map_followedBy] at hall
  refine (parse_eq_ok_iff hall).2 ⟨_, ?_, rfl⟩
  have hshift : (ms₂.map (·.shift (s₁.toList.length + 1))).map Match.piece =
      raw'.map toPiece := by
    rw [← hraw', List.map_map]
    rfl
  have hfollowed : (last.followedBy s₁.toList.length c).piece = toPiece { f with
      joiner := f.joiner.or (if last.stop = s₁.toList.length then some c else none) } := by
    rw [Match.followedBy, hlast]
    rfl
  simp only [List.map_append, List.map_cons, hbefore, hshift, hfollowed, List.append_assoc,
    List.cons_append, List.nil_append]

/-- Where one of the two texts has no filter, the filters are those of the other one. -/
theorem parse_append_marker_of_nil (h₁ : Matches s₁.toList 0 ms₁) (h₂ : Matches s₂.toList 0 ms₂)
    {fs gs : List Filter} (hfs : parse s₁ = .ok fs) (hgs : parse s₂ = .ok gs)
    (hnil : fs = [] ∨ gs = []) (c : Combinator) :
    parse (s₁ ++ c.marker.toString ++ s₂) = .ok (fs ++ gs) := by
  obtain ⟨raw, hraw, rfl⟩ := (parse_eq_ok_iff h₁).1 hfs
  obtain ⟨raw', hraw', rfl⟩ := (parse_eq_ok_iff h₂).1 hgs
  rcases List.eq_nil_or_concat' raw with rfl | ⟨raw, last, rfl⟩
  · have hall := matches_append_marker h₁ h₂ c
    obtain rfl := List.map_eq_nil_iff.1 hraw
    refine (parse_eq_ok_iff hall).2 ⟨raw', ?_, rfl⟩
    rw [← hraw', List.map_nil, List.nil_append, List.map_map]
    rfl
  · have hne : settleJoiners (raw ++ [last]) ≠ [] := by
      rw [settleJoiners_concat]
      exact List.append_ne_nil_of_right_ne_nil _ (List.cons_ne_nil _ [])
    obtain rfl : raw' = [] := by
      have hlength := length_settleJoiners raw'
      rw [hnil.resolve_left hne] at hlength
      exact List.length_eq_zero_iff.1 hlength.symm
    obtain ⟨before, m, rfl, hbefore, hm⟩ := exists_of_map_piece_eq_concat hraw
    -- the marker is the joiner of the last filter, which is dropped
    rw [parse_append_marker_of_concat h₁ h₂ hbefore hm hraw', settleJoiners_concat,
      settleJoiners_concat]
    exact congrArg Except.ok (List.append_nil _).symm

/-- Where both texts have filters, they stand one after the other, and the last filter of the first text
is joined by the combinator of its match, else by the marker if the match ends the text, else by
`and`. -/
theorem parse_append_marker_of_ok (h₁ : Matches s₁.toList 0 ms₁) (h₂ : Matches s₂.toList 0 ms₂)
    {before gs : List Filter} {last : Filter} (hfs : parse s₁ = .ok (before ++ [last]))
    (hgs : parse s₂ = .ok gs) (hne : gs ≠ []) (c : Combinator) :
    ∃ m, ms₁.getLast? = some m ∧ m.Carried last ∧
      parse (s₁ ++ c.marker.toString ++ s₂) = .ok (before ++
        { last with joiner := some (m.piece.joiner.getD
          (if m.stop = s₁.toList.length then c else .and)) } :: gs) := by
  obtain ⟨raw, hraw, hsettled⟩ := (parse_eq_ok_iff h₁).1 hfs
  obtain ⟨raw', hraw', rfl⟩ := (parse_eq_ok_iff h₂).1 hgs
  have hne' : raw' ≠ [] := by
    rintro rfl
    exact hne rfl
  rcases List.eq_nil_or_concat' raw with rfl | ⟨raw, f, rfl⟩
  · exact absurd hsettled (List.append_ne_nil_of_right_ne_nil before (List.cons_ne_nil last []))
  · obtain ⟨msBefore, m, rfl, hbefore, hm⟩ := exists_of_map_piece_eq_concat hraw
    rw [settleJoiners_concat] at hsettled
    obtain ⟨rfl, hlast⟩ := List.append_inj' hsettled rfl
    obtain rfl := List.singleton_injective hlast
    refine ⟨m, List.getLast?_concat, ?_, ?_⟩
    · refine ⟨?_, ?_, ?_⟩
      · rw [hm, toPiece]
      · rw [hm, toPiece]
      · rw [hm, toPiece]
    · have hjoiner : m.piece.joiner = f.joiner := congrArg Piece.joiner hm
      have hgetD : (f.joiner.or (if m.stop = s₁.toList.length then some c else none)).getD .and =
          f.joiner.getD (if m.stop = s₁.toList.length then c else .and) := by
        cases f.joiner with
        | some j => rfl
        | none =>
          rw [Option.none_or, Option.getD_none]
          split <;> rfl
      rw [parse_append_marker_of_concat h₁ h₂ hbefore hm hraw',
        settleJoiners_append (List.cons_ne_nil _ raw'), settleJoiners_cons hne', hjoiner, ← hgetD]

end Texts

/-- Two filter strings with a combinator between them are read one after the other. An unknown operator
of the first one is the error, else one of the second. Otherwise the filters are those of both, as they
are, if one of the strings has none; if both have some, the last filter of the first string gets the
combinator of its match as its joiner, else the one between the strings if the match ends where the
first string does, else `and`. -/
theorem parse_append_marker (s₁ s₂ : String) (c : Combinator) :
    let s := s₁ ++ c.marker.toString ++ s₂
    ∃ ms, Matches s₁.toList 0 ms ∧
      (∀ e, parse s₁ = .error e → parse s = .error e) ∧
      (∀ fs e, parse s₁ = .ok fs → parse s₂ = .error e → parse s = .error e) ∧
      (∀ fs gs, parse s₁ = .ok fs → parse s₂ = .ok gs → fs = [] ∨ gs = [] →
        parse s = .ok (fs ++ gs)) ∧
      ∀ before last gs, parse s₁ = .ok (before ++ [last]) → parse s₂ = .ok gs → gs ≠ [] →
        ∃ m, ms.getLast? = some m ∧ m.Carried last ∧ parse s = .ok (before ++
          { last with joiner := some (m.piece.joiner.getD
            (if m.stop = s₁.toList.length then c else .and)) } :: gs) := by
  intro s
  obtain ⟨ms₁, h₁, -⟩ := exists_matches s₁.toList 0
  obtain ⟨ms₂, h₂, -⟩ := exists_matches s₂.toList 0
  refine ⟨ms₁, h₁, fun e he => ?_, fun fs e hfs he => ?_, fun fs gs hfs hgs hnil => ?_,
    fun before last gs hfs hgs hne => ?_⟩
  · exact parse_append_marker_of_error h₁ h₂ he c
  · exact parse_append_marker_of_ok_error h₁ h₂ hfs he c
  · exact parse_append_marker_of_nil h₁ h₂ hfs hgs hnil c
  · exact parse_append_marker_of_ok h₁ h₂ hfs hgs hne c

/-- The comma joins the last filter of the first string, which ends with an `@` that is left over from an
operator run; the trailing semicolon of the second string is dropped. With a blank before it the comma
joins nothing, and with an unknown operator on one side there is an error. -/
theorem parse_append_marker_comma :
    let first : Filter := ⟨"x", .generic .ne, "1", some .and⟩
    let last : Filter := ⟨"a", .generic .eq, "@", none⟩
    let next : Filter := ⟨"b", .generic .gt, "2", none⟩
    parse "x!=1(a==@" = .ok [first, last] ∧ parse "b>2;" = .ok [next] ∧
      (∃ m : Match, m.Carried last ∧ parse "x!=1(a==@,b>2;" = .ok [first,
        { last with joiner := some (m.piece.joiner.getD (if m.stop = 9 then .or else .and)) },
        next]) ∧
      parse "x!=1(a==@,b>2;" = .ok [first, { last with joiner := some .or }, next] ∧
      parse "x!=1(a==@ ,b>2;" = .ok [first, { last with joiner := some .and }, next] ∧
      parse "c=1,b>2;" = .error (.unknownOperator "=") ∧
      parse "b>2;,c=1" = .error (.unknownOperator "=") ∧ parse "?,b>2;" = .ok [next] := by
  intro first last next
  have hfirst : parse "x!=1(a==@" = .ok [first, last] := by decide +kernel
  have hnext : parse "b>2;" = .ok [next] := by decide +kernel
  have hunknown : parse "c=1" = .error (.unknownOperator "=") := by decide +kernel
  have hempty : parse "?" = .ok [] := by decide +kernel
  obtain ⟨ms, -, -, -, -, hjoined⟩ := parse_append_marker "x!=1(a==@" "b>2;" .or
  obtain ⟨m, -, hcarried, hparse⟩ := hjoined [first] last [next] hfirst hnext (List.cons_ne_nil _ _)
  obtain ⟨-, -, herror, -⟩ := parse_append_marker "c=1" "b>2;" .or
  obtain ⟨-, -, -, herror', -⟩ := parse_append_marker "b>2;" "c=1" .or
  obtain ⟨-, -, -, -, hnil, -⟩ := parse_append_marker "?" "b>2;" .or
  exact ⟨hfirst, hnext, ⟨m, hcarried, hparse⟩, by decide +kernel, by decide +kernel,
    herror _ hunknown, herror' _ _ hnext hunknown, hnil _ _ hempty hnext (.inl rfl)⟩

end FilterClause.Filter
